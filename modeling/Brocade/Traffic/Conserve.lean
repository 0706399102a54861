/-
The traffic ledger over whole runs.

A run is a list of readings as they arrive, of any machines and in any order; one that
fails leaves the database alone.  What a machine accepted is a sublist of them, and the
accounted totals are the growth along that list, from each reading to the next one of the
same meter.  The induction goes over the calls; what it carries is `Shows`, that the meter's
row is the last reading accepted.
-/
import Brocade.Traffic.Ledger

namespace Brocade.Traffic

/-- A reading arrives. -/
structure Call where
  nodeId : String
  observedAt : ℤ
  reading : NodeTrafficReading

def Call.at' (call : Call) : ℤ := sampledAt call.observedAt call.reading

/-- The database after one call. -/
def step (db : Db) (call : Call) : Db :=
  match recordNodeTraffic db call.nodeId call.observedAt call.reading with
  | .ok db' => db'
  | .error _ => db

def runFrom (db : Db) (calls : List Call) : Db := calls.foldl step db

/-- Machines nothing was reported of yet. -/
def start (nodes : List String) : Db := ⟨nodes, fun _ => .empty⟩

def run (nodes : List String) (calls : List Call) : Db := runFrom (start nodes) calls

/-- The call ends well and is not dropped as stale. -/
def accepts (db : Db) (call : Call) : Bool :=
  (recordNodeTraffic db call.nodeId call.observedAt call.reading).isOk
    && !isStale (db.traffic call.nodeId).state call.reading call.at'

/-- The readings of a machine that were accepted, in order. -/
def acceptedFrom (nodeId : String) : Db → List Call → List NodeTrafficReading
  | _, [] => []
  | db, call :: calls =>
    (if call.nodeId = nodeId ∧ accepts db call = true then [call.reading] else [])
      ++ acceptedFrom nodeId (step db call) calls

/-- What the counters of one meter increased by, nothing in a direction that fell. -/
def growth (before after : NodeTrafficReading) : Bytes :=
  if before.meterId = after.meterId then
    (after.rxBytes - before.rxBytes, after.txBytes - before.txBytes)
  else (0, 0)

/-- The growth between consecutive readings, behind an earlier one. -/
def growths : Option NodeTrafficReading → List NodeTrafficReading → Bytes
  | _, [] => (0, 0)
  | before, reading :: readings =>
    (before.map fun before => growth before reading).getD (0, 0)
      + growths (some reading) readings

/-- The meter's row is this reading. -/
def Shows : Option NodeTrafficReading → Option NodeTrafficState → Prop
  | none, state => state = none
  | some reading, state =>
    ∃ row, state = some row ∧ row.meterId = reading.meterId ∧ row.agentBytes = reading.bytes

theorem Shows.delta {before : Option NodeTrafficReading} {state : Option NodeTrafficState}
    (h : Shows before state) (reading : NodeTrafficReading) : (counterDelta state reading).1
      = (before.map fun before => growth before reading).getD (0, 0) := by
  cases before with
  | none =>
    have h : state = none := h
    rw [h]
    rfl
  | some before =>
    obtain ⟨row, rfl, hmeter, hbytes⟩ := h
    by_cases hsame : before.meterId = reading.meterId
    · simp [counterDelta, growth, hmeter, hsame, hbytes, NodeTrafficReading.bytes]
    · simp [counterDelta, growth, hmeter, hsame]

/-! ### One call -/

/-- A call that is not accepted changes nothing; one that is changes its machine's rows. -/
theorem step_cases (db : Db) (call : Call) :
    (accepts db call = false ∧ step db call = db) ∨ (accepts db call = true
          ∧ Accepted (db.traffic call.nodeId) ((step db call).traffic call.nodeId) call.reading
            call.at'
          ∧ ∀ nodeId, nodeId ≠ call.nodeId →
            (step db call).traffic nodeId = db.traffic nodeId) := by
  unfold accepts step recordNodeTraffic
  cases hrecord : recordReading (db.traffic call.nodeId) call.observedAt call.reading with
  | error e => exact .inl ⟨rfl, rfl⟩
  | ok rows =>
    rcases recordReading_cases hrecord with ⟨hstale, hrows⟩ | haccepted
    · refine .inl ⟨?_, ?_⟩
      · have hstale : isStale (db.traffic call.nodeId).state call.reading call.at' = true := hstale
        rw [hstale, Bool.not_true, Bool.and_false]
      · subst hrows
        by_cases hknown : call.nodeId ∈ db.nodes ∨ (db.traffic call.nodeId).state = none
        · simp only [if_pos hknown, Function.update_eq_self]
        · simp only [if_neg hknown]
    · by_cases hknown : call.nodeId ∈ db.nodes ∨ rows.state = none
      · refine .inr ⟨?_, ?_, ?_⟩
        · have hfresh : isStale (db.traffic call.nodeId).state call.reading call.at' = false :=
            haccepted.fresh
          simp [hknown, hfresh, Except.isOk, Except.toBool]
        · simp only [if_pos hknown, Function.update_self]
          exact haccepted
        · intro nodeId hne
          simp only [if_pos hknown, Function.update_of_ne hne]
      · refine .inl ?_
        simp [hknown, Except.isOk, Except.toBool]

/-- **A stale reading changes nothing.** -/
theorem step_stale {db : Db} {call : Call}
    (h : isStale (db.traffic call.nodeId).state call.reading call.at' = true) :
    step db call = db := by
  rcases step_cases db call with ⟨_, hsame⟩ | ⟨_, haccepted, _⟩
  · exact hsame
  · rw [haccepted.fresh] at h
    exact absurd h Bool.false_ne_true

/-! ### Runs -/

theorem runFrom_ledger {nodeId : String} {calls : List Call} {db : Db}
    {before : Option NodeTrafficReading} (hshows : Shows before (db.traffic nodeId).state) :
    dailyTotal ((runFrom db calls).traffic nodeId)
        = dailyTotal (db.traffic nodeId) + growths before (acceptedFrom nodeId db calls)
      ∧ accounted ((runFrom db calls).traffic nodeId)
        = accounted (db.traffic nodeId) + growths before (acceptedFrom nodeId db calls) := by
  induction calls generalizing db before with
  | nil => exact ⟨(add_zero _).symm, (add_zero _).symm⟩
  | cons call calls ih =>
    show dailyTotal ((runFrom (step db call) calls).traffic nodeId) = _
      ∧ accounted ((runFrom (step db call) calls).traffic nodeId) = _
    unfold acceptedFrom
    rcases step_cases db call with ⟨hreject, hsame⟩ | ⟨haccept, haccepted, hframe⟩
    · rw [hsame, hreject, if_neg (by simp), List.nil_append]
      exact ih hshows
    by_cases hnode : nodeId = call.nodeId
    · subst hnode
      rw [if_pos ⟨rfl, haccept⟩, List.singleton_append, growths]
      have hnext : Shows (some call.reading) ((step db call).traffic call.nodeId).state :=
        ⟨_, haccepted.state, rfl, rfl⟩
      obtain ⟨hdaily, haccounted⟩ := ih hnext
      rw [hdaily, haccounted, haccepted.dailyTotal, haccepted.accounted, hshows.delta]
      exact ⟨add_assoc .., add_assoc ..⟩
    · rw [if_neg fun h => hnode h.1.symm, List.nil_append, ← hframe nodeId hnode]
      refine ih ?_
      rw [hframe nodeId hnode]
      exact hshows

/-- What the counters of the last accepted reading and of a new one say of each day's row. -/
theorem Accepted.days {rows rows' : NodeTraffic} {reading : NodeTrafficReading} {at' : ℤ}
    {old : NodeTrafficState} (h : Accepted rows rows' reading at') (hold : rows.state = some old)
    (hmeter : old.meterId = reading.meterId) (hall : CarriesEveryMidnight old reading at')
    (habove : StaysAbove old reading at') (date : ℤ) :
    dailyOn rows'.daily date = dailyOn rows.daily date
      + (counterAt old reading at' (date + 1) - counterAt old reading at' date) := by
  have hle : old.lastReportedAt ≤ at' := by
    have hfresh := h.fresh
    rw [hold] at hfresh
    simp only [isStale, Option.any_some, Bool.or_eq_false_iff, decide_eq_false_iff_not] at hfresh
    omega
  have hsum := h.daily fun day => day = date
  rw [hold] at hsum
  rw [dailyOn, hsum, ← splitDailyDeltas_days h.validated hle hmeter hall habove date]
  rfl

/-- **The machine ledger is conserved.**  After any calls, the daily rows of a machine add up
to its accounted bytes, and these to the growth between consecutive accepted readings of one
meter.  A further reading that is older than the last accepted one, or of its meter and not
newer, changes nothing; and one that is accepted, of that meter, with every midnight since
and no boundary below the last counters, gives each day what the counters grew in it. -/
theorem node_ledger_conserved (nodes : List String) (calls : List Call) : (∀ nodeId,
        dailyTotal ((run nodes calls).traffic nodeId) = accounted ((run nodes calls).traffic nodeId)
        ∧ accounted ((run nodes calls).traffic nodeId)
          = growths none (acceptedFrom nodeId (start nodes) calls))
      ∧ (∀ call : Call,
        isStale ((run nodes calls).traffic call.nodeId).state call.reading call.at' = true →
        step (run nodes calls) call = run nodes calls)
      ∧ ∀ (call : Call) (old : NodeTrafficState),
        ((run nodes calls).traffic call.nodeId).state = some old →
        accepts (run nodes calls) call = true → old.meterId = call.reading.meterId →
        CarriesEveryMidnight old call.reading call.at' → StaysAbove old call.reading call.at' →
        ∀ date, dailyOn ((step (run nodes calls) call).traffic call.nodeId).daily date
            = dailyOn ((run nodes calls).traffic call.nodeId).daily date
              + (counterAt old call.reading call.at' (date + 1)
                - counterAt old call.reading call.at' date) := by
  refine ⟨fun nodeId => ?_, fun call => step_stale, ?_⟩
  · have hstart : Shows none ((start nodes).traffic nodeId).state := rfl
    obtain ⟨hdaily, haccounted⟩ := @runFrom_ledger nodeId calls (start nodes) none hstart
    have hzero : dailyTotal ((start nodes).traffic nodeId) = 0 := rfl
    have hzero' : accounted ((start nodes).traffic nodeId) = 0 := rfl
    rw [hzero, zero_add] at hdaily
    rw [hzero', zero_add] at haccounted
    exact ⟨hdaily.trans haccounted.symm, haccounted⟩
  · intro call old hold haccept hmeter hall habove date
    rcases step_cases (run nodes calls) call with ⟨hreject, _⟩ | ⟨_, haccepted, _⟩
    · rw [haccept] at hreject
      exact absurd hreject.symm Bool.false_ne_true
    · exact haccepted.days hold hmeter hall habove date

/-! ### Two days of a meter -/

/-- A reading of machine `n1`'s meter at a time, with what it received. -/
def fallenReading (sequence : ℕ) (at' : ℤ) (rxBytes : ℕ) (boundaries : List TrafficDayBoundary) :
    NodeTrafficReading where
  meterId := "00000000000000000000000000000000"
  sequence := sequence
  interface := "eth0"
  bootId := "00000000-0000-0000-0000-000000000000"
  rxBytes := rxBytes
  txBytes := 0
  discontinuities := 0
  sampledAtUnixSecs := some at'
  dayBoundaries := boundaries

/-- The meter stood at 100 on the first day. -/
def fallenCall : Call := ⟨"n1", 86410, fallenReading 1 86410 100 []⟩

/-- It stands at 160 on the second, and at midnight it stood at 130. -/
def risenNext : Call := ⟨"n1", 172810, fallenReading 2 172810 160 [⟨172800, 130, 0⟩]⟩

theorem carries_second {boundary : TrafficDayBoundary} {reading : NodeTrafficReading}
    (hmem : boundary ∈ reading.dayBoundaries) (hstart : boundary.dayStartUnixSecs = 172800) :
    CarriesEveryMidnight (nextState none fallenCall.reading 86410 (0, 0)) reading 172810 := by
  intro date hlow hhigh
  have hdate : date = 2 := by
    have hlow : (86410 : ℤ) / 86400 < date := hlow
    omega
  exact ⟨boundary, hmem, by rw [hstart, hdate]; rfl⟩

theorem first_day : ((run ["n1"] [fallenCall]).traffic "n1").state
    = some (nextState none fallenCall.reading 86410 (0, 0)) := by decide +kernel

/-- Over a midnight, what the meter grew before it is the first day's and the rest the second's. -/
theorem node_ledger_conserved_midnight :
    let rows := (step (run ["n1"] [fallenCall]) risenNext).traffic "n1"
    dailyOn rows.daily 1 = (30, 0) ∧ dailyOn rows.daily 2 = (30, 0)
      ∧ dailyTotal rows = accounted rows ∧ accounted rows = (60, 0)
      ∧ step (run ["n1"] [fallenCall]) fallenCall = run ["n1"] [fallenCall] := by
  have hone := node_ledger_conserved ["n1"] [fallenCall]
  have htwo := (node_ledger_conserved ["n1"] [fallenCall, risenNext]).1 "n1"
  have hdays := hone.2.2 risenNext _ first_day (by decide +kernel) rfl
    (carries_second (List.mem_singleton.mpr rfl) rfl)
    fun boundary hmem _ _ => by
      rw [List.mem_singleton.mp hmem]
      exact ⟨by decide, Nat.zero_le _⟩
  refine ⟨(hdays 1).trans (by decide +kernel), (hdays 2).trans (by decide +kernel), htwo.1,
    htwo.2.trans (by decide +kernel), hone.2.1 fallenCall (by decide +kernel)⟩

/-- It stands at 60 on the second, and says it was at 50 at midnight. -/
def fallenNext : Call := ⟨"n1", 172810, fallenReading 2 172810 60 [⟨172800, 50, 0⟩]⟩

/-- A machine's first meter, its second one, and a reading of the first again. -/
def replacedReading (meterId : String) (sequence : ℕ) (at' : ℤ) : NodeTrafficReading :=
  { fallenReading sequence at' 0 [] with meterId := meterId }

/-- A meter is replaced. -/
def replacedCalls : List Call :=
  [⟨"n1", 1000, replacedReading "00000000000000000000000000000000" 5 1000⟩,
    ⟨"n1", 2000, replacedReading "11111111111111111111111111111111" 1 2000⟩]

def replacedNext : Call :=
  ⟨"n1", 3000, replacedReading "00000000000000000000000000000000" 3 3000⟩

/-- A reading that carries every midnight does not always give each day the difference between
its two boundaries: where the counters fell, they are not split.  And a reading that is not
newer than an accepted one of its meter is accepted where the meter was replaced since. -/
theorem fallen_day_fails :
    (¬ ∀ (nodes : List String) (calls : List Call) (call : Call) (old : NodeTrafficState),
      ((run nodes calls).traffic call.nodeId).state = some old →
      accepts (run nodes calls) call = true →
      CarriesEveryMidnight old call.reading call.at' →
      ∀ date, ((dailyOn ((step (run nodes calls) call).traffic call.nodeId).daily date).1 : ℤ)
          = (dailyOn ((run nodes calls).traffic call.nodeId).daily date).1
            + ((counterAt old call.reading call.at' (date + 1)).1
              - (counterAt old call.reading call.at' date).1))
    ∧ ¬ ∀ (nodes : List String) (calls : List Call) (call : Call) (earlier : NodeTrafficReading),
      earlier ∈ acceptedFrom call.nodeId (start nodes) calls →
      earlier.meterId = call.reading.meterId → call.reading.sequence ≤ earlier.sequence →
      (step (run nodes calls) call).traffic call.nodeId
        = (run nodes calls).traffic call.nodeId := by
  refine ⟨?_, ?_⟩
  · intro h
    have hday := h ["n1"] [fallenCall] fallenNext _ first_day (by decide +kernel)
      (carries_second (List.mem_singleton.mpr rfl) rfl) 2
    exact absurd hday (by decide +kernel)
  · intro h
    have hsame := h ["n1"] replacedCalls replacedNext
      (replacedReading "00000000000000000000000000000000" 5 1000) (by decide +kernel) rfl
      (by decide)
    have hstate := congrArg (fun rows => rows.state.map (·.sequence)) hsame
    exact absurd hstate (by decide +kernel)

end Brocade.Traffic
