/-
The two ledgers of a machine agree.

A reading is either dropped without a trace or accepted, and an accepted one adds the same
bytes to the accounted totals and to the daily rows (`recordReading_cases`).  That goes
through runs: whatever arrives, the daily rows add up to the accounted totals, and these to
the growth between accepted readings of one meter (`node_ledger_conserved`).

Where a reading of the same meter carries every midnight and stayed above the old counters,
the split follows the counters day by day.  `counterAt` is the meter's value at the first
second of any day, before and behind the reading's days too, and each day receives what it
grows there (`splitAt_days`).
-/
import Brocade.Traffic.Record

namespace Brocade.Traffic

open Fallible

/-! ### Sums -/

/-- All bytes a machine's daily rows hold. -/
def dailyTotal (rows : NodeTraffic) : Bytes := rows.daily.total (fun _ => true) id

/-- The bytes of one day. -/
def dailyOn (daily : Table ℤ Bytes) (date : ℤ) : Bytes := daily.total (· = date) id

def accounted (rows : NodeTraffic) : Bytes := (rows.state.map (·.accountedBytes)).getD (0, 0)

/-- What a list of deltas adds to one date. -/
def deltasOn (deltas : List (ℤ × Bytes)) (date : ℤ) : Bytes :=
  ((deltas.filter fun entry => entry.1 / 86400 = date).map Prod.snd).sum

theorem addDay_total {daily daily' : Table ℤ Bytes} {entry : ℤ × Bytes} {p : ℤ → Bool}
    (h : addDay daily entry = .ok daily') :
    daily'.total p id = daily.total p id + if p (entry.1 / 86400) then entry.2 else 0 := by
  unfold addDay at h
  by_cases hzero : entry.2 = (0, 0)
  · rw [if_pos hzero, Except.ok.injEq] at h
    subst h
    have : (if p (entry.1 / 86400) then entry.2 else 0) = (0 : Bytes) := by
      rw [hzero]
      exact ite_self _
    rw [this, add_zero]
  · rw [if_neg hzero] at h
    simp only at h
    split at h
    · rw [Except.ok.injEq] at h
      subst h
      exact Table.total_upsert daily _ _ p rfl fun _ => rfl
    · cases h

theorem addDays_total {deltas : List (ℤ × Bytes)} {daily daily' : Table ℤ Bytes} {p : ℤ → Bool}
    (h : deltas.foldlM addDay daily = .ok daily') : daily'.total p id
      = daily.total p id + ((deltas.filter fun entry => p (entry.1 / 86400)).map Prod.snd).sum := by
  induction deltas generalizing daily with
  | nil =>
    rw [List.foldlM_nil, pure_eq_ok] at h
    rw [h]
    simp
  | cons entry deltas ih =>
    rw [List.foldlM_cons, bind_eq_ok] at h
    obtain ⟨next, hentry, hrest⟩ := h
    rw [ih hrest, addDay_total hentry, add_assoc]
    by_cases hp : p (entry.1 / 86400) <;> simp [hp]

/-! ### Splitting -/

/-- Boundaries in order: later days, and counters that do not fall below the last ones or
pass the reading's. -/
def Ascending (bytes : Bytes) : Bytes → List TrafficDayBoundary → Prop
  | _, [] => True
  | last, boundary :: rest =>
    last.1 ≤ boundary.rxBytes ∧ last.2 ≤ boundary.txBytes
      ∧ boundary.rxBytes ≤ bytes.1 ∧ boundary.txBytes ≤ bytes.2
      ∧ Ascending bytes boundary.bytes rest

variable {day cursor at' date : ℤ} {bytes last : Bytes} {boundaries : List TrafficDayBoundary}
    {previous : Option TrafficDayBoundary} {reading : NodeTrafficReading} {old : NodeTrafficState}
    {rows rows' : NodeTraffic}

/-- **The days of a split add up to what the counters grew.** -/
theorem splitAt_sum (h : Ascending bytes last boundaries) :
    ((splitAt day bytes cursor last boundaries).map Prod.snd).sum
      = (bytes.1 - last.1, bytes.2 - last.2) := by
  induction boundaries generalizing cursor last with
  | nil => simp [splitAt]
  | cons boundary rest ih =>
    obtain ⟨hrx, htx, hrx', htx', hrest⟩ := h
    rw [splitAt, List.map_cons, List.sum_cons, ih hrest]
    refine Prod.ext ?_ ?_
    · show boundary.rxBytes - last.1 + (bytes.1 - boundary.rxBytes) = bytes.1 - last.1
      omega
    · show boundary.txBytes - last.2 + (bytes.2 - boundary.txBytes) = bytes.2 - last.2
      omega

/-- What validation says of each boundary. -/
structure BoundaryOk (bytes : Bytes) (boundary : TrafficDayBoundary) : Prop where
  aligned : boundary.dayStartUnixSecs % 86400 = 0
  rx : boundary.rxBytes ≤ bytes.1
  tx : boundary.txBytes ≤ bytes.2

/-- A later boundary, with counters that did not fall. -/
def Later (old boundary : TrafficDayBoundary) : Prop :=
  old.dayStartUnixSecs < boundary.dayStartUnixSecs
    ∧ old.rxBytes ≤ boundary.rxBytes ∧ old.txBytes ≤ boundary.txBytes

theorem dayBoundariesOk_cons {sampledAt : Option ℤ} {boundary : TrafficDayBoundary}
    {rest : List TrafficDayBoundary}
    (h : dayBoundariesOk sampledAt bytes previous (boundary :: rest) = true) :
    BoundaryOk bytes boundary ∧ (∀ old ∈ previous, Later old boundary)
      ∧ dayBoundariesOk sampledAt bytes (some boundary) rest = true := by
  unfold dayBoundariesOk at h
  simp only [Bool.and_eq_true, Bool.not_eq_true', Bool.or_eq_false_iff, decide_eq_false_iff_not]
    at h
  obtain ⟨⟨⟨⟨⟨⟨_, haligned⟩, _⟩, hrx⟩, htx⟩, hprevious⟩, hrest⟩ := h
  refine ⟨⟨by omega, by omega, by omega⟩, ?_, hrest⟩
  rintro old rfl
  simp only [Option.any_some, Bool.or_eq_false_iff, decide_eq_false_iff_not] at hprevious
  exact ⟨by omega, by omega, by omega⟩

theorem dayBoundariesOk_spec {sampledAt : Option ℤ}
    (h : dayBoundariesOk sampledAt bytes previous boundaries = true) :
    (∀ boundary ∈ boundaries, BoundaryOk bytes boundary)
      ∧ boundaries.Pairwise Later ∧ ∀ old ∈ previous, ∀ boundary ∈ boundaries, Later old boundary := by
  induction boundaries generalizing previous with
  | nil => exact ⟨nofun, .nil, nofun⟩
  | cons boundary rest ih =>
    obtain ⟨hok, hprevious, hrest⟩ := dayBoundariesOk_cons h
    obtain ⟨hall, hpairs, hlater⟩ := ih hrest
    refine ⟨?_, List.pairwise_cons.mpr ⟨hlater boundary rfl, hpairs⟩, ?_⟩
    · intro b hb
      rcases List.mem_cons.mp hb with rfl | hb
      · exact hok
      · exact hall b hb
    · intro old hold b hb
      rcases List.mem_cons.mp hb with rfl | hb
      · exact hprevious old hold
      · obtain ⟨h₁, h₂, h₃⟩ := hprevious old hold
        obtain ⟨h₁', h₂', h₃'⟩ := hlater boundary rfl b hb
        exact ⟨by omega, by omega, by omega⟩

theorem dayBoundariesOk_upTo (h : dayBoundariesOk (some at') bytes previous boundaries = true) :
    ∀ boundary ∈ boundaries, boundary.dayStartUnixSecs ≤ dayOf at' := by
  induction boundaries generalizing previous with
  | nil => exact nofun
  | cons boundary rest ih =>
    have hrest := (dayBoundariesOk_cons h).2.2
    have haligned := (dayBoundariesOk_cons h).1.aligned
    unfold dayBoundariesOk at h
    simp only [Option.all_some, Bool.and_eq_true, Bool.not_eq_true', Bool.or_eq_false_iff,
      decide_eq_false_iff_not] at h
    obtain ⟨⟨⟨⟨⟨_, hat⟩, _⟩, _⟩, _⟩, _⟩ := h
    intro b hb
    rcases List.mem_cons.mp hb with rfl | hb
    · unfold dayOf
      omega
    · exact ih hrest b hb

/-- What a validated reading's boundaries are like. -/
structure Validated (reading : NodeTrafficReading) : Prop where
  each : ∀ boundary ∈ reading.dayBoundaries, BoundaryOk reading.bytes boundary
  order : reading.dayBoundaries.Pairwise Later

theorem validateReading_ok {u : Unit} (h : validateReading reading = .ok u) :
    Validated reading := by
  unfold validateReading validateDayBoundaries at h
  by_cases hlength : 400 < reading.dayBoundaries.length
  · rw [if_pos hlength] at h
    exact absurd h nofun
  by_cases hok : dayBoundariesOk reading.sampledAtUnixSecs reading.bytes none
      reading.dayBoundaries = true
  · obtain ⟨heach, horder, _⟩ := dayBoundariesOk_spec hok
    exact ⟨heach, horder⟩
  · rw [if_neg hlength, if_neg hok] at h
    exact absurd h nofun

theorem ascending_of_pairwise (heach : ∀ boundary ∈ boundaries, BoundaryOk bytes boundary)
    (horder : boundaries.Pairwise Later)
    (hlast : ∀ boundary ∈ boundaries, last.1 ≤ boundary.rxBytes ∧ last.2 ≤ boundary.txBytes) :
    Ascending bytes last boundaries := by
  induction boundaries generalizing last with
  | nil => trivial
  | cons boundary rest ih =>
    obtain ⟨hhead, htail⟩ := List.pairwise_cons.mp horder
    obtain ⟨_, hrx, htx⟩ := heach boundary List.mem_cons_self
    obtain ⟨hlastRx, hlastTx⟩ := hlast boundary List.mem_cons_self
    exact ⟨hlastRx, hlastTx, hrx, htx, ih (fun b hb => heach b (List.mem_cons_of_mem _ hb)) htail
      fun b hb => ⟨(hhead b hb).2.1, (hhead b hb).2.2⟩⟩

theorem newBoundaries_ascending (h : Validated reading) :
    Ascending reading.bytes old.agentBytes (newBoundaries old reading at') := by
  refine ascending_of_pairwise (fun b hb => h.each b (List.mem_of_mem_filter hb))
    (h.order.filter _) fun b hb => ?_
  have hkept := List.of_mem_filter hb
  simp only [Bool.and_eq_true, decide_eq_true_eq] at hkept
  exact ⟨hkept.1.2, hkept.2⟩

theorem splitDailyDeltas_sum {previous : Option NodeTrafficState} (h : Validated reading) :
    ((splitDailyDeltas previous reading at' (counterDelta previous reading).1).1.map Prod.snd).sum
      = (counterDelta previous reading).1 := by
  unfold splitDailyDeltas
  cases hsame : previous.filter fun old => old.meterId = reading.meterId with
  | none => simp
  | some old =>
    obtain ⟨rfl, hmeter⟩ := Option.filter_eq_some_iff.mp hsame
    have hmeter : old.meterId = reading.meterId := by simpa using hmeter
    have hdelta : (counterDelta (some old) reading).1
        = (reading.rxBytes - old.agentBytes.1, reading.txBytes - old.agentBytes.2) := by
      simp [counterDelta, hmeter]
    simp only
    split
    · rw [splitAt_sum (newBoundaries_ascending h), hdelta]
      rfl
    · simp

/-! ### One transaction -/

/-- The reading was accepted: it is the meter's latest now, and both ledgers grew by the same
bytes. -/
structure Accepted (rows rows' : NodeTraffic) (reading : NodeTrafficReading) (at' : ℤ) : Prop where
  fresh : isStale rows.state reading at' = false
  state : rows'.state = some (nextState rows.state reading at' (counterDelta rows.state reading).1)
  daily : ∀ p : ℤ → Bool, rows'.daily.total p id = rows.daily.total p id
    + (((splitDailyDeltas rows.state reading at' (counterDelta rows.state reading).1).1.filter
        fun entry => p (entry.1 / 86400)).map Prod.snd).sum
  validated : Validated reading

theorem applyReading_ok (h : applyReading rows reading at' = .ok rows') :
    rows'.state = some (nextState rows.state reading at' (counterDelta rows.state reading).1)
      ∧ (splitDailyDeltas rows.state reading at' (counterDelta rows.state reading).1).1.foldlM
          addDay rows.daily = .ok rows'.daily := by
  unfold applyReading at h
  simp only at h
  split at h
  · exact absurd h nofun
  split at h
  · exact absurd h nofun
  split at h
  · exact absurd h nofun
  · rename_i daily hdaily
    rw [Except.ok.injEq] at h
    subst h
    exact ⟨rfl, hdaily⟩

/-- **A reading that does not fail is stale and changes nothing, or it is accepted.** -/
theorem recordReading_cases {observedAt : ℤ}
    (h : recordReading rows observedAt reading = .ok rows') :
    (isStale rows.state reading (sampledAt observedAt reading) = true ∧ rows' = rows)
      ∨ Accepted rows rows' reading (sampledAt observedAt reading) := by
  unfold recordReading at h
  cases hvalid : validateReading reading with
  | error e =>
    rw [hvalid] at h
    exact absurd h nofun
  | ok u =>
    rw [hvalid] at h
    simp only at h
    split at h
    · exact absurd h nofun
    cases hstale : isStale rows.state reading (sampledAt observedAt reading) with
    | true =>
      rw [hstale, if_pos rfl, Except.ok.injEq] at h
      exact .inl ⟨rfl, h.symm⟩
    | false =>
      rw [hstale, if_neg Bool.false_ne_true] at h
      obtain ⟨hstate, hdaily⟩ := applyReading_ok h
      exact .inr ⟨hstale, hstate, fun p => addDays_total hdaily, validateReading_ok hvalid⟩

theorem Accepted.dailyTotal (h : Accepted rows rows' reading at') :
    dailyTotal rows' = dailyTotal rows + (counterDelta rows.state reading).1 := by
  have hsum := h.daily fun _ => true
  rw [List.filter_true, splitDailyDeltas_sum h.validated] at hsum
  exact hsum

theorem Accepted.accounted (h : Accepted rows rows' reading at') :
    accounted rows' = accounted rows + (counterDelta rows.state reading).1 := by
  unfold Traffic.accounted
  rw [h.state]
  cases rows.state with
  | none => rfl
  | some old => rfl

/-! ### Day by day -/

/-- The meter's counters at the first second of a date: those of the last reading up to its
day, those of the new one behind its day, and what the boundary says in between. -/
def counterAt (old : NodeTrafficState) (reading : NodeTrafficReading) (at' date : ℤ) : Bytes :=
  if date ≤ old.lastReportedAt / 86400 then old.agentBytes
  else if at' / 86400 < date then reading.bytes
  else ((reading.dayBoundaries.find? fun boundary =>
    boundary.dayStartUnixSecs = date * 86400).map (·.bytes)).getD (0, 0)

/-- The reading has a boundary for every UTC midnight since the last one. -/
def CarriesEveryMidnight (old : NodeTrafficState) (reading : NodeTrafficReading) (at' : ℤ) : Prop :=
  ∀ date, old.lastReportedAt / 86400 < date → date ≤ at' / 86400 →
    ∃ boundary ∈ reading.dayBoundaries, boundary.dayStartUnixSecs = date * 86400

/-- None of these boundaries is below the last reading's counters. -/
def StaysAbove (old : NodeTrafficState) (reading : NodeTrafficReading) (at' : ℤ) : Prop :=
  ∀ boundary ∈ reading.dayBoundaries, dayOf old.lastReportedAt < boundary.dayStartUnixSecs →
    boundary.dayStartUnixSecs ≤ dayOf at' →
    old.agentBytes.1 ≤ boundary.rxBytes ∧ old.agentBytes.2 ≤ boundary.txBytes

/-- One boundary for each day behind `cursor`, up to `day`. -/
def Consecutive (day : ℤ) : ℤ → List TrafficDayBoundary → Prop
  | cursor, [] => cursor = day
  | cursor, boundary :: rest =>
    boundary.dayStartUnixSecs = cursor + 86400 ∧ Consecutive day boundary.dayStartUnixSecs rest

theorem Consecutive.le (h : Consecutive day cursor boundaries) :
    cursor ≤ day ∧ (boundaries.length : ℤ) * 86400 = day - cursor := by
  induction boundaries generalizing cursor with
  | nil =>
    have h : cursor = day := h
    simp [h]
  | cons boundary rest ih =>
    obtain ⟨hstart, hrest⟩ := h
    obtain ⟨hle, hlength⟩ := ih hrest
    rw [List.length_cons]
    push_cast
    omega

theorem consecutive_of_all (hcursor : cursor % 86400 = 0) (hle : cursor ≤ day)
    (hinside : ∀ boundary ∈ boundaries, boundary.dayStartUnixSecs % 86400 = 0
      ∧ cursor < boundary.dayStartUnixSecs ∧ boundary.dayStartUnixSecs ≤ day)
    (horder : boundaries.Pairwise Later)
    (hall : ∀ start, start % 86400 = 0 → cursor < start → start ≤ day →
      ∃ boundary ∈ boundaries, boundary.dayStartUnixSecs = start) (hday : day % 86400 = 0) :
    Consecutive day cursor boundaries := by
  induction boundaries generalizing cursor with
  | nil =>
    show cursor = day
    by_contra hne
    obtain ⟨boundary, hmem, _⟩ := hall (cursor + 86400) (by omega) (by omega) (by omega)
    exact absurd hmem List.not_mem_nil
  | cons boundary rest ih =>
    obtain ⟨hhead, htail⟩ := List.pairwise_cons.mp horder
    obtain ⟨haligned, hafter, hupto⟩ := hinside boundary List.mem_cons_self
    -- the next midnight is carried, and nothing in the list is earlier than its head
    have hnext : boundary.dayStartUnixSecs = cursor + 86400 := by
      obtain ⟨b, hb, hstart⟩ := hall (cursor + 86400) (by omega) (by omega) (by omega)
      rcases List.mem_cons.mp hb with rfl | hb
      · exact hstart
      · have hlater := (hhead b hb).1
        omega
    refine ⟨hnext, ih haligned hupto ?_ htail ?_⟩
    · intro b hb
      obtain ⟨haligned', -, hupto'⟩ := hinside b (List.mem_cons_of_mem _ hb)
      exact ⟨haligned', (hhead b hb).1, hupto'⟩
    · intro start hstart hlow hhigh
      obtain ⟨b, hb, hb'⟩ := hall start hstart (by omega) hhigh
      rcases List.mem_cons.mp hb with rfl | hb
      · omega
      · exact ⟨b, hb, hb'⟩

theorem deltasOn_cons (start : ℤ) (bytes : Bytes) (deltas : List (ℤ × Bytes)) (date : ℤ) :
    deltasOn ((start, bytes) :: deltas) date
      = (if start / 86400 = date then bytes else 0) + deltasOn deltas date := by
  unfold deltasOn
  by_cases h : start / 86400 = date <;> simp [h]

/-- The counters at a date along a list of boundaries, from `cursor` on. -/
def valueAt (day : ℤ) (bytes : Bytes) (cursor : ℤ) (last : Bytes)
    (boundaries : List TrafficDayBoundary) (date : ℤ) : Bytes :=
  if date ≤ cursor / 86400 then last
  else if day / 86400 < date then bytes
  else ((boundaries.find? fun boundary =>
    boundary.dayStartUnixSecs = date * 86400).map (·.bytes)).getD (0, 0)

theorem valueAt_before (h : date ≤ cursor / 86400) :
    valueAt day bytes cursor last boundaries date = last :=
  if_pos h

theorem valueAt_after (hle : cursor ≤ day) (h : day / 86400 < date) :
    valueAt day bytes cursor last boundaries date = bytes := by
  unfold valueAt
  rw [if_neg (by omega), if_pos h]

theorem valueAt_cons {boundary : TrafficDayBoundary} {rest : List TrafficDayBoundary}
    (hcursor : cursor % 86400 = 0) (h : Consecutive day cursor (boundary :: rest))
    (hdate : cursor / 86400 < date) : valueAt day bytes cursor last (boundary :: rest) date
      = valueAt day bytes boundary.dayStartUnixSecs boundary.bytes rest date := by
  obtain ⟨hstart, hrest⟩ := h
  have hle := hrest.le.1
  unfold valueAt
  rw [if_neg (by omega)]
  by_cases hfirst : date ≤ boundary.dayStartUnixSecs / 86400
  · have hdate' : boundary.dayStartUnixSecs = date * 86400 := by omega
    rw [if_neg (by omega), if_pos hfirst, List.find?_cons_of_pos (by simpa using hdate')]
    rfl
  · rw [if_neg hfirst, List.find?_cons_of_neg (by
      simp only [decide_eq_true_eq]
      omega)]

theorem bytes_sub_self (bytes : Bytes) : bytes - bytes = 0 := by
  simp [Prod.ext_iff]

/-- **Each day of a complete split receives what the meter counted in it.** -/
theorem splitAt_days (hcursor : cursor % 86400 = 0) (h : Consecutive day cursor boundaries)
    (date : ℤ) : deltasOn (splitAt day bytes cursor last boundaries) date
      = valueAt day bytes cursor last boundaries (date + 1)
        - valueAt day bytes cursor last boundaries date := by
  induction boundaries generalizing cursor last with
  | nil =>
    have hend : cursor = day := h
    have hnil : deltasOn [] date = 0 := rfl
    rw [splitAt, deltasOn_cons, hnil, add_zero]
    rcases lt_trichotomy date (day / 86400) with hbefore | hat | hafter
    · rw [if_neg (by omega), valueAt_before (by omega), valueAt_before (by omega), bytes_sub_self]
    · rw [if_pos hat.symm, valueAt_after hend.le (by omega), valueAt_before (by omega)]
      rfl
    · rw [if_neg (by omega), valueAt_after hend.le (by omega), valueAt_after hend.le hafter,
        bytes_sub_self]
  | cons boundary rest ih =>
    have hstart : boundary.dayStartUnixSecs = cursor + 86400 := h.1
    rw [splitAt, deltasOn_cons, ih (by omega) h.2]
    rcases lt_trichotomy date (cursor / 86400) with hbefore | hat | hafter
    · rw [if_neg (by omega), valueAt_before (by omega), valueAt_before (by omega),
        valueAt_before (by omega), valueAt_before (by omega), bytes_sub_self, bytes_sub_self,
        add_zero]
    · -- the day that ends at this boundary
      rw [if_pos hat.symm, valueAt_before (by omega), valueAt_before (by omega),
        valueAt_cons hcursor h (by omega), valueAt_before (by omega), valueAt_before (by omega),
        bytes_sub_self, add_zero]
      rfl
    · rw [if_neg (by omega), valueAt_cons hcursor h (by omega), valueAt_cons hcursor h hafter,
        zero_add]

theorem newBoundaries_consecutive (hvalid : Validated reading) (hle : old.lastReportedAt ≤ at')
    (hall : CarriesEveryMidnight old reading at') (habove : StaysAbove old reading at') :
    Consecutive (dayOf at') (dayOf old.lastReportedAt) (newBoundaries old reading at') := by
  have hmem : ∀ boundary, boundary ∈ newBoundaries old reading at' ↔
      boundary ∈ reading.dayBoundaries ∧ dayOf old.lastReportedAt < boundary.dayStartUnixSecs
        ∧ boundary.dayStartUnixSecs ≤ dayOf at' := by
    intro boundary
    simp only [newBoundaries, List.mem_filter, Bool.and_eq_true, decide_eq_true_eq]
    constructor
    · rintro ⟨hb, ⟨⟨hlow, hhigh⟩, _⟩, _⟩
      exact ⟨hb, hlow, hhigh⟩
    · rintro ⟨hb, hlow, hhigh⟩
      exact ⟨hb, ⟨⟨hlow, hhigh⟩, (habove boundary hb hlow hhigh).1⟩,
        (habove boundary hb hlow hhigh).2⟩
  refine consecutive_of_all (by unfold dayOf; omega) (by unfold dayOf; omega) ?_
    (hvalid.order.filter _) ?_ (by unfold dayOf; omega)
  · intro boundary hb
    obtain ⟨hb, hlow, hhigh⟩ := (hmem boundary).mp hb
    exact ⟨(hvalid.each boundary hb).aligned, hlow, hhigh⟩
  · intro start hstart hlow hhigh
    obtain ⟨boundary, hb, hb'⟩ := hall (start / 86400) (by unfold dayOf at hlow; omega)
      (by unfold dayOf at hhigh; omega)
    have hstart' : boundary.dayStartUnixSecs = start := by omega
    exact ⟨boundary, (hmem boundary).mpr ⟨hb, by omega, by omega⟩, hstart'⟩

theorem newBoundaries_find (habove : StaysAbove old reading at')
    (hlow : old.lastReportedAt / 86400 < date) (hhigh : date ≤ at' / 86400) :
    (newBoundaries old reading at').find? (fun boundary =>
        boundary.dayStartUnixSecs = date * 86400)
      = reading.dayBoundaries.find? fun boundary => boundary.dayStartUnixSecs = date * 86400 := by
  rw [newBoundaries, List.find?_filter]
  refine List.find?_congr fun boundary hb => ?_
  by_cases hdate : boundary.dayStartUnixSecs = date * 86400
  · have hin : dayOf old.lastReportedAt < boundary.dayStartUnixSecs
        ∧ boundary.dayStartUnixSecs ≤ dayOf at' := by
      unfold dayOf
      omega
    obtain ⟨hrx, htx⟩ := habove boundary hb hin.1 hin.2
    simp [hdate, hdate ▸ hin.1, hdate ▸ hin.2, hrx, htx]
  · simp [hdate]

theorem valueAt_eq_counterAt (habove : StaysAbove old reading at') (date : ℤ) :
    valueAt (dayOf at') reading.bytes (dayOf old.lastReportedAt) old.agentBytes
        (newBoundaries old reading at') date
      = counterAt old reading at' date := by
  unfold valueAt counterAt
  have hday : ∀ t : ℤ, dayOf t / 86400 = t / 86400 := by
    intro t
    unfold dayOf
    omega
  rw [hday, hday]
  by_cases hbefore : date ≤ old.lastReportedAt / 86400
  · rw [if_pos hbefore, if_pos hbefore]
  · rw [if_neg hbefore, if_neg hbefore]
    by_cases hafter : at' / 86400 < date
    · rw [if_pos hafter, if_pos hafter]
    · rw [if_neg hafter, if_neg hafter, newBoundaries_find habove (by omega) (by omega)]

/-- **Where every midnight is carried, each day receives the difference between its two
boundaries.** -/
theorem splitDailyDeltas_days {delta : Bytes} (hvalid : Validated reading)
    (hle : old.lastReportedAt ≤ at') (hmeter : old.meterId = reading.meterId)
    (hall : CarriesEveryMidnight old reading at') (habove : StaysAbove old reading at') (date : ℤ) :
    deltasOn (splitDailyDeltas (some old) reading at' delta).1 date
      = counterAt old reading at' (date + 1) - counterAt old reading at' date := by
  have hconsecutive := newBoundaries_consecutive hvalid hle hall habove
  have hcomplete : ((newBoundaries old reading at').length : ℤ)
      = (dayOf at' - dayOf old.lastReportedAt) / 86400 := by
    have hlength := hconsecutive.le.2
    omega
  unfold splitDailyDeltas
  rw [Option.filter_some_pos (by simpa using hmeter)]
  simp only [if_pos hcomplete]
  rw [splitAt_days (by unfold dayOf; omega) hconsecutive, valueAt_eq_counterAt habove,
    valueAt_eq_counterAt habove]

end Brocade.Traffic
