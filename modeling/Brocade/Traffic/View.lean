/-
The control plane's side of a traffic limit.

An operator may declare what a machine has used in its period; the declaration keeps the
accounted counters of that moment, and from then on the period's total is the declared one
plus what the counters grew.  Without one it is the sum of the period's daily rows.  The
agent's anchor is a row of the same view.
-/
import Mathlib.Data.List.Sort
import Brocade.Traffic.Ledger
import Brocade.Traffic.Limit

namespace Brocade.Traffic

/-- A total an operator declared. -/
structure NodeTrafficCalibration where
  id : ℕ
  /-- in microseconds -/
  calibratedAt : ℤ
  (targetTotalBytes accountedTotalBytes : ℕ)
  accountingMode : NodeTrafficAccountingMode
  /-- rows from before there were directional counters have none -/
  accountedBytes : Option Bytes

/-- How a machine is billed. -/
structure NodeTrafficPolicy where
  cycle : TrafficCycle
  accountingMode : NodeTrafficAccountingMode

/-- A machine without a row. -/
def NodeTrafficPolicy.default : NodeTrafficPolicy := ⟨.default, .bidirectionalSum⟩

/-- What the database holds to answer how much a machine has used. -/
structure NodeLedger where
  traffic : NodeTraffic
  calibrations : List NodeTrafficCalibration

def NodeLedger.empty : NodeLedger := ⟨.empty, []⟩

/-! ### The view -/

/-- What a mode counts of two directions. -/
def NodeTrafficAccountingMode.count (mode : NodeTrafficAccountingMode) (bytes : Bytes) : ℕ :=
  match mode with
  | .bidirectionalSum => bytes.1 + bytes.2
  | .bidirectionalMax => max bytes.1 bytes.2
  | .outboundOnly => bytes.2
  | .inboundOnly => bytes.1

/-- `a` is not older than `b`. -/
def NodeTrafficCalibration.Newer (a b : NodeTrafficCalibration) : Prop :=
  b.calibratedAt < a.calibratedAt ∨ b.calibratedAt = a.calibratedAt ∧ b.id ≤ a.id

instance : DecidableRel NodeTrafficCalibration.Newer := fun a b => by
  unfold NodeTrafficCalibration.Newer
  infer_instance

/-- The latest declaration of a mode in a period. -/
def NodeLedger.calibration (ledger : NodeLedger) (mode : NodeTrafficAccountingMode)
    (period : ℤ × ℤ) : Option NodeTrafficCalibration :=
  ((ledger.calibrations.filter fun item =>
      item.accountingMode = mode && decide (period.1 * 1000000 ≤ item.calibratedAt)
        && decide (item.calibratedAt < period.2 * 1000000)).insertionSort
    NodeTrafficCalibration.Newer).head?

/-- The daily rows of a period. -/
def NodeLedger.dailyBytes (ledger : NodeLedger) (dates : ℤ × ℤ) : Bytes :=
  ledger.traffic.daily.total (fun day => decide (dates.1 ≤ day) && decide (day < dates.2)) id

/-- What a mode counts since a declaration. -/
def NodeTrafficCalibration.since (calibration : NodeTrafficCalibration)
    (mode : NodeTrafficAccountingMode) (accounted : Bytes) : ℕ :=
  match calibration.accountedBytes with
  | some bytes => mode.count (accounted - bytes)
  | none =>
    match mode with
    | .bidirectionalSum => accounted.1 + accounted.2 - calibration.accountedTotalBytes
    -- the difference to NULL is NULL, and the greatest of NULL and zero is zero
    | _ => 0

/-- A row of the view. -/
structure NodeTrafficItem where
  (periodStartUnixSecs periodEndUnixSecs : ℤ)
  bytes : Bytes
  (totalBytes limitCalibratedTotal : ℕ)
  limitLegacyCalibration : Bool
  limitBytes : Bytes

/-- What the console shows. -/
def NodeLedger.view (policy : NodeTrafficPolicy) (ledger : NodeLedger) (now : ℤ) :
    NodeTrafficItem :=
  let dates := policy.cycle.periodDates now
  let daily := ledger.dailyBytes dates
  let start := dates.1 * 86400
  let stop := dates.2 * 86400
  let accounted := accounted ledger.traffic
  match ledger.calibration policy.accountingMode (start, stop) with
  | some calibration =>
    { periodStartUnixSecs := start
      periodEndUnixSecs := stop
      bytes := daily
      totalBytes :=
        calibration.targetTotalBytes + calibration.since policy.accountingMode accounted
      limitCalibratedTotal := calibration.targetTotalBytes
      limitLegacyCalibration := calibration.accountedBytes.isNone
      limitBytes := accounted - calibration.accountedBytes.getD (0, 0) }
  | none =>
    { periodStartUnixSecs := start
      periodEndUnixSecs := stop
      bytes := daily
      totalBytes := policy.accountingMode.count daily
      limitCalibratedTotal := 0
      limitLegacyCalibration := false
      limitBytes := daily }

/-! ### The anchor -/

/-- A decimal column read as a `u64`. -/
def decimalBytes (value : ℕ) : Except String ℕ :=
  if value ≤ U64_MAX then .ok value else .error "用量超出 u64 范围"

/-- What the agent is told. -/
def TrafficLimitAnchor.ofRow (state : NodeTrafficState) (row : NodeTrafficItem) :
    Except String TrafficLimitAnchor := do
  let legacy := row.limitLegacyCalibration
  let sequence ← decimalBytes state.sequence
  let meterRx ← decimalBytes state.agentBytes.1
  let meterTx ← decimalBytes state.agentBytes.2
  let rx ← if legacy then .ok 0 else decimalBytes row.limitBytes.1
  let tx ← if legacy then .ok 0 else decimalBytes row.limitBytes.2
  let calibrated ← decimalBytes (if legacy then row.totalBytes else row.limitCalibratedTotal)
  return {
    meterId := state.meterId
    sequence := sequence
    sampledAtUnixSecs := state.lastReportedAt
    periodStartUnixSecs := row.periodStartUnixSecs
    meterBytes := (meterRx, meterTx)
    bytes := (rx, tx)
    calibratedTotalBytes := calibrated }

/-- What the agent is told. -/
def NodeLedger.desired (policy : NodeTrafficPolicy) (ledger : NodeLedger) (now : ℤ) :
    Except String TrafficLimitDesired :=
  match ledger.traffic.state with
  | none => .ok ⟨policy.cycle, policy.accountingMode, none⟩
  | some state =>
    match TrafficLimitAnchor.ofRow state (ledger.view policy now) with
    | .error e => .error e
    | .ok anchor => .ok ⟨policy.cycle, policy.accountingMode, some anchor⟩

/-! ### Ledgers -/

/-- A reading, with the view's tables. -/
def NodeLedger.record (ledger : NodeLedger) (observedAt : ℤ) (reading : NodeTrafficReading) :
    Except StoreError NodeLedger :=
  match recordReading ledger.traffic observedAt reading with
  | .error e => .error e
  | .ok traffic => .ok { ledger with traffic := traffic }

/-- Declare a total. -/
def NodeLedger.calibrate (ledger : NodeLedger) (id : ℕ) (calibratedAt : ℤ) (target : ℕ)
    (mode : NodeTrafficAccountingMode) : NodeLedger :=
  let accounted := accounted ledger.traffic
  { ledger with
    calibrations := ledger.calibrations ++ [{
      id := id
      calibratedAt := calibratedAt
      targetTotalBytes := target
      accountedTotalBytes := accounted.1 + accounted.2
      accountingMode := mode
      accountedBytes := some accounted }] }

/-- The ledgers a machine can have at a second of the control plane's clock. -/
inductive NodeLedger.Reachable : NodeLedger → ℤ → Prop
  | empty (now : ℤ) : Reachable .empty now
  | wait {ledger : NodeLedger} {now later : ℤ} (h : Reachable ledger now) (hlater : now ≤ later) :
      Reachable ledger later
  | record {ledger ledger' : NodeLedger} {now observedAt : ℤ} {reading : NodeTrafficReading}
      (h : Reachable ledger now) (hrecord : ledger.record observedAt reading = .ok ledger') :
      Reachable ledger' now
  | calibrate {ledger : NodeLedger} {now : ℤ} (h : Reachable ledger now) (id : ℕ)
      (calibratedAt : ℤ) (hat : calibratedAt / 1000000 = now) (target : ℕ)
      (mode : NodeTrafficAccountingMode) :
      Reachable (ledger.calibrate id calibratedAt target mode) now

/-- What holds of every ledger. -/
structure NodeLedger.Sound (ledger : NodeLedger) (now : ℤ) : Prop where
  /-- no daily row lies behind the last reading -/
  daily : ∀ p : ℤ → Bool,
    (∀ state ∈ ledger.traffic.state, ∀ day ≤ state.lastReportedAt / 86400, p day = false) →
    ledger.traffic.daily.total p id = 0
  /-- a declaration is of the past, and its counters have not been passed -/
  calibrations : ∀ item ∈ ledger.calibrations, item.calibratedAt / 1000000 ≤ now
    ∧ ∃ bytes, item.accountedBytes = some bytes ∧ bytes ≤ accounted ledger.traffic

theorem splitAt_upTo {day cursor : ℤ} {bytes last : Bytes} {boundaries : List TrafficDayBoundary}
    (hcursor : cursor ≤ day) (h : ∀ boundary ∈ boundaries, boundary.dayStartUnixSecs ≤ day) :
    ∀ entry ∈ splitAt day bytes cursor last boundaries, entry.1 ≤ day := by
  induction boundaries generalizing cursor last with
  | nil =>
    intro entry hentry
    rw [splitAt, List.mem_singleton] at hentry
    rw [hentry]
  | cons boundary rest ih =>
    intro entry hentry
    rw [splitAt, List.mem_cons] at hentry
    rcases hentry with rfl | hentry
    · exact hcursor
    · exact ih (h boundary List.mem_cons_self) (fun b hb => h b (List.mem_cons_of_mem _ hb))
        entry hentry

variable {reading : NodeTrafficReading} {at' : ℤ} {ledger : NodeLedger}

theorem splitDailyDeltas_upTo {previous : Option NodeTrafficState} {delta : Bytes}
    (hle : ∀ old ∈ previous, old.lastReportedAt ≤ at') :
    ∀ entry ∈ (splitDailyDeltas previous reading at' delta).1, entry.1 / 86400 ≤ at' / 86400 := by
  intro entry hentry
  have hday : entry.1 ≤ dayOf at' := by
    unfold splitDailyDeltas at hentry
    cases hsame : previous.filter fun old => old.meterId = reading.meterId with
    | none =>
      rw [hsame, List.mem_singleton] at hentry
      rw [hentry]
    | some old =>
      obtain ⟨rfl, _⟩ := Option.filter_eq_some_iff.mp hsame
      rw [hsame] at hentry
      simp only at hentry
      split at hentry
      · refine splitAt_upTo ?_ (fun b hb => ?_) entry hentry
        · have hold := hle old rfl
          unfold dayOf
          omega
        · have hkept := List.of_mem_filter hb
          simp only [Bool.and_eq_true, decide_eq_true_eq] at hkept
          exact hkept.1.1.2
      · rw [List.mem_singleton] at hentry
        rw [hentry]
  unfold dayOf at hday
  omega

theorem Accepted.le {rows rows' : NodeTraffic} (h : Accepted rows rows' reading at') :
    ∀ old ∈ rows.state, old.lastReportedAt ≤ at' := by
  intro old hold
  have hfresh := h.fresh
  rw [hold] at hfresh
  simp only [isStale, Option.any_some, Bool.or_eq_false_iff, decide_eq_false_iff_not] at hfresh
  omega

theorem NodeLedger.Sound.accepted {now : ℤ} {traffic : NodeTraffic} (h : ledger.Sound now)
    (haccepted : Accepted ledger.traffic traffic reading at') :
    Sound { ledger with traffic := traffic } now := by
  refine ⟨fun p hp => ?_, fun item hitem => ?_⟩
  · have hbehind : ∀ day ≤ at' / 86400, p day = false := hp _ haccepted.state
    have hold : ledger.traffic.daily.total p id = 0 := by
      refine h.daily p fun state hstate day hday => hbehind day ?_
      have hle := haccepted.le state hstate
      omega
    have hnew : (splitDailyDeltas ledger.traffic.state reading at'
        (counterDelta ledger.traffic.state reading).1).1.filter (fun entry => p (entry.1 / 86400))
          = [] := by
      refine List.filter_eq_nil_iff.mpr fun entry hentry => ?_
      rw [hbehind _ (splitDailyDeltas_upTo haccepted.le entry hentry)]
      exact Bool.false_ne_true
    show traffic.daily.total p id = 0
    rw [haccepted.daily p, hold, hnew]
    rfl
  · obtain ⟨hat, bytes, hbytes, hle⟩ := h.calibrations item hitem
    refine ⟨hat, bytes, hbytes, ?_⟩
    show bytes ≤ accounted traffic
    rw [haccepted.accounted]
    exact hle.trans ⟨Nat.le_add_right _ _, Nat.le_add_right _ _⟩

theorem NodeLedger.record_cases {ledger' : NodeLedger} {observedAt : ℤ}
    (h : ledger.record observedAt reading = .ok ledger') :
    (isStale ledger.traffic.state reading (sampledAt observedAt reading) = true ∧ ledger' = ledger)
      ∨ (Accepted ledger.traffic ledger'.traffic reading (sampledAt observedAt reading)
        ∧ ledger'.calibrations = ledger.calibrations) := by
  unfold record at h
  cases hrecord : recordReading ledger.traffic observedAt reading with
  | error e =>
    rw [hrecord] at h
    exact absurd h nofun
  | ok traffic =>
    rw [hrecord] at h
    simp only [Except.ok.injEq] at h
    subst h
    rcases recordReading_cases hrecord with ⟨hstale, hsame⟩ | haccepted
    · exact .inl ⟨hstale, by rw [hsame]⟩
    · exact .inr ⟨haccepted, rfl⟩

/-- **Every ledger is sound.** -/
theorem NodeLedger.Reachable.sound {now : ℤ} (h : ledger.Reachable now) : ledger.Sound now := by
  induction h with
  | empty now => exact ⟨fun _ _ => rfl, fun item hitem => absurd hitem List.not_mem_nil⟩
  | wait _ hlater ih =>
    refine ⟨ih.daily, fun item hitem => ?_⟩
    obtain ⟨hat, hbytes⟩ := ih.calibrations item hitem
    exact ⟨hat.trans hlater, hbytes⟩
  | record _ hrecord ih =>
    rcases record_cases hrecord with ⟨_, rfl⟩ | ⟨haccepted, hitems⟩
    · exact ih
    · have hsound := ih.accepted haccepted
      exact ⟨hsound.daily, fun item hitem => hsound.calibrations item (hitems ▸ hitem)⟩
  | @calibrate ledger _ _ id calibratedAt hat target mode ih =>
    refine ⟨ih.daily, fun item hitem => ?_⟩
    rcases List.mem_append.mp hitem with hitem | hitem
    · exact ih.calibrations item hitem
    · rw [List.mem_singleton] at hitem
      rw [hitem]
      exact ⟨hat.le, accounted ledger.traffic, rfl, le_refl _⟩

end Brocade.Traffic
