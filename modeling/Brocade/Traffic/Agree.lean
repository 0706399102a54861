/-
Where the agent and the control plane agree on used traffic.

Between two readings of one meter both sides add the same difference of counters, so they
can only differ in where they start from.  In the anchor's own period they start from the
same amounts.  In a later one the agent starts from the meter's boundary at the reset, and
the daily rows of the period do too: their sum is the counters since that boundary
(`Accepted.range`).  But a total declared in the period, before the meter was heard in it,
counts from the accounted counters of that moment, which lie below the boundary by whatever
the machine moved between its last reading and the reset; the agent does not count that
(`used_agrees`).
-/
import Brocade.Traffic.View

namespace Brocade.Traffic

/-! ### The daily rows of a period -/

theorem splitAt_since {day cursor : ℤ} {bytes last : Bytes} {boundaries : List TrafficDayBoundary}
    (hcursor : cursor % 86400 = 0) (h : Consecutive day cursor boundaries)
    (hascending : Ascending bytes last boundaries) (date : ℤ) (hlast : last ≤ bytes) :
    (((splitAt day bytes cursor last boundaries).filter fun entry =>
        decide (date ≤ entry.1 / 86400)).map Prod.snd).sum
      = bytes - valueAt day bytes cursor last boundaries date := by
  induction boundaries generalizing cursor last with
  | nil =>
    have hend : cursor = day := h
    rw [splitAt]
    by_cases hdate : date ≤ day / 86400
    · rw [List.filter_cons_of_pos (by simpa using hdate), valueAt_before (by omega)]
      simp [Prod.ext_iff]
    · rw [List.filter_cons_of_neg (by simpa using hdate), valueAt_after hend.le (by omega),
        bytes_sub_self]
      rfl
  | cons boundary rest ih =>
    have hstart : boundary.dayStartUnixSecs = cursor + 86400 := h.1
    obtain ⟨hrx, htx, hrx', htx', hrest⟩ := hascending
    have hih := @ih boundary.dayStartUnixSecs boundary.bytes (by omega) h.2 hrest ⟨hrx', htx'⟩
    rw [splitAt]
    by_cases hdate : date ≤ cursor / 86400
    · rw [List.filter_cons_of_pos (by simpa using hdate), List.map_cons, List.sum_cons, hih,
        valueAt_before (by omega), valueAt_before hdate]
      refine Prod.ext ?_ ?_
      · show boundary.rxBytes - last.1 + (bytes.1 - boundary.rxBytes) = bytes.1 - last.1
        omega
      · show boundary.txBytes - last.2 + (bytes.2 - boundary.txBytes) = bytes.2 - last.2
        omega
    · rw [List.filter_cons_of_neg (by simpa using hdate), hih, valueAt_cons hcursor h (by omega)]

/-- What the agent's meter guarantees of a reading that is not older than the last one the
control plane accepted: the counters did not fall, and the boundaries behind that reading's
day are of later counters. -/
structure Follows (old : NodeTrafficState) (reading : NodeTrafficReading) : Prop where
  bytes : old.agentBytes ≤ reading.bytes
  same : reading.sequence = old.sequence → reading.bytes = old.agentBytes
  boundaries : ∀ boundary ∈ reading.dayBoundaries,
    dayOf old.lastReportedAt < boundary.dayStartUnixSecs → old.agentBytes ≤ boundary.bytes

variable {reading : NodeTrafficReading} {old : NodeTrafficState} {now : ℤ}
    {policy : NodeTrafficPolicy} {ledger : NodeLedger}

/-- **The daily rows of a period grow by the counters since its first midnight.** -/
theorem Accepted.range {rows rows' : NodeTraffic} {at' : ℤ} (h : Accepted rows rows' reading at')
    (hold : rows.state = some old) (hmeter : old.meterId = reading.meterId)
    (hfollows : Follows old reading) (hall : CarriesEveryMidnight old reading at')
    {start stop : ℤ} (hstop : at' / 86400 < stop) :
    rows'.daily.total (fun day => decide (start ≤ day) && decide (day < stop)) id
      = rows.daily.total (fun day => decide (start ≤ day) && decide (day < stop)) id
        + (reading.bytes - counterAt old reading at' start) := by
  have hle : old.lastReportedAt ≤ at' := h.le old hold
  have habove : StaysAbove old reading at' := fun boundary hb hlow _ =>
    ⟨(hfollows.boundaries boundary hb hlow).1, (hfollows.boundaries boundary hb hlow).2⟩
  have hconsecutive := newBoundaries_consecutive h.validated hle hall habove
  have hcomplete : ((newBoundaries old reading at').length : ℤ)
      = (dayOf at' - dayOf old.lastReportedAt) / 86400 := by
    have hlength := hconsecutive.le.2
    omega
  have hsplit : (splitDailyDeltas rows.state reading at' (counterDelta rows.state reading).1).1
      = splitAt (dayOf at') reading.bytes (dayOf old.lastReportedAt) old.agentBytes
          (newBoundaries old reading at') := by
    unfold splitDailyDeltas
    rw [hold, Option.filter_some_pos (by simpa using hmeter)]
    simp only [if_pos hcomplete]
  -- nothing is booked behind the reading's day, so the period's end does not matter
  have hfilter : (splitDailyDeltas rows.state reading at'
        (counterDelta rows.state reading).1).1.filter
          (fun entry => decide (start ≤ entry.1 / 86400) && decide (entry.1 / 86400 < stop))
      = (splitDailyDeltas rows.state reading at' (counterDelta rows.state reading).1).1.filter
          fun entry => decide (start ≤ entry.1 / 86400) := by
    refine List.filter_congr fun entry hentry => ?_
    have hday := splitDailyDeltas_upTo h.le entry hentry
    have hlt : entry.1 / 86400 < stop := by omega
    rw [decide_eq_true hlt, Bool.and_true]
  rw [h.daily, hfilter, hsplit, splitAt_since (by unfold dayOf; omega) hconsecutive
    (newBoundaries_ascending h.validated) start hfollows.bytes,
    valueAt_eq_counterAt habove]

/-! ### What a mode makes of it -/

namespace NodeTrafficAccountingMode

/-- What the mode counts is not held down to the largest `u64`. -/
def Fits (mode : NodeTrafficAccountingMode) (bytes : Bytes) : Prop :=
  mode = .bidirectionalSum → bytes.1 + bytes.2 ≤ U64_MAX

/-- More bytes that the mode does not see. -/
def AddsNothing (mode : NodeTrafficAccountingMode) (bytes more : Bytes) : Prop :=
  match mode with
  | .bidirectionalSum => more = (0, 0)
  | .bidirectionalMax =>
    bytes.1 + more.1 ≤ max bytes.1 bytes.2 ∧ bytes.2 + more.2 ≤ max bytes.1 bytes.2
  | .outboundOnly => more.2 = 0
  | .inboundOnly => more.1 = 0

theorem apply_eq_count_add (mode : NodeTrafficAccountingMode) (bytes more : Bytes) :
    mode.apply bytes = mode.count (bytes + more)
      ↔ mode.Fits bytes ∧ mode.AddsNothing bytes more := by
  obtain ⟨rx, tx⟩ := bytes
  obtain ⟨rx', tx'⟩ := more
  cases mode with
  | bidirectionalSum =>
    show min (rx + tx) U64_MAX = rx + rx' + (tx + tx')
      ↔ (_ → rx + tx ≤ U64_MAX) ∧ (rx', tx') = (0, 0)
    rw [Prod.mk.injEq]
    constructor
    · intro h
      exact ⟨fun _ => by omega, by omega, by omega⟩
    · rintro ⟨hfits, hrx, htx⟩
      have hfits := hfits rfl
      omega
  | bidirectionalMax =>
    show max rx tx = max (rx + rx') (tx + tx')
      ↔ (_ → _) ∧ rx + rx' ≤ max rx tx ∧ tx + tx' ≤ max rx tx
    constructor
    · intro h
      exact ⟨nofun, by omega, by omega⟩
    · rintro ⟨_, hrx, htx⟩
      omega
  | outboundOnly =>
    show tx = tx + tx' ↔ (_ → _) ∧ tx' = 0
    constructor
    · intro h
      exact ⟨nofun, by omega⟩
    · rintro ⟨_, h⟩
      omega
  | inboundOnly =>
    show rx = rx + rx' ↔ (_ → _) ∧ rx' = 0
    constructor
    · intro h
      exact ⟨nofun, by omega⟩
    · rintro ⟨_, h⟩
      omega

theorem addsNothing_zero (mode : NodeTrafficAccountingMode) (bytes : Bytes) :
    mode.AddsNothing bytes 0 := by
  cases mode with
  | bidirectionalSum => exact rfl
  | bidirectionalMax => exact ⟨le_max_left _ _, le_max_right _ _⟩
  | outboundOnly => exact rfl
  | inboundOnly => exact rfl

theorem apply_eq_count (mode : NodeTrafficAccountingMode) (bytes : Bytes) :
    mode.apply bytes = mode.count bytes ↔ mode.Fits bytes := by
  have h := apply_eq_count_add mode bytes 0
  rw [add_zero] at h
  rw [h]
  exact ⟨fun h => h.1, fun h => ⟨h, mode.addsNothing_zero bytes⟩⟩

end NodeTrafficAccountingMode

/-! ### The two sides -/

/-- **What the agent reckons**: a base and the counters since. -/
theorem usedBytes_ok {desired : TrafficLimitDesired} {used : ℕ} {period : ℤ}
    (h : usedBytes desired reading now = .ok (used, period)) : period = (desired.cycle.period now).1
      ∧ ∃ anchor, desired.anchor = some anchor ∧ anchor.meterId = reading.meterId
        ∧ anchor.sequence ≤ reading.sequence
        ∧ ∃ base meter calibrated, reckonFrom anchor reading period = .ok (base, meter, calibrated)
          ∧ used = calibrated + desired.accountingMode.apply (base + (reading.bytes - meter)) := by
  unfold usedBytes at h
  cases hanchor : desired.anchor with
  | none =>
    rw [hanchor] at h
    exact absurd h nofun
  | some anchor =>
    rw [hanchor] at h
    simp only at h
    split at h
    · exact absurd h nofun
    rename_i hmeter
    cases hfrom : reckonFrom anchor reading (desired.cycle.period now).1 with
    | error e =>
      rw [hfrom] at h
      exact absurd h nofun
    | ok value =>
      obtain ⟨base, meter, calibrated⟩ := value
      rw [hfrom] at h
      unfold checkedSub checkedAdd at h
      simp only at h
      split at h
      · exact absurd h nofun
      rename_i rx hrx
      split at h
      · exact absurd h nofun
      rename_i tx htx
      split at h
      · exact absurd h nofun
      rename_i total htotal
      rw [Option.bind_eq_some_iff] at hrx htx
      obtain ⟨_, hrx, hrx'⟩ := hrx
      obtain ⟨_, htx, htx'⟩ := htx
      have hrx := (Option.ite_none_right_eq_some.mp hrx).2
      have hrx' := (Option.ite_none_right_eq_some.mp hrx').2
      have htx := (Option.ite_none_right_eq_some.mp htx).2
      have htx' := (Option.ite_none_right_eq_some.mp htx').2
      have htotal := (Option.ite_none_right_eq_some.mp htotal).2
      rw [Except.ok.injEq, Prod.mk.injEq] at h
      obtain ⟨rfl, rfl⟩ := h
      rw [Option.some.injEq] at hrx hrx' htx htx' htotal
      subst hrx htx hrx' htx' htotal
      exact ⟨rfl, anchor, rfl, by tauto, by omega, base, meter, calibrated, hfrom, rfl⟩

theorem NodeLedger.view_some {calibration : NodeTrafficCalibration} {bytes : Bytes}
    (h : ledger.calibration policy.accountingMode (policy.cycle.period now) = some calibration)
    (hbytes : calibration.accountedBytes = some bytes) :
    (ledger.view policy now).totalBytes = calibration.targetTotalBytes
        + policy.accountingMode.count (accounted ledger.traffic - bytes)
      ∧ (ledger.view policy now).limitCalibratedTotal = calibration.targetTotalBytes
      ∧ (ledger.view policy now).limitLegacyCalibration = false
      ∧ (ledger.view policy now).limitBytes = accounted ledger.traffic - bytes := by
  simp [view, policy.cycle.periodDates_eq, h, NodeTrafficCalibration.since, hbytes]

theorem NodeLedger.view_none
    (h : ledger.calibration policy.accountingMode (policy.cycle.period now) = none) :
    (ledger.view policy now).totalBytes
        = policy.accountingMode.count (ledger.dailyBytes (policy.cycle.periodDates now))
      ∧ (ledger.view policy now).limitCalibratedTotal = 0
      ∧ (ledger.view policy now).limitLegacyCalibration = false
      ∧ (ledger.view policy now).limitBytes = ledger.dailyBytes (policy.cycle.periodDates now) := by
  simp [view, policy.cycle.periodDates_eq, h]

theorem NodeLedger.view_period (policy : NodeTrafficPolicy) (ledger : NodeLedger) (now : ℤ) :
    (ledger.view policy now).periodStartUnixSecs = (policy.cycle.period now).1 := by
  rw [← policy.cycle.periodDates_eq now]
  unfold view
  simp only
  cases ledger.calibration policy.accountingMode ((policy.cycle.periodDates now).1 * 86400,
    (policy.cycle.periodDates now).2 * 86400) with
  | none => rfl
  | some calibration => rfl

theorem NodeLedger.calibration_mem {mode : NodeTrafficAccountingMode} {period : ℤ × ℤ}
    {calibration : NodeTrafficCalibration} (h : ledger.calibration mode period = some calibration) :
    calibration ∈ ledger.calibrations ∧ period.1 ≤ calibration.calibratedAt / 1000000 := by
  have hmem := (List.mem_insertionSort _).mp (List.mem_of_mem_head? h)
  rw [List.mem_filter] at hmem
  simp only [Bool.and_eq_true, decide_eq_true_eq] at hmem
  exact ⟨hmem.1, by omega⟩

theorem decimalBytes_ok {value bytes : ℕ} (h : decimalBytes value = .ok bytes) : value = bytes := by
  unfold decimalBytes at h
  split at h
  · exact Except.ok.inj h
  · exact absurd h nofun

open Fallible in
theorem TrafficLimitAnchor.ofRow_ok {state : NodeTrafficState} {row : NodeTrafficItem}
    {anchor : TrafficLimitAnchor} (hlegacy : row.limitLegacyCalibration = false)
    (h : ofRow state row = .ok anchor) : anchor = {
      meterId := state.meterId
      sequence := state.sequence
      sampledAtUnixSecs := state.lastReportedAt
      periodStartUnixSecs := row.periodStartUnixSecs
      meterBytes := state.agentBytes
      bytes := row.limitBytes
      calibratedTotalBytes := row.limitCalibratedTotal } := by
  unfold ofRow at h
  rw [hlegacy] at h
  simp only [Bool.false_eq_true, if_false, bind_eq_ok, pure_eq_ok] at h
  obtain ⟨sequence, hsequence, meterRx, hmeterRx, meterTx, hmeterTx, rx, hrx, tx, htx, calibrated,
    hcalibrated, rfl⟩ := h
  rw [← decimalBytes_ok hsequence, ← decimalBytes_ok hmeterRx, ← decimalBytes_ok hmeterTx,
    ← decimalBytes_ok hrx, ← decimalBytes_ok htx, ← decimalBytes_ok hcalibrated]

/-! ### One reading -/

theorem counterAt_ge {at' : ℤ} (hfollows : Follows old reading)
    (hall : CarriesEveryMidnight old reading at') (date : ℤ) :
    old.agentBytes ≤ counterAt old reading at' date := by
  unfold counterAt
  by_cases hbefore : date ≤ old.lastReportedAt / 86400
  · rw [if_pos hbefore]
  by_cases hafter : at' / 86400 < date
  · rw [if_neg hbefore, if_pos hafter]
    exact hfollows.bytes
  rw [if_neg hbefore, if_neg hafter]
  cases hfind : reading.dayBoundaries.find? fun boundary =>
      boundary.dayStartUnixSecs = date * 86400 with
  | none =>
    obtain ⟨boundary, hb, hstart⟩ := hall date (by omega) (by omega)
    exact absurd hstart (by simpa using List.find?_eq_none.mp hfind boundary hb)
  | some boundary =>
    have hstart : boundary.dayStartUnixSecs = date * 86400 := by
      simpa using List.find?_some hfind
    refine hfollows.boundaries boundary (List.mem_of_find?_eq_some hfind) ?_
    unfold dayOf
    omega

/-- **What a reading does to the ledger**: nothing if it is older than the last one, and
otherwise it adds what the counters grew. -/
theorem NodeLedger.record_grows {ledger' : NodeLedger} {observedAt : ℤ}
    (h : ledger.record observedAt reading = .ok ledger') (hold : ledger.traffic.state = some old)
    (hmeter : old.meterId = reading.meterId) (hsequence : old.sequence ≤ reading.sequence)
    (hfollows : Follows old reading)
    (hall : CarriesEveryMidnight old reading (sampledAt observedAt reading)) :
    ledger'.calibrations = ledger.calibrations
      ∧ (sampledAt observedAt reading < old.lastReportedAt → ledger' = ledger)
      ∧ (old.lastReportedAt ≤ sampledAt observedAt reading → accounted ledger'.traffic
            = accounted ledger.traffic + (reading.bytes - old.agentBytes)
          ∧ ∀ start stop, sampledAt observedAt reading / 86400 < stop →
            ledger'.dailyBytes (start, stop) = ledger.dailyBytes (start, stop)
              + (reading.bytes - counterAt old reading (sampledAt observedAt reading) start)) := by
  rcases record_cases h with ⟨hstale, rfl⟩ | ⟨haccepted, hitems⟩
  · refine ⟨rfl, fun _ => rfl, fun hle => ?_⟩
    have hsame : reading.bytes = old.agentBytes := by
      rw [hold] at hstale
      simp only [isStale, Option.any_some, Bool.or_eq_true, Bool.and_eq_true, decide_eq_true_eq]
        at hstale
      rcases hstale with hearlier | ⟨-, hnot⟩
      · omega
      · exact hfollows.same (by omega)
    refine ⟨?_, fun start stop _ => ?_⟩
    · rw [hsame, bytes_sub_self, add_zero]
    · obtain ⟨hrx, htx⟩ := counterAt_ge hfollows hall start
      have hzero : old.agentBytes - counterAt old reading (sampledAt observedAt reading) start = 0 :=
        Prod.ext (Nat.sub_eq_zero_of_le hrx) (Nat.sub_eq_zero_of_le htx)
      rw [hsame, hzero, add_zero]
  · refine ⟨hitems, fun hlt => absurd (haccepted.le old hold) (by omega), fun _ => ⟨?_, ?_⟩⟩
    · rw [haccepted.accounted, hold]
      have hdelta : (counterDelta (some old) reading).1 = reading.bytes - old.agentBytes := by
        simp only [counterDelta, hmeter, ne_eq, not_true_eq_false, if_false]
        rfl
      rw [hdelta]
    · intro start stop hstop
      exact haccepted.range hold hmeter hfollows hall hstop

/-! ### Agreement -/

/-- The meter at the reset, as a reading says. -/
def resetBytes (reading : NodeTrafficReading) (period : ℤ) : Bytes :=
  ((reading.dayBoundaries.find? fun boundary =>
    boundary.dayStartUnixSecs = period).map (·.bytes)).getD (0, 0)

/-- When the two sides agree, of a ledger the agent was told at `t₀` and a reading taken at
`at'` in the period of `now`. -/
def Agrees (policy : NodeTrafficPolicy) (ledger : NodeLedger) (old : NodeTrafficState) (t₀ : ℤ)
    (reading : NodeTrafficReading) (at' now : ℤ) : Prop :=
  let mode := policy.accountingMode
  let period := policy.cycle.period now
  let anchor := ledger.view policy t₀
  let grown := reading.bytes - old.agentBytes
  let reset := resetBytes reading period.1
  if anchor.periodStartUnixSecs = period.1 ∧ period.1 ≤ old.lastReportedAt then
    -- the anchor was sampled in the period
    if at' < old.lastReportedAt then
      mode.apply (anchor.limitBytes + grown) = mode.count anchor.limitBytes
    else mode.Fits (anchor.limitBytes + grown)
  else if old.lastReportedAt < period.1 then
    -- the period began behind the anchor's sample
    mode.Fits (reading.bytes - reset) ∧ ∀ calibration ∈ ledger.calibration mode period,
        mode.AddsNothing (reading.bytes - reset)
          (accounted ledger.traffic - calibration.accountedBytes.getD (0, 0)
            + (reset - old.agentBytes))
  else
    -- the anchor was sampled in a period that had not begun when it was told
    mode.apply (reading.bytes - reset)
      = mode.count (ledger.dailyBytes (policy.cycle.periodDates now)
          + if at' < old.lastReportedAt then 0 else grown)

theorem bytes_add_sub {a b c : Bytes} (h : c ≤ a) : a + b - c = a - c + b := by
  obtain ⟨hrx, htx⟩ := h
  refine Prod.ext ?_ ?_
  · show a.1 + b.1 - c.1 = a.1 - c.1 + b.1
    omega
  · show a.2 + b.2 - c.2 = a.2 - c.2 + b.2
    omega

theorem bytes_sub_split {a b c : Bytes} (hab : a ≤ b) (hbc : b ≤ c) : c - a = c - b + (b - a) := by
  obtain ⟨hrx, htx⟩ := hab
  obtain ⟨hrx', htx'⟩ := hbc
  refine Prod.ext ?_ ?_
  · show c.1 - a.1 = c.1 - b.1 + (b.1 - a.1)
    omega
  · show c.2 - a.2 = c.2 - b.2 + (b.2 - a.2)
    omega

theorem NodeLedger.desired_ok {desired : TrafficLimitDesired} (hsound : ledger.Sound now)
    (hold : ledger.traffic.state = some old) (h : ledger.desired policy now = .ok desired) :
    desired = ⟨policy.cycle, policy.accountingMode, some {
      meterId := old.meterId
      sequence := old.sequence
      sampledAtUnixSecs := old.lastReportedAt
      periodStartUnixSecs := (ledger.view policy now).periodStartUnixSecs
      meterBytes := old.agentBytes
      bytes := (ledger.view policy now).limitBytes
      calibratedTotalBytes := (ledger.view policy now).limitCalibratedTotal }⟩ := by
  have hlegacy : (ledger.view policy now).limitLegacyCalibration = false := by
    cases hitem : ledger.calibration policy.accountingMode (policy.cycle.period now) with
    | none => exact (view_none hitem).2.2.1
    | some calibration =>
      obtain ⟨-, bytes, hbytes, -⟩ := hsound.calibrations _ (calibration_mem hitem).1
      exact (view_some hitem hbytes).2.2.1
  unfold NodeLedger.desired at h
  rw [hold] at h
  simp only at h
  cases hanchor : TrafficLimitAnchor.ofRow old (ledger.view policy now) with
  | error e =>
    rw [hanchor] at h
    exact absurd h nofun
  | ok anchor =>
    rw [hanchor, Except.ok.injEq] at h
    rw [← h, TrafficLimitAnchor.ofRow_ok hlegacy hanchor]

section Agreement

variable {policy : NodeTrafficPolicy} {ledger ledger' : NodeLedger} {old : NodeTrafficState}
variable {t₀ now observedAt : ℤ} {reading : NodeTrafficReading} {period : ℤ}

theorem agree_same (hsound : ledger.Sound t₀) (hold : ledger.traffic.state = some old)
    (hfollows : Follows old reading)
    (hall : CarriesEveryMidnight old reading (sampledAt observedAt reading))
    (hday : now / 86400 = sampledAt observedAt reading / 86400)
    (hmeter : old.meterId = reading.meterId) (hsequence : old.sequence ≤ reading.sequence)
    (hrecord : ledger.record observedAt reading = .ok ledger')
    (hperiod : policy.cycle.period t₀ = policy.cycle.period now)
    (hin : (policy.cycle.period now).1 ≤ old.lastReportedAt) :
    (ledger'.view policy now).totalBytes = (ledger.view policy t₀).limitCalibratedTotal
      + policy.accountingMode.count ((ledger.view policy t₀).limitBytes
        + if sampledAt observedAt reading < old.lastReportedAt then 0
          else reading.bytes - old.agentBytes) := by
  obtain ⟨hitems, hdropped, hgrown⟩ :=
    NodeLedger.record_grows hrecord hold hmeter hsequence hfollows hall
  have hpick : ledger'.calibration policy.accountingMode (policy.cycle.period now)
      = ledger.calibration policy.accountingMode (policy.cycle.period t₀) := by
    unfold NodeLedger.calibration
    rw [hitems, hperiod]
  have hdates : policy.cycle.periodDates t₀ = policy.cycle.periodDates now := by
    have h := policy.cycle.periodDates_eq t₀
    rw [hperiod, ← policy.cycle.periodDates_eq now, Prod.mk.injEq] at h
    exact Prod.ext (by omega) (by omega)
  have hmem := policy.cycle.period_mem now
  have hstart := congrArg Prod.fst (policy.cycle.periodDates_eq now)
  have hstop := congrArg Prod.snd (policy.cycle.periodDates_eq now)
  simp only at hstart hstop
  cases hitem : ledger.calibration policy.accountingMode (policy.cycle.period t₀) with
  | some calibration =>
    obtain ⟨-, bytes, hbytes, hle⟩ :=
      hsound.calibrations _ (NodeLedger.calibration_mem hitem).1
    obtain ⟨-, hcalibrated, -, hlimit⟩ := NodeLedger.view_some hitem hbytes
    rw [(NodeLedger.view_some (hpick.trans hitem) hbytes).1, hcalibrated, hlimit]
    by_cases hearlier : sampledAt observedAt reading < old.lastReportedAt
    · rw [if_pos hearlier, hdropped hearlier, add_zero]
    · rw [if_neg hearlier, (hgrown (by omega)).1, bytes_add_sub hle]
  | none =>
    obtain ⟨-, hcalibrated, -, hlimit⟩ := NodeLedger.view_none hitem
    rw [(NodeLedger.view_none (hpick.trans hitem)).1, hcalibrated, hlimit, zero_add, hdates]
    by_cases hearlier : sampledAt observedAt reading < old.lastReportedAt
    · rw [if_pos hearlier, hdropped hearlier, add_zero]
    · have hcounter : counterAt old reading (sampledAt observedAt reading)
          (policy.cycle.periodDates now).1 = old.agentBytes := by
        unfold counterAt
        rw [if_pos (by omega)]
      rw [if_neg hearlier, ← Prod.mk.eta (p := policy.cycle.periodDates now),
        (hgrown (by omega)).2 _ _ (by omega), hcounter]

theorem no_calibration (hsound : ledger.Sound t₀) (hlater : t₀ ≤ now)
    (hperiod : policy.cycle.period t₀ ≠ policy.cycle.period now) :
    ledger.calibration policy.accountingMode (policy.cycle.period now) = none := by
  cases hitem : ledger.calibration policy.accountingMode (policy.cycle.period now) with
  | none => rfl
  | some calibration =>
    obtain ⟨hmem, hstart⟩ := NodeLedger.calibration_mem hitem
    have hat := (hsound.calibrations _ hmem).1
    have hnow := (policy.cycle.period_mem now).2.2.2
    exact absurd (TrafficCycle.period_unique (by omega) (by omega)) hperiod

/-- Where the period began behind the anchor's sample, the rows of its days hold the counters
since the reset, and a declared total also what came before. -/
theorem agree_rolled (hsound : ledger.Sound t₀) (hold : ledger.traffic.state = some old)
    (hfollows : Follows old reading)
    (hall : CarriesEveryMidnight old reading (sampledAt observedAt reading))
    (hday : now / 86400 = sampledAt observedAt reading / 86400)
    (hmeter : old.meterId = reading.meterId) (hsequence : old.sequence ≤ reading.sequence)
    (hrecord : ledger.record observedAt reading = .ok ledger')
    (hbehind : old.lastReportedAt < (policy.cycle.period now).1) {reset : Bytes}
    (hreset : reset = resetBytes reading (policy.cycle.period now).1)
    (hupto : reset ≤ reading.bytes) : (ledger'.view policy now).totalBytes
      = match ledger.calibration policy.accountingMode (policy.cycle.period now) with
        | some calibration => calibration.targetTotalBytes
            + policy.accountingMode.count (reading.bytes - reset
              + (accounted ledger.traffic - calibration.accountedBytes.getD (0, 0)
                + (reset - old.agentBytes)))
        | none => policy.accountingMode.count (reading.bytes - reset) := by
  obtain ⟨hitems, -, hgrown⟩ :=
    NodeLedger.record_grows hrecord hold hmeter hsequence hfollows hall
  have hmem := policy.cycle.period_mem now
  obtain ⟨haccounted, hdaily⟩ := hgrown (by omega)
  have hpick : ledger'.calibration policy.accountingMode (policy.cycle.period now)
      = ledger.calibration policy.accountingMode (policy.cycle.period now) := by
    unfold NodeLedger.calibration
    rw [hitems]
  have hstart := congrArg Prod.fst (policy.cycle.periodDates_eq now)
  have hstop := congrArg Prod.snd (policy.cycle.periodDates_eq now)
  simp only at hstart hstop
  have hcounter : counterAt old reading (sampledAt observedAt reading)
      (policy.cycle.periodDates now).1 = reset := by
    unfold counterAt
    rw [if_neg (by omega), if_neg (by omega), hreset, ← hstart]
    rfl
  have habove : old.agentBytes ≤ reset := hcounter ▸ counterAt_ge hfollows hall _
  cases hitem : ledger.calibration policy.accountingMode (policy.cycle.period now) with
  | some calibration =>
    obtain ⟨-, bytes, hbytes, hle⟩ :=
      hsound.calibrations _ (NodeLedger.calibration_mem hitem).1
    simp only
    rw [(NodeLedger.view_some (hpick.trans hitem) hbytes).1, hbytes, Option.getD_some,
      haccounted, bytes_add_sub hle, bytes_sub_split habove hupto, add_left_comm]
  | none =>
    have hempty : ledger.dailyBytes (policy.cycle.periodDates now) = 0 := by
      refine hsound.daily _ fun state hstate day hdate => ?_
      rw [hold, Option.mem_some_iff] at hstate
      subst hstate
      have hnot : ¬ (policy.cycle.periodDates now).1 ≤ day := by omega
      rw [decide_eq_false hnot, Bool.false_and]
    have hsum := hdaily (policy.cycle.periodDates now).1 (policy.cycle.periodDates now).2
      (by omega)
    rw [Prod.mk.eta, hempty, zero_add, hcounter] at hsum
    simp only
    rw [(NodeLedger.view_none (hpick.trans hitem)).1, hsum]

/-- Where the anchor was sampled in a period that had not begun when it was told, the rows of
that period's days count from what they held. -/
theorem agree_ahead (hsound : ledger.Sound t₀) (hlater : t₀ ≤ now)
    (hold : ledger.traffic.state = some old) (hfollows : Follows old reading)
    (hall : CarriesEveryMidnight old reading (sampledAt observedAt reading))
    (hday : now / 86400 = sampledAt observedAt reading / 86400)
    (hmeter : old.meterId = reading.meterId) (hsequence : old.sequence ≤ reading.sequence)
    (hrecord : ledger.record observedAt reading = .ok ledger')
    (hperiod : policy.cycle.period t₀ ≠ policy.cycle.period now)
    (hin : (policy.cycle.period now).1 ≤ old.lastReportedAt) : (ledger'.view policy now).totalBytes
      = policy.accountingMode.count (ledger.dailyBytes (policy.cycle.periodDates now)
          + if sampledAt observedAt reading < old.lastReportedAt then 0
            else reading.bytes - old.agentBytes) := by
  obtain ⟨hitems, hdropped, hgrown⟩ :=
    NodeLedger.record_grows hrecord hold hmeter hsequence hfollows hall
  have hpick : ledger'.calibration policy.accountingMode (policy.cycle.period now) = none := by
    have h := no_calibration hsound hlater hperiod
    unfold NodeLedger.calibration at h ⊢
    rw [hitems]
    exact h
  have hmem := policy.cycle.period_mem now
  have hstart := congrArg Prod.fst (policy.cycle.periodDates_eq now)
  have hstop := congrArg Prod.snd (policy.cycle.periodDates_eq now)
  simp only at hstart hstop
  rw [(NodeLedger.view_none hpick).1]
  by_cases hearlier : sampledAt observedAt reading < old.lastReportedAt
  · rw [if_pos hearlier, hdropped hearlier, add_zero]
  · have hcounter : counterAt old reading (sampledAt observedAt reading)
        (policy.cycle.periodDates now).1 = old.agentBytes := by
      unfold counterAt
      rw [if_pos (by omega)]
    rw [if_neg hearlier, ← Prod.mk.eta (p := policy.cycle.periodDates now),
      (hgrown (by omega)).2 _ _ (by omega), hcounter]

end Agreement

theorem Accepted.resetBytes_le {u : Unit} {period : ℤ} (h : validateReading reading = .ok u) :
    resetBytes reading period ≤ reading.bytes := by
  unfold resetBytes
  cases hfind : reading.dayBoundaries.find? fun boundary => boundary.dayStartUnixSecs = period with
  | none => exact ⟨Nat.zero_le _, Nat.zero_le _⟩
  | some boundary =>
    have hok := (validateReading_ok h).each boundary (List.mem_of_find?_eq_some hfind)
    exact ⟨hok.rx, hok.tx⟩

/-- **The agent and the control plane agree on used traffic exactly when** the machine moved
nothing that its mode counts between the anchor's sample and a reset behind it, wherever a
total was declared in the new period, and the mode's sum fits a `u64`. -/
theorem used_agrees {policy : NodeTrafficPolicy} {ledger : NodeLedger} {t₀ : ℤ}
    (hledger : ledger.Reachable t₀) {old : NodeTrafficState}
    (hold : ledger.traffic.state = some old) {desired : TrafficLimitDesired}
    (hdesired : ledger.desired policy t₀ = .ok desired) {reading : NodeTrafficReading}
    (hfollows : Follows old reading) {observedAt : ℤ}
    (hall : CarriesEveryMidnight old reading (sampledAt observedAt reading)) {now : ℤ}
    (hlater : t₀ ≤ now) (hday : now / 86400 = sampledAt observedAt reading / 86400) {used : ℕ}
    {period : ℤ} (hused : usedBytes desired reading now = .ok (used, period))
    {ledger' : NodeLedger} (hrecord : ledger.record observedAt reading = .ok ledger') :
    ((ledger'.view policy now).periodStartUnixSecs = period
        ∧ (ledger'.view policy now).totalBytes = used)
      ↔ Agrees policy ledger old t₀ reading (sampledAt observedAt reading) now := by
  have hsound := hledger.sound
  rw [NodeLedger.desired_ok hsound hold hdesired] at hused
  obtain ⟨rfl, anchor, hanchor, hmeter, hsequence, base, meter, calibrated, hfrom, hused⟩ :=
    usedBytes_ok hused
  rw [Option.some.injEq] at hanchor
  subst hanchor
  simp only at hmeter hsequence hused
  have hupto : resetBytes reading (policy.cycle.period now).1 ≤ reading.bytes := by
    unfold NodeLedger.record recordReading at hrecord
    cases hvalid : validateReading reading with
    | error e =>
      rw [hvalid] at hrecord
      exact absurd hrecord nofun
    | ok u => exact Accepted.resetBytes_le hvalid
  have hstart : (ledger'.view policy now).periodStartUnixSecs = (policy.cycle.period now).1 :=
    NodeLedger.view_period ..
  rw [eq_true hstart, true_and]
  unfold Agrees
  unfold reckonFrom at hfrom
  simp only at hfrom ⊢
  by_cases hin : (ledger.view policy t₀).periodStartUnixSecs = (policy.cycle.period now).1
      ∧ (policy.cycle.period now).1 ≤ old.lastReportedAt
  · -- the anchor's own period
    rw [if_pos hin] at hfrom
    obtain ⟨rfl, hrest⟩ := Prod.mk.inj (Except.ok.inj hfrom)
    obtain ⟨rfl, rfl⟩ := Prod.mk.inj hrest
    rw [if_pos hin, hused, agree_same hsound hold hfollows hall hday hmeter hsequence hrecord
      (TrafficCycle.period_eq ((NodeLedger.view_period ..).symm.trans hin.1)) hin.2]
    by_cases hearlier : sampledAt observedAt reading < old.lastReportedAt
    · rw [if_pos hearlier, if_pos hearlier, add_zero]
      omega
    · rw [if_neg hearlier, if_neg hearlier, ← NodeTrafficAccountingMode.apply_eq_count]
      omega
  rw [if_neg hin] at hfrom ⊢
  cases hfind : reading.dayBoundaries.find? fun boundary =>
      boundary.dayStartUnixSecs = (policy.cycle.period now).1 with
  | none =>
    rw [hfind] at hfrom
    exact absurd hfrom nofun
  | some boundary =>
    rw [hfind] at hfrom
    obtain ⟨rfl, hrest⟩ := Prod.mk.inj (Except.ok.inj hfrom)
    obtain ⟨rfl, rfl⟩ := Prod.mk.inj hrest
    have hreset : resetBytes reading (policy.cycle.period now).1 = boundary.bytes := by
      unfold resetBytes
      rw [hfind]
      rfl
    have hbase : ((0, 0) : Bytes) + (reading.bytes - boundary.bytes)
        = reading.bytes - boundary.bytes := zero_add _
    rw [hbase, NodeLedger.view_period] at hused
    rw [hreset] at hupto ⊢
    rw [NodeLedger.view_period] at hin
    by_cases hbehind : old.lastReportedAt < (policy.cycle.period now).1
    · rw [if_pos hbehind, hused, agree_rolled hsound hold hfollows hall hday hmeter
        hsequence hrecord hbehind hreset.symm hupto]
      cases hitem : ledger.calibration policy.accountingMode (policy.cycle.period now) with
      | none =>
        -- no declared total on either side
        have hcalibrated : (if (policy.cycle.period t₀).1 = (policy.cycle.period now).1 then
            (ledger.view policy t₀).limitCalibratedTotal else 0) = 0 := by
          by_cases hperiod : (policy.cycle.period t₀).1 = (policy.cycle.period now).1
          · rw [if_pos hperiod]
            rw [← TrafficCycle.period_eq hperiod] at hitem
            exact (NodeLedger.view_none hitem).2.1
          · rw [if_neg hperiod]
        rw [hcalibrated, zero_add]
        simp only [Option.mem_def, reduceCtorEq, false_implies, implies_true, and_true]
        rw [← NodeTrafficAccountingMode.apply_eq_count]
        exact eq_comm
      | some calibration =>
        have hperiod : policy.cycle.period t₀ = policy.cycle.period now := by
          by_contra hne
          rw [no_calibration hsound hlater hne] at hitem
          exact absurd hitem nofun
        have hcalibrated : (ledger.view policy t₀).limitCalibratedTotal
            = calibration.targetTotalBytes := by
          obtain ⟨-, bytes, hbytes, -⟩ :=
            hsound.calibrations _ (NodeLedger.calibration_mem hitem).1
          rw [← hperiod] at hitem
          exact (NodeLedger.view_some hitem hbytes).2.1
        rw [if_pos (congrArg Prod.fst hperiod), hcalibrated]
        simp only [Option.mem_def, Option.some.injEq, forall_eq']
        rw [← NodeTrafficAccountingMode.apply_eq_count_add]
        omega
    · have hperiod : (policy.cycle.period t₀).1 ≠ (policy.cycle.period now).1 := by
        intro h
        exact hin ⟨h, by omega⟩
      rw [if_neg hbehind, hused, if_neg hperiod, zero_add, agree_ahead hsound hlater hold
        hfollows hall hday hmeter hsequence hrecord
        (fun h => hperiod (congrArg Prod.fst h)) (by omega)]
      exact eq_comm

/-! ### A total declared before the meter was heard -/

/-- A machine's meter at a second of February 1970. -/
def februaryReading (sequence : ℕ) (at' : ℤ) (rxBytes : ℕ)
    (boundaries : List TrafficDayBoundary) : NodeTrafficReading where
  meterId := "00000000000000000000000000000000"
  sequence := sequence
  interface := "eth0"
  bootId := "00000000-0000-0000-0000-000000000000"
  rxBytes := rxBytes
  txBytes := 0
  discontinuities := 0
  sampledAtUnixSecs := some at'
  dayBoundaries := boundaries

/-- The last reading of January: a thousand seconds before the reset. -/
def januaryReading : NodeTrafficReading := februaryReading 1 2677400 100 []

/-- The meter moved 600 bytes before the reset and 300 behind it. -/
def firstOfFebruary : NodeTrafficReading :=
  februaryReading 2 2678600 1000 [⟨2678400, 700, 0⟩]

/-- The row of the last reading of January. -/
def januaryState : NodeTrafficState := nextState none januaryReading 2677400 (0, 0)

def januaryLedger : NodeLedger := ⟨⟨some januaryState, .empty, []⟩, []⟩

/-- A hundred seconds into February the operator declares 500 bytes. -/
def declaredLedger : NodeLedger :=
  januaryLedger.calibrate 1 2678500000000 500 .bidirectionalSum

theorem januaryLedger_reachable (now : ℤ) : januaryLedger.Reachable now :=
  @NodeLedger.Reachable.record .empty januaryLedger now 2677400 januaryReading (.empty now) rfl

theorem declaredLedger_reachable : declaredLedger.Reachable 2678500 :=
  .calibrate (januaryLedger_reachable 2678500) 1 2678500000000 rfl 500 .bidirectionalSum

theorem firstOfFebruary_follows : Follows januaryState firstOfFebruary := by
  refine ⟨by decide, fun h => absurd h (by decide), fun boundary hb _ => ?_⟩
  rw [List.mem_singleton.mp hb]
  decide

theorem firstOfFebruary_midnights : CarriesEveryMidnight januaryState firstOfFebruary 2678600 := by
  intro date hlow hhigh
  have hlow : (2677400 : ℤ) / 86400 < date := hlow
  have hhigh : date ≤ (2678600 : ℤ) / 86400 := hhigh
  exact ⟨⟨2678400, 700, 0⟩, List.mem_singleton.mpr rfl, by show (2678400 : ℤ) = _; omega⟩

/-- What the agent is told of a ledger whose last reading is January's. -/
def toldInJanuary (row : NodeTrafficItem) : TrafficLimitDesired :=
  ⟨.default, .bidirectionalSum, some {
    meterId := "00000000000000000000000000000000"
    sequence := 1
    sampledAtUnixSecs := 2677400
    periodStartUnixSecs := row.periodStartUnixSecs
    meterBytes := (100, 0)
    bytes := row.limitBytes
    calibratedTotalBytes := row.limitCalibratedTotal }⟩

/-- The agent reckons 800 bytes where the control plane reckons 1400: the 600 bytes moved
between the last reading and the reset count for one side only. -/
theorem declared_total_fails :
    ¬ ∀ (policy : NodeTrafficPolicy) (ledger : NodeLedger) (t₀ : ℤ) (old : NodeTrafficState)
      (desired : TrafficLimitDesired) (reading : NodeTrafficReading) (observedAt now : ℤ)
      (used : ℕ) (period : ℤ) (ledger' : NodeLedger),
      ledger.Reachable t₀ → ledger.traffic.state = some old →
      ledger.desired policy t₀ = .ok desired → Follows old reading →
      CarriesEveryMidnight old reading (sampledAt observedAt reading) → t₀ ≤ now →
      now / 86400 = sampledAt observedAt reading / 86400 →
      usedBytes desired reading now = .ok (used, period) →
      ledger.record observedAt reading = .ok ledger' →
      (ledger'.view policy now).periodStartUnixSecs = period
        ∧ (ledger'.view policy now).totalBytes = used := by
  intro h
  obtain ⟨ledger', hledger'⟩ : ∃ ledger', declaredLedger.record 2678600 firstOfFebruary = .ok ledger' :=
    ⟨_, rfl⟩
  have hfails := (h .default declaredLedger 2678500 januaryState
    (toldInJanuary (declaredLedger.view .default 2678500)) firstOfFebruary 2678600 2678600 800
    2678400 ledger' declaredLedger_reachable rfl (by decide +kernel) firstOfFebruary_follows
    firstOfFebruary_midnights (by decide) rfl (by decide +kernel) hledger').2
  have htotal : ((declaredLedger.record 2678600 firstOfFebruary).toOption.map fun ledger =>
      (ledger.view .default 2678600).totalBytes) = some 1400 := by
    decide +kernel
  rw [hledger'] at htotal
  have htotal : (ledger'.view .default 2678600).totalBytes = 1400 := Option.some.inj htotal
  rw [hfails] at htotal
  exact absurd htotal (by decide)

/-- Without a declared total they agree: both sides reckon the 300 bytes since the reset. -/
theorem used_agrees_february :
    ((((januaryLedger.record 2678600 firstOfFebruary).toOption.getD .empty).view .default
        2678600).periodStartUnixSecs = 2678400
      ∧ (((januaryLedger.record 2678600 firstOfFebruary).toOption.getD .empty).view .default
        2678600).totalBytes = 300)
      ↔ Agrees .default januaryLedger januaryState 2678500 firstOfFebruary 2678600 2678600 :=
  @used_agrees .default januaryLedger 2678500 (januaryLedger_reachable 2678500) januaryState rfl
    (toldInJanuary (januaryLedger.view .default 2678500)) (by decide +kernel) firstOfFebruary
    firstOfFebruary_follows 2678600 firstOfFebruary_midnights 2678600 (by decide) rfl 300 2678400
    (by decide +kernel) _ rfl

end Brocade.Traffic
