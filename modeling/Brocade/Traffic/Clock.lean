/-
The agent's meter and the clock.

Boundaries are only appended forward while the time of a sample follows the clock wherever it
goes, and a state may not hold a boundary behind its own sample.  So a clock that was once ahead
stops the meter until it is reached again (`meter_stops`); otherwise a sample succeeds, and the
control plane accepts its reading (`meter_samples`).
-/
import Brocade.Traffic.Sampling

namespace Brocade.Traffic

/-! ### Boundaries that pass -/

/-- A midnight up to the sample, with counters up to the sample's. -/
structure Placed (sampledAt : Option ℤ) (bytes : Bytes) (boundary : TrafficDayBoundary) :
    Prop where
  positive : 0 < boundary.dayStartUnixSecs
  aligned : boundary.dayStartUnixSecs % 86400 = 0
  sampled : ∃ at', sampledAt = some at' ∧ boundary.dayStartUnixSecs ≤ at'
  rx : boundary.rxBytes ≤ bytes.1
  tx : boundary.txBytes ≤ bytes.2

theorem Later.trans {a b c : TrafficDayBoundary} (hab : Later a b) (hbc : Later b c) :
    Later a c := by
  obtain ⟨hday, hrx, htx⟩ := hab
  obtain ⟨hday', hrx', htx'⟩ := hbc
  exact ⟨by omega, by omega, by omega⟩

theorem dayBoundariesOk_cons_iff {sampledAt : Option ℤ} {bytes : Bytes}
    {previous : Option TrafficDayBoundary} {boundary : TrafficDayBoundary}
    {rest : List TrafficDayBoundary} :
    dayBoundariesOk sampledAt bytes previous (boundary :: rest) = true
      ↔ Placed sampledAt bytes boundary ∧ (∀ old ∈ previous, Later old boundary)
        ∧ dayBoundariesOk sampledAt bytes (some boundary) rest = true := by
  rw [dayBoundariesOk]
  simp only [Bool.and_eq_true, Bool.not_eq_true', Bool.or_eq_false_iff, decide_eq_false_iff_not,
    not_le, not_not, not_lt]
  constructor
  · rintro ⟨⟨⟨⟨⟨⟨hpos, haligned⟩, hat⟩, hrx⟩, htx⟩, hprevious⟩, hrest⟩
    refine ⟨⟨hpos, haligned, ?_, hrx, htx⟩, ?_, hrest⟩
    · cases sampledAt with
      | none => simp at hat
      | some at' => exact ⟨at', rfl, by simpa using hat⟩
    · intro old hold
      cases hold
      simp only [Option.any_some, Bool.or_eq_false_iff, decide_eq_false_iff_not] at hprevious
      exact ⟨by omega, by omega, by omega⟩
  · rintro ⟨⟨hpos, haligned, ⟨at', rfl, hat⟩, hrx, htx⟩, hprevious, hrest⟩
    refine ⟨⟨⟨⟨⟨⟨hpos, haligned⟩, by simpa using hat⟩, hrx⟩, htx⟩, ?_⟩, hrest⟩
    cases previous with
    | none => rfl
    | some old =>
      obtain ⟨hday, holdRx, holdTx⟩ := hprevious old rfl
      simp only [Option.any_some, Bool.or_eq_false_iff, decide_eq_false_iff_not]
      exact ⟨⟨by omega, by omega⟩, by omega⟩

theorem dayBoundariesOk_iff {sampledAt : Option ℤ} {bytes : Bytes}
    {previous : Option TrafficDayBoundary} {boundaries : List TrafficDayBoundary} :
    dayBoundariesOk sampledAt bytes previous boundaries = true
      ↔ (∀ boundary ∈ boundaries, Placed sampledAt bytes boundary) ∧ boundaries.Pairwise Later
        ∧ ∀ old ∈ previous, ∀ boundary ∈ boundaries, Later old boundary := by
  induction boundaries generalizing previous with
  | nil => simp [dayBoundariesOk]
  | cons boundary rest ih =>
    rw [dayBoundariesOk_cons_iff, ih, List.pairwise_cons]
    constructor
    · rintro ⟨hplaced, hprevious, hrest, hpairs, hlater⟩
      refine ⟨?_, ⟨hlater boundary rfl, hpairs⟩, ?_⟩
      · intro b hb
        rcases List.mem_cons.mp hb with rfl | hb
        · exact hplaced
        · exact hrest b hb
      · intro old hold b hb
        rcases List.mem_cons.mp hb with rfl | hb
        · exact hprevious old hold
        · exact (hprevious old hold).trans (hlater boundary rfl b hb)
    · rintro ⟨hall, ⟨hlater, hpairs⟩, hprevious⟩
      refine ⟨hall boundary List.mem_cons_self, ?_, ?_, hpairs, ?_⟩
      · intro old hold
        exact hprevious old hold boundary List.mem_cons_self
      · intro b hb
        exact hall b (List.mem_cons_of_mem _ hb)
      · intro old hold
        cases hold
        exact hlater

theorem validateDayBoundaries_iff {boundaries : List TrafficDayBoundary} {sampledAt : Option ℤ}
    {bytes : Bytes} : validateDayBoundaries boundaries sampledAt bytes = .ok ()
      ↔ boundaries.length ≤ MAX_TRAFFIC_DAY_BOUNDARIES
        ∧ (∀ boundary ∈ boundaries, Placed sampledAt bytes boundary)
        ∧ boundaries.Pairwise Later := by
  have hok : dayBoundariesOk sampledAt bytes none boundaries = true
      ↔ (∀ boundary ∈ boundaries, Placed sampledAt bytes boundary) ∧ boundaries.Pairwise Later := by
    rw [dayBoundariesOk_iff]
    simp
  rw [← hok]
  unfold validateDayBoundaries MAX_TRAFFIC_DAY_BOUNDARIES
  split
  · simp
    omega
  · split
    next hpass =>
      simp only [hpass, and_true, true_iff]
      omega
    next hfail => simp [hfail]

theorem validateReading_iff {reading : NodeTrafficReading} : validateReading reading = .ok () ↔
      validateDayBoundaries reading.dayBoundaries reading.sampledAtUnixSecs reading.bytes = .ok ()
        ∧ validMeterId reading.meterId = true ∧ reading.sequence ≠ 0
        ∧ validInterface reading.interface = true ∧ validBootId reading.bootId = true := by
  unfold validateReading
  cases validateDayBoundaries reading.dayBoundaries reading.sampledAtUnixSecs reading.bytes with
  | error e => simp
  | ok u =>
    dsimp only
    cases hmeter : validMeterId reading.meterId with
    | false => simp
    | true =>
      by_cases hsequence : reading.sequence = 0
      · simp [hsequence]
      · rw [if_neg (by simp), if_neg hsequence]
        cases hinterface : validInterface reading.interface <;>
          cases hboot : validBootId reading.bootId <;> simp [hsequence]

namespace TrafficMeterState

open Fallible

variable {state : TrafficMeterState}

theorem validateState_iff : validateState state = .ok () ↔
      validateDayBoundaries state.dayBoundaries state.sampledAtUnixSecs state.bytes = .ok ()
        ∧ state.version = 1 ∧ validMeterId state.meterId = true ∧ state.sequence ≠ 0
        ∧ validInterface state.interface = true ∧ validBootId state.bootId = true := by
  unfold validateState bytes
  cases validateDayBoundaries state.dayBoundaries state.sampledAtUnixSecs
      (state.totalRxBytes, state.totalTxBytes) with
  | error e => simp
  | ok u =>
    dsimp only
    by_cases hversion : state.version = 1
    · rw [if_neg (not_not.mpr hversion)]
      cases hmeter : validMeterId state.meterId with
      | false => simp
      | true =>
        by_cases hsequence : state.sequence = 0
        · simp [hsequence]
        · rw [if_neg (by simp), if_neg hsequence]
          cases hinterface : validInterface state.interface <;>
            cases hboot : validBootId state.bootId <;> simp [hversion, hsequence]
    · rw [if_pos hversion]
      simp [hversion]

/-! ### What the kernel's readings look like -/

/-- A reading of the machine's own counters.  The name is a field of a table that was split at
blanks, and it passed the agent's check. -/
structure FromKernel (raw : RawTraffic) : Prop where
  interface : TrafficMeterState.validInterface raw.interface = true
  bootId : validBootId raw.bootId = true
  unbroken : ∀ c ∈ raw.interface.toList, Text.isWhitespace c = false

theorem FromKernel.accepted {raw : RawTraffic} (h : FromKernel raw) :
    Traffic.validInterface raw.interface = true := by
  have hagent := h.interface
  unfold TrafficMeterState.validInterface at hagent
  simp only [Bool.and_eq_true] at hagent
  obtain ⟨⟨⟨⟨⟨hempty, hlength⟩, hslash⟩, hdot⟩, hdots⟩, -⟩ := hagent
  unfold Traffic.validInterface
  simp only [Bool.and_eq_true]
  exact ⟨⟨⟨⟨⟨hempty, hlength⟩, by simpa using Text.trim_of_unbroken h.unbroken⟩, hslash⟩, hdot⟩, hdots⟩

/-! ### One sample -/

/-- The sums of a sample fit their counters. -/
def TotalsFit (state : TrafficMeterState) (raw : RawTraffic) : Prop :=
  state.totalRxBytes + (gained state raw).1 ≤ U64_MAX
    ∧ state.totalTxBytes + (gained state raw).2 ≤ U64_MAX

theorem checked_of_le {a b : ℕ} {message : String} (h : a + b ≤ U64_MAX) :
    checked a b message = .ok (a + b) := by
  rw [checked, checkedAdd, if_pos h]
  rfl

theorem grow_of_fits {raw : RawTraffic} (h : TotalsFit state raw)
    (hbroke : broke state raw = true → state.discontinuities < U64_MAX) :
    ∃ grown, grow state raw = .ok grown := by
  have hdisc : broke state raw = true → state.discontinued = .ok (state.discontinuities + 1) := by
    intro hcase
    exact checked_of_le (hbroke hcase)
  obtain ⟨hrx, htx⟩ := h
  unfold grow
  by_cases hboot : state.bootId ≠ raw.bootId
  · rw [gained, if_pos hboot] at hrx htx
    rw [if_pos hboot, checked_of_le hrx, checked_of_le htx, hdisc (by simp [broke, hboot])]
    exact ⟨_, rfl⟩
  rw [if_neg hboot]
  by_cases hinterface : state.interface ≠ raw.interface
  · rw [if_pos hinterface, hdisc (by simp [broke, hinterface])]
    exact ⟨_, rfl⟩
  · rw [gained, if_neg hboot, if_neg hinterface] at hrx htx
    rw [if_neg hinterface, checked_of_le hrx, checked_of_le htx]
    have hsame : broke state raw = (decide (raw.rxBytes < state.rawRxBytes)
        || decide (raw.txBytes < state.rawTxBytes)) := by
      simp only [broke, hboot, hinterface, decide_false, Bool.false_or]
    rw [← hsame]
    cases hcase : broke state raw with
    | true =>
      rw [hdisc hcase]
      exact ⟨_, rfl⟩
    | false => exact ⟨_, rfl⟩

theorem advance_of_fits {raw : RawTraffic} (h : TotalsFit state raw)
    (hsequence : state.sequence < U64_MAX)
    (hbroke : broke state raw = true → state.discontinuities < U64_MAX) :
    ∃ next, advance state raw = .ok next ∧ next.version = state.version
      ∧ next.interface = raw.interface ∧ next.bootId = raw.bootId := by
  obtain ⟨grown, hgrown⟩ := grow_of_fits h hbroke
  refine ⟨{ state with
    sequence := state.sequence + 1
    interface := raw.interface
    bootId := raw.bootId
    rawRxBytes := raw.rxBytes
    rawTxBytes := raw.txBytes
    totalRxBytes := grown.1
    totalTxBytes := grown.2.1
    discontinuities := grown.2.2 }, ?_, rfl, rfl, rfl⟩
  rw [advance, checked_of_le hsequence, hgrown]
  rfl

theorem dayOf_le (now : ℤ) : dayOf now ≤ now := by
  unfold dayOf
  omega

theorem latestBoundaries_length (boundaries : List TrafficDayBoundary) :
    (latestBoundaries boundaries).length ≤ MAX_TRAFFIC_DAY_BOUNDARIES := by
  rw [latestBoundaries, List.length_drop]
  omega

/-- The boundaries after a sample pass, where none of the old ones lies behind the clock. -/
theorem recordDayBoundary_passes {old : TrafficMeterState} {now : ℤ}
    (hvalid : validateDayBoundaries old.dayBoundaries old.sampledAtUnixSecs old.bytes = .ok ())
    (hsame : state.dayBoundaries = old.dayBoundaries) (hbytes : old.bytes ≤ state.bytes)
    (hnow : 86400 ≤ now)
    (hlast : ∀ last ∈ old.dayBoundaries.getLast?, last.dayStartUnixSecs ≤ now) :
    validateDayBoundaries (state.recordDayBoundary now (some old.bytes)).dayBoundaries (some now)
      state.bytes = .ok () := by
  obtain ⟨hlength, hplaced, hpairs⟩ := validateDayBoundaries_iff.mp hvalid
  have hupTo : ∀ boundary ∈ old.dayBoundaries, ∀ last ∈ old.dayBoundaries.getLast?,
      boundary.dayStartUnixSecs ≤ last.dayStartUnixSecs := by
    intro boundary hb last hmem
    obtain ⟨front, hfront⟩ := List.getLast?_eq_some_iff.mp hmem
    rw [hfront] at hb hpairs
    rcases List.mem_append.mp hb with hb | hb
    · exact le_of_lt ((List.pairwise_append.mp hpairs).2.2 boundary hb last (by simp)).1
    · rw [List.mem_singleton] at hb
      rw [hb]
  have hkept : ∀ boundary ∈ old.dayBoundaries, Placed (some now) state.bytes boundary := by
    intro boundary hb
    obtain ⟨hpos, haligned, -, hrx, htx⟩ := hplaced boundary hb
    refine ⟨hpos, haligned, ⟨now, rfl, ?_⟩, hrx.trans hbytes.1, htx.trans hbytes.2⟩
    cases hget : old.dayBoundaries.getLast? with
    | none =>
      rw [List.getLast?_eq_none_iff] at hget
      rw [hget] at hb
      cases hb
    | some last => exact (hupTo boundary hb last hget).trans (hlast last hget)
  rw [validateDayBoundaries_iff]
  unfold recordDayBoundary
  dsimp only
  rw [hsame]
  split
  next hlater =>
    have hafter : ∀ boundary ∈ old.dayBoundaries, boundary.dayStartUnixSecs < dayOf now := by
      intro boundary hb
      cases hget : old.dayBoundaries.getLast? with
      | none =>
        rw [List.getLast?_eq_none_iff] at hget
        rw [hget] at hb
        cases hb
      | some last =>
        rw [hget] at hlater
        simp only [Option.all_some, decide_eq_true_eq] at hlater
        exact lt_of_le_of_lt (hupTo boundary hb last hget) hlater
    dsimp only [Option.getD_some]
    refine ⟨latestBoundaries_length _, ?_, ?_⟩
    · intro boundary hb
      rcases List.mem_append.mp (mem_of_mem_latestBoundaries hb) with hb | hb
      · exact hkept boundary hb
      · rw [List.mem_singleton] at hb
        subst hb
        refine ⟨?_, ?_, ⟨now, rfl, dayOf_le now⟩, hbytes.1, hbytes.2⟩
        · show 0 < dayOf now
          unfold dayOf
          omega
        · show dayOf now % 86400 = 0
          unfold dayOf
          omega
    · refine List.Pairwise.sublist (List.drop_sublist _ _) ?_
      refine List.pairwise_append.mpr ⟨hpairs, List.pairwise_singleton _ _, ?_⟩
      intro boundary hb new hnew
      rw [List.mem_singleton] at hnew
      subst hnew
      obtain ⟨-, -, -, hrx, htx⟩ := hplaced boundary hb
      exact ⟨hafter boundary hb, hrx, htx⟩
  next =>
    exact ⟨hlength, hkept, hpairs⟩

/-- No boundary of the state lies behind the clock. -/
def NotAhead (state : TrafficMeterState) (now : ℤ) : Prop :=
  ∀ last ∈ state.dayBoundaries.getLast?, last.dayStartUnixSecs ≤ now

/-- **A sample whose counters fit is taken**, where no boundary lies behind the clock. -/
theorem sample_taken {raw : RawTraffic} {now : ℤ} (hstate : validateState state = .ok ())
    (hinterface : validInterface raw.interface = true) (hboot : validBootId raw.bootId = true)
    (hfit : TotalsFit state raw) (hroom : state.sequence < U64_MAX)
    (hbroke : broke state raw = true → state.discontinuities < U64_MAX) (hnow : 86400 ≤ now)
    (hlast : NotAhead state now) :
    ∃ next, sample (some state) state.meterId raw now = .ok next ∧ validateState next = .ok ()
      ∧ next.interface = raw.interface ∧ next.bootId = raw.bootId := by
  obtain ⟨hboundaries, hversion, hmeter, hsequence, -, -⟩ := validateState_iff.mp hstate
  obtain ⟨advanced, hadvance, hadvancedVersion, hnextInterface, hnextBoot⟩ :=
    advance_of_fits hfit hroom hbroke
  obtain ⟨hadvancedMeter, hadvancedSequence, hbytes, hsame⟩ := advance_ok hadvance
  have hpass := recordDayBoundary_passes hboundaries hsame hbytes hnow hlast
  have hkept : (advanced.recordDayBoundary now (some state.bytes)).version = advanced.version
      ∧ (advanced.recordDayBoundary now (some state.bytes)).interface = advanced.interface
      ∧ (advanced.recordDayBoundary now (some state.bytes)).bootId = advanced.bootId
      ∧ (advanced.recordDayBoundary now (some state.bytes)).sampledAtUnixSecs = some now := by
    unfold recordDayBoundary
    dsimp only
    split
    · exact ⟨rfl, rfl, rfl, rfl⟩
    · exact ⟨rfl, rfl, rfl, rfl⟩
  obtain ⟨hnextBytes, hnextMeter, hnextSequence, -⟩ :=
    recordDayBoundary_spec advanced now state.bytes
  obtain ⟨hkeptVersion, hkeptInterface, hkeptBoot, hnextAt⟩ := hkept
  have hvalid : validateState (advanced.recordDayBoundary now (some state.bytes)) = .ok () := by
    refine validateState_iff.mpr ⟨?_, ?_, ?_, ?_, ?_, ?_⟩
    · rw [hnextAt]
      show validateDayBoundaries _ _
        (advanced.recordDayBoundary now (some state.bytes)).reading.bytes = _
      rw [hnextBytes]
      exact hpass
    · rw [hkeptVersion, hadvancedVersion, hversion]
    · rw [hnextMeter, hadvancedMeter]
      exact hmeter
    · rw [hnextSequence, hadvancedSequence]
      omega
    · rw [hkeptInterface, hnextInterface]
      exact hinterface
    · rw [hkeptBoot, hnextBoot]
      exact hboot
  refine ⟨advanced.recordDayBoundary now (some state.bytes), ?_, hvalid,
    hkeptInterface.trans hnextInterface, hkeptBoot.trans hnextBoot⟩
  show (validateState state >>= fun _ => advance state raw >>= fun next =>
    validateState (next.recordDayBoundary now (some state.bytes)) >>= fun _ =>
      pure (next.recordDayBoundary now (some state.bytes))) = _
  rw [hstate, hadvance]
  show (validateState (advanced.recordDayBoundary now (some state.bytes)) >>= fun _ =>
    pure (advanced.recordDayBoundary now (some state.bytes))) = _
  rw [hvalid]
  rfl

/-! ### The meter and the clock -/

/-- A sample succeeds, its state passes again, and the control plane accepts the reading. -/
def Samples (state : TrafficMeterState) (raw : RawTraffic) (now : ℤ) : Prop :=
  ∀ fresh, ∃ next, sampleWithWriter (some state) ⟨raw, .ok now, fresh, .committed⟩
      = (some next, .ok next.reading)
    ∧ validateState next = .ok () ∧ validateReading next.reading = .ok ()
    ∧ next.dayBoundaries.length ≤ MAX_TRAFFIC_DAY_BOUNDARIES
    ∧ (∀ boundary ∈ next.dayBoundaries, boundary.dayStartUnixSecs % 86400 = 0)
    ∧ next.dayBoundaries.Pairwise Traffic.Later

theorem sampleWithWriter_committed {disk : Option TrafficMeterState} {raw : RawTraffic}
    {clock : Except String ℤ} {fresh : Except String String} {next : TrafficMeterState}
    {reading : NodeTrafficReading}
    (h : sampleWithWriter disk ⟨raw, clock, fresh, .committed⟩ = (some next, .ok reading)) :
    prepare disk ⟨raw, clock, fresh, .committed⟩ = .ok next := by
  unfold sampleWithWriter at h
  split at h
  · injection h with _ hanswer
    cases hanswer
  next prepared hprepared =>
    injection h with hdisk _
    rw [hprepared, Option.some.inj hdisk]

/-- Exactly when a sample of a machine whose counters fit succeeds. -/
theorem meter_samples {state : TrafficMeterState} {raw : RawTraffic} {now : ℤ}
    (hstate : validateState state = .ok ()) (hraw : FromKernel raw) (hfit : TotalsFit state raw)
    (hnow : 86400 ≤ now) :
    Samples state raw now ↔ (∀ last ∈ state.dayBoundaries.getLast?, last.dayStartUnixSecs ≤ now)
        ∧ state.sequence < U64_MAX
        ∧ (broke state raw = true → state.discontinuities < U64_MAX) := by
  constructor
  · intro h
    obtain ⟨next, hwrite, hvalid, -⟩ := h (.ok "")
    have hprepare := sampleWithWriter_committed hwrite
    simp only [prepare, bind_eq_ok] at hprepare
    obtain ⟨_, -, clock, hclock, hsample⟩ := hprepare
    injection hclock with hclock
    subst hclock
    obtain ⟨-, -, -, -, hoverflow⟩ := sample_gained hsample
    refine ⟨?_, ?_, ?_⟩
    · intro last hlast
      unfold sample at hsample
      simp only [bind_eq_ok, pure_eq_ok] at hsample
      obtain ⟨_, _, advanced, hadvance, _, _, hnext⟩ := hsample
      obtain ⟨-, -, -, hsame⟩ := advance_ok hadvance
      unfold recordDayBoundary at hnext
      dsimp only at hnext
      split at hnext
      next hlater =>
        rw [hsame, hlast] at hlater
        simp only [Option.all_some, decide_eq_true_eq] at hlater
        have := dayOf_le now
        omega
      next =>
        obtain ⟨hpass, -⟩ := validateState_iff.mp hvalid
        obtain ⟨-, hplaced, -⟩ := validateDayBoundaries_iff.mp hpass
        have hmem : last ∈ next.dayBoundaries := by
          rw [← hnext]
          show last ∈ advanced.dayBoundaries
          rw [hsame]
          exact List.mem_of_getLast? hlast
        obtain ⟨at', hat, hle⟩ := (hplaced last hmem).sampled
        rw [← hnext] at hat
        injection hat with hat
        omega
    · by_contra hfull
      exact hoverflow (.inl (not_lt.mp hfull))
    · intro hbroke
      by_contra hfull
      exact hoverflow (.inr (.inl ⟨hbroke, not_lt.mp hfull⟩))
  · rintro ⟨hlast, hroom, hbroke⟩ fresh
    obtain ⟨next, hsample, hvalid, hinterface, hboot⟩ :=
      sample_taken hstate hraw.interface hraw.bootId hfit hroom hbroke hnow hlast
    obtain ⟨hpass, -, hnextMeter, hnextSequence, -, -⟩ := validateState_iff.mp hvalid
    obtain ⟨hlength, hplaced, hpairs⟩ := validateDayBoundaries_iff.mp hpass
    refine ⟨next, ?_, hvalid, ?_, hlength, ?_, hpairs⟩
    · have hprepare : prepare (some state) ⟨raw, .ok now, fresh, .committed⟩ = .ok next := by
        show (validateState state >>= fun _ => sample (some state) state.meterId raw now) = _
        rw [hstate]
        exact hsample
      rw [sampleWithWriter, hprepare]
    · refine validateReading_iff.mpr ⟨hpass, hnextMeter, hnextSequence, ?_, ?_⟩
      · show Traffic.validInterface next.interface = true
        rw [hinterface]
        exact hraw.accepted
      · show validBootId next.bootId = true
        rw [hboot]
        exact hraw.bootId
    · intro boundary hb
      exact (hplaced boundary hb).aligned

theorem sampleWithWriter_fresh (state : TrafficMeterState) (raw : RawTraffic)
    (clock : Except String ℤ) (fresh : Except String String) (write : WriteOutcome) :
    sampleWithWriter (some state) ⟨raw, clock, fresh, write⟩
      = sampleWithWriter (some state) ⟨raw, clock, .ok "", write⟩ := rfl

/-- A machine whose clock was two days ahead when it took its last sample. -/
def aheadState : TrafficMeterState where
  version := 1
  meterId := "0123456789abcdef0123456789abcdef"
  sequence := 1
  interface := "eth0"
  bootId := "11111111-2222-3333-4444-555555555555"
  rawRxBytes := 1000
  rawTxBytes := 2000
  totalRxBytes := 0
  totalTxBytes := 0
  discontinuities := 0
  sampledAtUnixSecs := some 345700
  dayBoundaries := [⟨345600, 0, 0⟩]

theorem meter_samples_later : Samples aheadState aheadState.raw 345800 := by
  have hraw : FromKernel aheadState.raw := by
    constructor
    · decide
    · decide
    · have hall : (aheadState.raw.interface.toList.all fun c => !Text.isWhitespace c) = true := by
        decide
      intro c hc
      simpa using List.all_eq_true.mp hall c hc
  have hfit : TotalsFit aheadState aheadState.raw := by
    unfold TotalsFit
    decide
  refine (meter_samples (by decide) hraw hfit (by decide)).mpr ⟨?_, by decide, by decide⟩
  intro last hlast
  cases hlast
  decide

/-- Back in time the state keeps its boundary and is refused, sample after sample. -/
theorem meter_stops : validateState aheadState = .ok () ∧ TotalsFit aheadState aheadState.raw
      ∧ ∀ fresh, (sampleWithWriter (some aheadState)
        ⟨aheadState.raw, .ok 172900, fresh, .committed⟩).2 = .error "invalid traffic day boundary"
      ∧ ¬ Samples aheadState aheadState.raw 172900 := by
  have hrefused : ∀ fresh, (sampleWithWriter (some aheadState)
      ⟨aheadState.raw, .ok 172900, fresh, .committed⟩).2
        = .error "invalid traffic day boundary" := by
    intro fresh
    rw [sampleWithWriter_fresh]
    decide +kernel
  refine ⟨by decide, by unfold TotalsFit; decide, ?_⟩
  intro fresh
  refine ⟨hrefused fresh, ?_⟩
  intro h
  obtain ⟨next, hwrite, -⟩ := h (.ok "")
  have hanswer := hrefused (.ok "")
  rw [hwrite] at hanswer
  cases hanswer

end TrafficMeterState

end Brocade.Traffic
