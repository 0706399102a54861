/-
What a sample of the agent's meter writes.

Every sample starts from what is on disk, and its write may be committed, or fail with the old
file in place, or be committed and still be told as failed.  What is written holds the kernel's
counters as they were read, and grew by what they grew.
-/
import Brocade.Traffic.Meter

namespace Brocade.Traffic

/-- What becomes of one durable write. -/
inductive WriteOutcome where
  | committed
  /-- The old file is intact. -/
  | failed (error : String)
  /-- The new file is in place, but the caller is told otherwise. -/
  | uncertain (error : String)

/-- One call of the sampler: what the kernel, the clock and the random source answer. -/
structure SampleCall where
  raw : RawTraffic
  clock : Except String ℤ
  fresh : Except String String
  write : WriteOutcome

namespace TrafficMeterState

open Fallible

/-- The state that a call is about to write. -/
def prepare (disk : Option TrafficMeterState) (call : SampleCall) :
    Except String TrafficMeterState := do
  match disk with
  | some state =>
    validateState state
    let now ← call.clock
    sample (some state) state.meterId call.raw now
  | none =>
    let now ← call.clock
    let meterId ← call.fresh
    sample none meterId call.raw now

/-- The state on disk afterwards, and what the caller is told. -/
def sampleWithWriter (disk : Option TrafficMeterState) (call : SampleCall) :
    Option TrafficMeterState × Except String NodeTrafficReading :=
  match prepare disk call with
  | .error error => (disk, .error error)
  | .ok next =>
    match call.write with
    | .committed => (some next, .ok next.reading)
    | .failed error => (disk, .error error)
    | .uncertain error => (some next, .error error)

/-- The state on disk after a run of calls. -/
def afterCalls (disk : Option TrafficMeterState) (calls : List SampleCall) :
    Option TrafficMeterState :=
  calls.foldl (fun disk call => (sampleWithWriter disk call).1) disk

/-! ### What the counters are to say -/

/-- What the kernel counted. -/
def raw (state : TrafficMeterState) : RawTraffic where
  interface := state.interface
  bootId := state.bootId
  rxBytes := state.rawRxBytes
  txBytes := state.rawTxBytes

/-- What moved between a state and a later reading of the kernel's counters. -/
def gained (state : TrafficMeterState) (raw : RawTraffic) : Bytes :=
  if state.bootId ≠ raw.bootId then (raw.rxBytes, raw.txBytes)
  else if state.interface ≠ raw.interface then (0, 0)
  else (raw.rxBytes - state.rawRxBytes, raw.txBytes - state.rawTxBytes)

/-- A boot, another interface, or a counter that fell. -/
def broke (state : TrafficMeterState) (raw : RawTraffic) : Bool :=
  decide (state.bootId ≠ raw.bootId) || decide (state.interface ≠ raw.interface)
    || decide (raw.rxBytes < state.rawRxBytes) || decide (raw.txBytes < state.rawTxBytes)

/-- What a sample would add does not fit its counter. -/
def Overflows (state : TrafficMeterState) (raw : RawTraffic) : Prop :=
  U64_MAX ≤ state.sequence ∨ broke state raw = true ∧ U64_MAX ≤ state.discontinuities
    ∨ 0 < (gained state raw).1 ∧ U64_MAX < state.totalRxBytes + (gained state raw).1
    ∨ 0 < (gained state raw).2 ∧ U64_MAX < state.totalTxBytes + (gained state raw).2

section Disk

variable (before after : Option TrafficMeterState)

def metered : Bytes := (before.map bytes).getD 0

def sequenceOf : ℕ := (before.map (·.sequence)).getD 0

def discontinuitiesOf : ℕ := (before.map (·.discontinuities)).getD 0

/-- What moved between two durable states. -/
def gainedOn : Bytes :=
  match before, after with
  | some state, some next => gained state next.raw
  | _, _ => 0

def brokeOn : Bool :=
  match before, after with
  | some state, some next => broke state next.raw
  | _, _ => false

end Disk

/-- The sum over the durable states of a run. -/
def gainedOver (disk : Option TrafficMeterState) : List SampleCall → Bytes
  | [] => 0
  | call :: calls =>
    let next := (sampleWithWriter disk call).1
    gainedOn disk next + gainedOver next calls

/-- How often it broke in a run. -/
def brokenOver (disk : Option TrafficMeterState) : List SampleCall → ℕ
  | [] => 0
  | call :: calls =>
    let next := (sampleWithWriter disk call).1
    (if brokeOn disk next then 1 else 0) + brokenOver next calls

/-! ### One sample -/

theorem checked_le {a b c : ℕ} {message : String} (h : checked a b message = .ok c) :
    c ≤ U64_MAX := by
  unfold checked checkedAdd at h
  split at h
  next hle =>
    rw [← Except.ok.inj h]
    exact hle
  next => cases h

theorem grow_gained {state : TrafficMeterState} {raw : RawTraffic} {grown : ℕ × ℕ × ℕ}
    (h : grow state raw = .ok grown) : grown.1 = state.totalRxBytes + (gained state raw).1
      ∧ grown.2.1 = state.totalTxBytes + (gained state raw).2
      ∧ grown.2.2 = state.discontinuities + (if broke state raw then 1 else 0)
      ∧ (0 < (gained state raw).1 → grown.1 ≤ U64_MAX)
      ∧ (0 < (gained state raw).2 → grown.2.1 ≤ U64_MAX)
      ∧ (broke state raw = true → grown.2.2 ≤ U64_MAX) := by
  unfold grow at h
  by_cases hboot : state.bootId ≠ raw.bootId
  · rw [if_pos hboot] at h
    simp only [bind_eq_ok, pure_eq_ok] at h
    obtain ⟨rx, hrx, tx, htx, discontinuities, hdisc, rfl⟩ := h
    have hbroke : broke state raw = true := by simp [broke, hboot]
    have hgained : gained state raw = (raw.rxBytes, raw.txBytes) := if_pos hboot
    rw [hbroke, hgained]
    exact ⟨checked_ok hrx, checked_ok htx, checked_ok hdisc, fun _ => checked_le hrx,
      fun _ => checked_le htx, fun _ => checked_le hdisc⟩
  rw [if_neg hboot] at h
  by_cases hinterface : state.interface ≠ raw.interface
  · rw [if_pos hinterface] at h
    simp only [bind_eq_ok, pure_eq_ok] at h
    obtain ⟨discontinuities, hdisc, rfl⟩ := h
    have hbroke : broke state raw = true := by simp [broke, hinterface]
    have hgained : gained state raw = (0, 0) := by
      rw [gained, if_neg hboot, if_pos hinterface]
    rw [hbroke, hgained]
    exact ⟨rfl, rfl, checked_ok hdisc, fun hpos => absurd hpos (lt_irrefl 0),
      fun hpos => absurd hpos (lt_irrefl 0), fun _ => checked_le hdisc⟩
  · rw [if_neg hinterface] at h
    simp only [bind_eq_ok, pure_eq_ok] at h
    obtain ⟨discontinuities, hdisc, rx, hrx, tx, htx, rfl⟩ := h
    have hgained : gained state raw
        = (raw.rxBytes - state.rawRxBytes, raw.txBytes - state.rawTxBytes) := by
      rw [gained, if_neg hboot, if_neg hinterface]
    have hbroke : broke state raw = (decide (raw.rxBytes < state.rawRxBytes)
        || decide (raw.txBytes < state.rawTxBytes)) := by
      simp only [broke, hboot, hinterface, decide_false, Bool.false_or]
    rw [← hbroke] at hdisc
    rw [hgained]
    refine ⟨checked_ok hrx, checked_ok htx, ?_, fun _ => checked_le hrx,
      fun _ => checked_le htx, ?_⟩
    · cases hcase : broke state raw with
      | true =>
        rw [hcase] at hdisc
        exact checked_ok hdisc
      | false =>
        rw [hcase] at hdisc
        exact (Except.ok.inj hdisc).symm
    · intro hcase
      rw [hcase] at hdisc
      exact checked_le hdisc

theorem sample_gained {state next : TrafficMeterState} {meterId : String} {raw : RawTraffic}
    {now : ℤ} (h : sample (some state) meterId raw now = .ok next) :
    next.raw = raw ∧ next.bytes = state.bytes + gained state raw
      ∧ next.discontinuities = state.discontinuities + (if broke state raw then 1 else 0)
      ∧ next.sequence = state.sequence + 1 ∧ ¬ Overflows state raw := by
  unfold sample at h
  simp only [bind_eq_ok, pure_eq_ok] at h
  obtain ⟨_, _, advanced, hadvance, _, _, rfl⟩ := h
  unfold advance at hadvance
  simp only [bind_eq_ok, pure_eq_ok] at hadvance
  obtain ⟨sequence, hsequence, grown, hgrown, rfl⟩ := hadvance
  obtain ⟨hrx, htx, hdisc, hrxMax, htxMax, hdiscMax⟩ := grow_gained hgrown
  have hkeeps : ∀ state : TrafficMeterState, ∀ now previous,
      (state.recordDayBoundary now previous).raw = state.raw
        ∧ (state.recordDayBoundary now previous).bytes = state.bytes
        ∧ (state.recordDayBoundary now previous).discontinuities = state.discontinuities
        ∧ (state.recordDayBoundary now previous).sequence = state.sequence := by
    intro state now previous
    unfold recordDayBoundary
    dsimp only
    split
    · exact ⟨rfl, rfl, rfl, rfl⟩
    · exact ⟨rfl, rfl, rfl, rfl⟩
  obtain ⟨hraw, hbytes, hdiscKept, hsequenceKept⟩ := hkeeps
    { state with
      sequence := sequence
      interface := raw.interface
      bootId := raw.bootId
      rawRxBytes := raw.rxBytes
      rawTxBytes := raw.txBytes
      totalRxBytes := grown.1
      totalTxBytes := grown.2.1
      discontinuities := grown.2.2 } now (some (state.totalRxBytes, state.totalTxBytes))
  refine ⟨hraw, ?_, hdiscKept.trans hdisc, hsequenceKept.trans (checked_ok hsequence), ?_⟩
  · rw [hbytes]
    exact Prod.ext hrx htx
  · intro hoverflow
    have hsequenceMax := checked_le hsequence
    rw [checked_ok hsequence] at hsequenceMax
    rcases hoverflow with hseq | ⟨hbroke, hmax⟩ | ⟨hpos, hmax⟩ | ⟨hpos, hmax⟩
    · omega
    · have := hdiscMax hbroke
      rw [hdisc, hbroke] at this
      simp only [if_true] at this
      omega
    · have := hrxMax hpos
      omega
    · have := htxMax hpos
      omega

theorem sample_first {meterId : String} {raw : RawTraffic} {now : ℤ} {next : TrafficMeterState}
    (h : sample none meterId raw now = .ok next) :
    next.raw = raw ∧ next.bytes = 0 ∧ next.discontinuities = 0 := by
  unfold sample at h
  simp only [bind_eq_ok, pure_eq_ok] at h
  obtain ⟨_, _, rfl⟩ := h
  unfold recordDayBoundary
  dsimp only
  split
  · exact ⟨rfl, rfl, rfl⟩
  · exact ⟨rfl, rfl, rfl⟩

theorem gained_self (state : TrafficMeterState) : gained state state.raw = 0 := by
  show (if state.bootId ≠ state.bootId then _ else if state.interface ≠ state.interface then _
    else _) = _
  simp [raw]

theorem broke_self (state : TrafficMeterState) : broke state state.raw = false := by
  simp [broke, raw]

@[simp] theorem gainedOn_self (disk : Option TrafficMeterState) : gainedOn disk disk = 0 := by
  cases disk with
  | none => rfl
  | some state => exact gained_self state

@[simp] theorem brokeOn_self (disk : Option TrafficMeterState) : brokeOn disk disk = false := by
  cases disk with
  | none => rfl
  | some state => exact broke_self state

theorem prepare_spec {disk : Option TrafficMeterState} {call : SampleCall}
    {next : TrafficMeterState} (h : prepare disk call = .ok next) :
    next.raw = call.raw ∧ next.bytes = metered disk + gainedOn disk (some next)
      ∧ next.discontinuities = discontinuitiesOf disk + (if brokeOn disk (some next) then 1 else 0)
      ∧ sequenceOf disk ≤ next.sequence
      ∧ ∀ state, disk = some state → ¬ Overflows state call.raw := by
  cases disk with
  | none =>
    simp only [prepare, bind_eq_ok] at h
    obtain ⟨now, -, meterId, -, hsample⟩ := h
    obtain ⟨hraw, hbytes, hdisc⟩ := sample_first hsample
    refine ⟨hraw, ?_, ?_, Nat.zero_le _, fun state hstate => by cases hstate⟩
    · rw [hbytes]
      rfl
    · rw [hdisc]
      rfl
  | some state =>
    simp only [prepare, bind_eq_ok] at h
    obtain ⟨_, -, now, -, hsample⟩ := h
    obtain ⟨hraw, hbytes, hdisc, hsequence, hfits⟩ := sample_gained hsample
    refine ⟨hraw, ?_, ?_, ?_, ?_⟩
    · show _ = state.bytes + gained state next.raw
      rw [hraw, hbytes]
    · show _ = state.discontinuities + if broke state next.raw then 1 else 0
      rw [hraw, hdisc]
    · show state.sequence ≤ _
      omega
    · intro other hother
      injection hother with hother
      subst hother
      exact hfits

end TrafficMeterState

end Brocade.Traffic
