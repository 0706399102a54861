/-
The agent's meter.

The kernel's counters start again at boot and belong to one interface; the agent keeps a
logical counter that only grows, and keeps it on disk before it reports it.  At the first
sample of a UTC day it also keeps what the counter was before, as the day's boundary.

So a later state of the meter is of a later counter, and its boundaries behind the earlier
state's day are too (`Later.follows`): that is what the control plane's ledger relies on.
-/
import Brocade.Traffic.Agree

namespace Brocade.Traffic

def MAX_TRAFFIC_DAY_BOUNDARIES : ℕ := 400

/-- What the kernel counts. -/
structure RawTraffic where
  (interface bootId : String)
  (rxBytes txBytes : ℕ)

/-- The meter's file. -/
structure TrafficMeterState where
  version : ℕ
  meterId : String
  sequence : ℕ
  (interface bootId : String)
  (rawRxBytes rawTxBytes totalRxBytes totalTxBytes discontinuities : ℕ)
  sampledAtUnixSecs : Option ℤ
  dayBoundaries : List TrafficDayBoundary

namespace TrafficMeterState

/-- A state, as it is reported. -/
def reading (state : TrafficMeterState) : NodeTrafficReading where
  meterId := state.meterId
  sequence := state.sequence
  interface := state.interface
  bootId := state.bootId
  rxBytes := state.totalRxBytes
  txBytes := state.totalTxBytes
  discontinuities := state.discontinuities
  sampledAtUnixSecs := state.sampledAtUnixSecs
  dayBoundaries := state.dayBoundaries

/-- A machine's first state: what it moved before is not known. -/
def first (meterId : String) (raw : RawTraffic) : TrafficMeterState where
  version := 1
  meterId := meterId
  sequence := 1
  interface := raw.interface
  bootId := raw.bootId
  rawRxBytes := raw.rxBytes
  rawTxBytes := raw.txBytes
  totalRxBytes := 0
  totalTxBytes := 0
  discontinuities := 0
  sampledAtUnixSecs := none
  dayBoundaries := []

/-- A `u64` sum, or the message of its overflow. -/
def checked (a b : ℕ) (message : String) : Except String ℕ :=
  (checkedAdd a b).elim (.error message) .ok

def discontinued (state : TrafficMeterState) : Except String ℕ :=
  checked state.discontinuities 1 "traffic discontinuity counter exhausted"

/-- The counters and the discontinuities after a sample: they grow by what the kernel's
counters did, or by all of them after a boot. -/
def grow (state : TrafficMeterState) (raw : RawTraffic) : Except String (ℕ × ℕ × ℕ) :=
  if state.bootId ≠ raw.bootId then do
    let rx ← checked state.totalRxBytes raw.rxBytes "traffic RX total overflow"
    let tx ← checked state.totalTxBytes raw.txBytes "traffic TX total overflow"
    let discontinuities ← state.discontinued
    return (rx, tx, discontinuities)
  else if state.interface ≠ raw.interface then do
    let discontinuities ← state.discontinued
    return (state.totalRxBytes, state.totalTxBytes, discontinuities)
  else do
    let fell := decide (raw.rxBytes < state.rawRxBytes) || decide (raw.txBytes < state.rawTxBytes)
    let discontinuities ← bif fell then state.discontinued else .ok state.discontinuities
    -- a direction that was reset adds nothing
    let rx ← checked state.totalRxBytes (raw.rxBytes - state.rawRxBytes) "traffic RX total overflow"
    let tx ← checked state.totalTxBytes (raw.txBytes - state.rawTxBytes) "traffic TX total overflow"
    return (rx, tx, discontinuities)

/-- The counters of the kernel are taken. -/
def advance (state : TrafficMeterState) (raw : RawTraffic) : Except String TrafficMeterState := do
  let sequence ← checked state.sequence 1 "traffic meter sequence exhausted"
  let grown ← grow state raw
  return { state with
    sequence := sequence
    interface := raw.interface
    bootId := raw.bootId
    rawRxBytes := raw.rxBytes
    rawTxBytes := raw.txBytes
    totalRxBytes := grown.1
    totalTxBytes := grown.2.1
    discontinuities := grown.2.2 }

/-- The latest boundaries, as many as are kept. -/
def latestBoundaries (boundaries : List TrafficDayBoundary) : List TrafficDayBoundary :=
  boundaries.drop (boundaries.length - MAX_TRAFFIC_DAY_BOUNDARIES)

/-- The first sample of a day keeps what the counter was before it. -/
def recordDayBoundary (state : TrafficMeterState) (now : ℤ) (previous : Option Bytes) :
    TrafficMeterState :=
  let day := dayOf now
  if state.dayBoundaries.getLast?.all fun boundary => decide (boundary.dayStartUnixSecs < day) then
    let bytes := previous.getD (state.totalRxBytes, state.totalTxBytes)
    { state with
      dayBoundaries := latestBoundaries (state.dayBoundaries ++ [⟨day, bytes.1, bytes.2⟩])
      sampledAtUnixSecs := some now }
  else { state with sampledAtUnixSecs := some now }

/-- The agent refuses any blank in an interface's name. -/
def validInterface (value : String) : Bool :=
  value ≠ "" && value.utf8ByteSize ≤ 64 && !Text.contains value "/" && value ≠ "." && value ≠ ".."
    && !value.toList.any fun c =>
      c.toNat = 0 || c == ' ' || c == '\t' || c == '\n' || c == '\r' || c.toNat = 12

/-- Whether a state can be used. -/
def validateState (state : TrafficMeterState) : Except String Unit :=
  match validateDayBoundaries state.dayBoundaries state.sampledAtUnixSecs
      (state.totalRxBytes, state.totalTxBytes) with
  | .error e => .error e
  | .ok _ =>
    if state.version ≠ 1 then
      .error s!"unsupported traffic meter state version {state.version}"
    else if !validMeterId state.meterId then .error "traffic meter id has an invalid shape"
    else if state.sequence = 0 then .error "traffic meter sequence must be positive"
    else if !validInterface state.interface || !validBootId state.bootId then
      .error "traffic meter identity has an invalid shape"
    else .ok ()

/-- Take one sample: from the state on disk to the state written there. -/
def sample (previous : Option TrafficMeterState) (meterId : String) (raw : RawTraffic) (now : ℤ) :
    Except String TrafficMeterState := do
  match previous with
  | some state =>
    validateState state
    let next ← advance state raw
    let next := next.recordDayBoundary now (some (state.totalRxBytes, state.totalTxBytes))
    validateState next
    return next
  | none =>
    let next := (first meterId raw).recordDayBoundary now none
    validateState next
    return next

end TrafficMeterState

/-- Only boundaries the control plane has not acknowledged travel with a report. -/
def trimAcknowledgedBoundaries (anchor : Option TrafficLimitAnchor)
    (reading : NodeTrafficReading) : NodeTrafficReading :=
  match anchor.filter fun anchor => anchor.meterId = reading.meterId with
  | none => reading
  | some anchor =>
    { reading with
      dayBoundaries := reading.dayBoundaries.filter fun boundary =>
        decide (dayOf anchor.sampledAtUnixSecs ≤ boundary.dayStartUnixSecs) }

/-! ### Later states -/

namespace TrafficMeterState

open Fallible

def bytes (state : TrafficMeterState) : Bytes := (state.totalRxBytes, state.totalTxBytes)

/-- States the meter went through, the later one by further samples. -/
inductive Later : TrafficMeterState → TrafficMeterState → Prop
  | refl (state : TrafficMeterState) : Later state state
  | step {state next last : TrafficMeterState} {meterId : String} {raw : RawTraffic} {now : ℤ}
      (h : Later state next) (hsample : sample (some next) meterId raw now = .ok last) :
      Later state last

theorem checked_ok {a b c : ℕ} {message : String} (h : checked a b message = .ok c) : c = a + b := by
  unfold checked checkedAdd at h
  split at h
  · exact (Except.ok.inj h).symm
  · exact absurd h nofun

variable {state : TrafficMeterState} {at' : ℤ}

theorem grow_ok {raw : RawTraffic} {grown : ℕ × ℕ × ℕ} (h : grow state raw = .ok grown) :
    state.totalRxBytes ≤ grown.1 ∧ state.totalTxBytes ≤ grown.2.1 := by
  unfold grow at h
  split at h
  · simp only [bind_eq_ok, pure_eq_ok] at h
    obtain ⟨rx, hrx, tx, htx, _, _, rfl⟩ := h
    rw [checked_ok hrx, checked_ok htx]
    exact ⟨Nat.le_add_right _ _, Nat.le_add_right _ _⟩
  split at h
  · simp only [bind_eq_ok, pure_eq_ok] at h
    obtain ⟨_, _, rfl⟩ := h
    exact ⟨le_refl _, le_refl _⟩
  · simp only [bind_eq_ok, pure_eq_ok] at h
    obtain ⟨_, _, rx, hrx, tx, htx, rfl⟩ := h
    rw [checked_ok hrx, checked_ok htx]
    exact ⟨Nat.le_add_right _ _, Nat.le_add_right _ _⟩

theorem advance_ok {next : TrafficMeterState} {raw : RawTraffic}
    (h : advance state raw = .ok next) :
    next.meterId = state.meterId ∧ next.sequence = state.sequence + 1
      ∧ state.bytes ≤ next.bytes ∧ next.dayBoundaries = state.dayBoundaries := by
  unfold advance at h
  simp only [bind_eq_ok, pure_eq_ok] at h
  obtain ⟨sequence, hsequence, grown, hgrown, rfl⟩ := h
  exact ⟨rfl, checked_ok hsequence, grow_ok hgrown, rfl⟩

theorem mem_of_mem_latestBoundaries {boundaries : List TrafficDayBoundary}
    {boundary : TrafficDayBoundary} (h : boundary ∈ latestBoundaries boundaries) :
    boundary ∈ boundaries :=
  List.mem_of_mem_drop h

theorem recordDayBoundary_spec (state : TrafficMeterState) (now : ℤ) (previous : Bytes) :
    (state.recordDayBoundary now (some previous)).reading.bytes = state.bytes
      ∧ (state.recordDayBoundary now (some previous)).meterId = state.meterId
      ∧ (state.recordDayBoundary now (some previous)).sequence = state.sequence
      ∧ ∀ boundary ∈ (state.recordDayBoundary now (some previous)).dayBoundaries,
        boundary ∈ state.dayBoundaries ∨ boundary.bytes = previous := by
  unfold recordDayBoundary
  simp only
  split
  · refine ⟨rfl, rfl, rfl, fun boundary hb => ?_⟩
    dsimp only at hb
    have hb := mem_of_mem_latestBoundaries hb
    rw [List.mem_append, List.mem_singleton] at hb
    rcases hb with hb | hb
    · exact .inl hb
    · exact .inr (by rw [hb]; rfl)
  · exact ⟨rfl, rfl, rfl, fun boundary hb => .inl hb⟩

/-- **A sample leaves every boundary it finds and adds one of the counter before it.** -/
theorem sample_ok {next : TrafficMeterState} {meterId : String} {raw : RawTraffic} {now : ℤ}
    (h : sample (some state) meterId raw now = .ok next) :
    next.meterId = state.meterId ∧ next.sequence = state.sequence + 1 ∧ state.bytes ≤ next.bytes
      ∧ ∀ boundary ∈ next.dayBoundaries,
        boundary ∈ state.dayBoundaries ∨ boundary.bytes = state.bytes := by
  unfold sample at h
  simp only [bind_eq_ok, pure_eq_ok] at h
  obtain ⟨_, _, advanced, hadvance, _, _, rfl⟩ := h
  obtain ⟨hmeter, hsequence, hbytes, hboundaries⟩ := advance_ok hadvance
  obtain ⟨hbytes', hmeter', hsequence', hboundaries'⟩ :=
    recordDayBoundary_spec advanced now (state.totalRxBytes, state.totalTxBytes)
  refine ⟨hmeter'.trans hmeter, hsequence'.trans hsequence, ?_, fun boundary hb => ?_⟩
  · have hsame : (advanced.recordDayBoundary now
        (some (state.totalRxBytes, state.totalTxBytes))).bytes = advanced.bytes := hbytes'
    rw [hsame]
    exact hbytes
  · rw [← hboundaries]
    exact hboundaries' boundary hb

theorem validateState_upTo {u : Unit} (h : validateState state = .ok u)
    (hat : state.sampledAtUnixSecs = some at') :
    ∀ boundary ∈ state.dayBoundaries, boundary.dayStartUnixSecs ≤ dayOf at' := by
  unfold validateState validateDayBoundaries at h
  have hok : dayBoundariesOk state.sampledAtUnixSecs (state.totalRxBytes, state.totalTxBytes) none
      state.dayBoundaries = true := by
    by_contra hnot
    rw [if_neg hnot] at h
    split at h
    · exact absurd h nofun
    · rename_i herror
      split at herror
      · exact absurd herror nofun
      · exact absurd herror nofun
  exact dayBoundariesOk_upTo (hat ▸ hok)

theorem Later.spec {last : TrafficMeterState} (h : Later state last)
    (hstate : ∀ boundary ∈ state.dayBoundaries, boundary.dayStartUnixSecs ≤ dayOf at') :
    last.meterId = state.meterId ∧ state.sequence ≤ last.sequence
      ∧ (last.sequence = state.sequence → last = state) ∧ state.bytes ≤ last.bytes
      ∧ ∀ boundary ∈ last.dayBoundaries, dayOf at' < boundary.dayStartUnixSecs →
        state.bytes ≤ boundary.bytes := by
  induction h with
  | refl =>
    refine ⟨rfl, le_refl _, fun _ => rfl, le_refl _, fun boundary hb hafter => ?_⟩
    exact absurd hafter (by have hupto := hstate boundary hb; omega)
  | step h hsample ih =>
    obtain ⟨hmeter, hsequence, -, hbytes, hboundaries⟩ := ih
    obtain ⟨hmeter', hsequence', hbytes', hboundaries'⟩ := sample_ok hsample
    refine ⟨hmeter'.trans hmeter, by omega, fun hsame => by omega, hbytes.trans hbytes',
      fun boundary hb hafter => ?_⟩
    rcases hboundaries' boundary hb with hb | hsame
    · exact hboundaries boundary hb hafter
    · rw [hsame]
      exact hbytes

/-- **A later state's reading follows the row of an earlier one's**, trimmed or not. -/
theorem Later.follows {last : TrafficMeterState} (h : Later state last) {u : Unit}
    (hvalid : validateState state = .ok u) (hat : state.sampledAtUnixSecs = some at')
    (previous : Option NodeTrafficState) (delta : Bytes) (anchor : Option TrafficLimitAnchor) :
    Follows (nextState previous state.reading at' delta)
      (trimAcknowledgedBoundaries anchor last.reading) := by
  obtain ⟨-, -, hsame, hbytes, hboundaries⟩ := h.spec (validateState_upTo hvalid hat)
  have htrim : (trimAcknowledgedBoundaries anchor last.reading).bytes = last.bytes
      ∧ (trimAcknowledgedBoundaries anchor last.reading).sequence = last.sequence
      ∧ ∀ boundary ∈ (trimAcknowledgedBoundaries anchor last.reading).dayBoundaries,
        boundary ∈ last.dayBoundaries := by
    unfold trimAcknowledgedBoundaries
    split
    · exact ⟨rfl, rfl, fun boundary hb => hb⟩
    · exact ⟨rfl, rfl, fun boundary hb => List.mem_of_mem_filter hb⟩
  refine ⟨htrim.1 ▸ hbytes, fun hsequence => ?_, fun boundary hb hafter => ?_⟩
  · rw [htrim.1, hsame (htrim.2.1.symm.trans hsequence)]
    rfl
  · exact hboundaries boundary (htrim.2.2 boundary hb) hafter

end TrafficMeterState

end Brocade.Traffic
