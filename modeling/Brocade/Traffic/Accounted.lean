/-
What the agent's meter says over a run of samples.

Whatever becomes of the writes, the counters on disk are what the kernel's counters grew between
one durable state and the next (`meter_accounts`): a state that was lost leaves its raw counters
behind too.  A call that nothing stops does write.
-/
import Brocade.Traffic.Clock

namespace Brocade.Traffic

namespace TrafficMeterState

open Fallible

/-- Nothing stops a call at this time: its counters and names pass, and what is on disk passes,
lies before the clock and has room for what the call adds. -/
structure Sampled (disk : Option TrafficMeterState) (call : SampleCall) (now : ℤ) : Prop where
  clock : call.clock = .ok now
  /-- the first day has no boundary -/
  later : 86400 ≤ now
  interface : validInterface call.raw.interface = true
  bootId : validBootId call.raw.bootId = true
  fresh : disk = none → ∃ meterId, call.fresh = .ok meterId ∧ validMeterId meterId = true
  valid : ∀ state, disk = some state → validateState state = .ok ()
  ahead : ∀ state, disk = some state → NotAhead state now
  /-- the totals are 64-bit numbers -/
  total : metered disk ≤ (U64_MAX, U64_MAX)
  fits : ∀ state, disk = some state → ¬ Overflows state call.raw

theorem metered_some (state : TrafficMeterState) : metered (some state) = state.bytes := rfl

/-- What a write leaves on disk, and what the caller is told. -/
def written (disk : Option TrafficMeterState) (next : TrafficMeterState) :
    WriteOutcome → Option TrafficMeterState × Except String NodeTrafficReading
  | .committed => (some next, .ok next.reading)
  | .failed error => (disk, .error error)
  | .uncertain error => (some next, .error error)

theorem sampleWithWriter_of_prepare {disk : Option TrafficMeterState} {call : SampleCall}
    {next : TrafficMeterState} (h : prepare disk call = .ok next) :
    sampleWithWriter disk call = written disk next call.write := by
  unfold sampleWithWriter
  rw [h]
  cases call.write with
  | committed => rfl
  | failed error => rfl
  | uncertain error => rfl

theorem totalsFit_of_not_overflows {state : TrafficMeterState} {raw : RawTraffic}
    (htotal : state.bytes ≤ (U64_MAX, U64_MAX)) (hfits : ¬ Overflows state raw) :
    TotalsFit state raw ∧ state.sequence < U64_MAX
      ∧ (broke state raw = true → state.discontinuities < U64_MAX) := by
  simp only [Overflows, not_or, not_and, not_le, not_lt] at hfits
  obtain ⟨hsequence, hbroke, hrx, htx⟩ := hfits
  refine ⟨⟨?_, ?_⟩, hsequence, hbroke⟩
  · rcases Nat.eq_zero_or_pos (gained state raw).1 with hzero | hpos
    · rw [hzero]
      exact htotal.1
    · exact hrx hpos
  · rcases Nat.eq_zero_or_pos (gained state raw).2 with hzero | hpos
    · rw [hzero]
      exact htotal.2
    · exact htx hpos

theorem first_taken {meterId : String} {raw : RawTraffic} {now : ℤ}
    (hmeter : validMeterId meterId = true) (hinterface : validInterface raw.interface = true)
    (hboot : validBootId raw.bootId = true) (hnow : 86400 ≤ now) :
    ∃ next, sample none meterId raw now = .ok next := by
  have hfirst : (first meterId raw).recordDayBoundary now none = { first meterId raw with
      dayBoundaries := [⟨dayOf now, 0, 0⟩]
      sampledAtUnixSecs := some now } := by
    simp [recordDayBoundary, first, latestBoundaries, MAX_TRAFFIC_DAY_BOUNDARIES]
  have hboundaries : validateDayBoundaries [⟨dayOf now, 0, 0⟩] (some now) (0, 0) = .ok () := by
    refine validateDayBoundaries_iff.mpr ⟨by simp [MAX_TRAFFIC_DAY_BOUNDARIES], ?_,
      List.pairwise_singleton _ _⟩
    intro boundary hboundary
    rw [List.mem_singleton.mp hboundary]
    refine ⟨?_, ?_, ⟨now, rfl, dayOf_le now⟩, le_refl 0, le_refl 0⟩
    · show 0 < dayOf now
      unfold dayOf
      omega
    · show dayOf now % 86400 = 0
      unfold dayOf
      omega
  have hvalid : validateState ((first meterId raw).recordDayBoundary now none) = .ok () := by
    rw [hfirst]
    exact validateState_iff.mpr ⟨hboundaries, rfl, hmeter, Nat.one_ne_zero, hinterface, hboot⟩
  refine ⟨(first meterId raw).recordDayBoundary now none, ?_⟩
  show (validateState ((first meterId raw).recordDayBoundary now none) >>= fun _ =>
    pure ((first meterId raw).recordDayBoundary now none)) = _
  rw [hvalid]
  rfl

/-- **A call that nothing stops writes the counters it read.** -/
theorem taken_of_sampled {disk : Option TrafficMeterState} {call : SampleCall} {now : ℤ}
    (h : Sampled disk call now) :
    ∃ next, next.raw = call.raw ∧ sampleWithWriter disk call = written disk next call.write := by
  obtain ⟨next, hnext⟩ : ∃ next, prepare disk call = .ok next := by
    cases hdisk : disk with
    | none =>
      obtain ⟨meterId, hfresh, hmeter⟩ := h.fresh hdisk
      obtain ⟨next, hsample⟩ := first_taken hmeter h.interface h.bootId h.later
      refine ⟨next, ?_⟩
      simp only [prepare, bind_eq_ok]
      exact ⟨now, h.clock, meterId, hfresh, hsample⟩
    | some state =>
      have htotal := h.total
      rw [hdisk, metered_some] at htotal
      obtain ⟨hfit, hroom, hbroke⟩ := totalsFit_of_not_overflows htotal (h.fits state hdisk)
      obtain ⟨next, hsample, -⟩ := sample_taken (h.valid state hdisk) h.interface h.bootId hfit
        hroom hbroke h.later (h.ahead state hdisk)
      refine ⟨next, ?_⟩
      simp only [prepare, bind_eq_ok]
      exact ⟨(), h.valid state hdisk, now, h.clock, hsample⟩
  exact ⟨next, (prepare_spec hnext).1, sampleWithWriter_of_prepare hnext⟩

/-! ### One call -/

/-- What one call keeps of the account. -/
structure Accounted (disk : Option TrafficMeterState) (call : SampleCall) : Prop where
  /-- what is on disk afterwards is what was there, or of the counters that were read -/
  stored : (sampleWithWriter disk call).1 = disk
    ∨ ∃ next, (sampleWithWriter disk call).1 = some next ∧ next.raw = call.raw
  /-- a call that nothing stops writes, and says so where the write is committed -/
  taken : ∀ now, Sampled disk call now → ∃ next, next.raw = call.raw
    ∧ sampleWithWriter disk call = written disk next call.write
  gained : metered (sampleWithWriter disk call).1
    = metered disk + gainedOn disk (sampleWithWriter disk call).1
  discontinuities : discontinuitiesOf (sampleWithWriter disk call).1
    = discontinuitiesOf disk + if brokeOn disk (sampleWithWriter disk call).1 then 1 else 0
  sequence : sequenceOf disk ≤ sequenceOf (sampleWithWriter disk call).1
  reading : ∀ reading, (sampleWithWriter disk call).2 = .ok reading →
    ∃ state, (sampleWithWriter disk call).1 = some state ∧ state.reading = reading
  overflow : ∀ state, disk = some state → Overflows state call.raw →
    (∃ error, (sampleWithWriter disk call).2 = .error error) ∧ (sampleWithWriter disk call).1 = disk

theorem accounted (disk : Option TrafficMeterState) (call : SampleCall) : Accounted disk call := by
  have hkept : ∀ error : String, sampleWithWriter disk call = (disk, .error error) →
      Accounted disk call := by
    intro error heq
    constructor
    · simp [heq]
    · exact fun now hsampled => taken_of_sampled hsampled
    · simp [heq]
    · simp [heq]
    · simp [heq]
    · intro reading hreading
      rw [heq] at hreading
      cases hreading
    · intro state _ _
      rw [heq]
      exact ⟨⟨error, rfl⟩, rfl⟩
  cases hnext : prepare disk call with
  | error error =>
    refine hkept error ?_
    rw [sampleWithWriter, hnext]
  | ok next =>
    obtain ⟨hraw, hbytes, hdisc, hsequence, hfits⟩ := prepare_spec hnext
    have hwritten : ∀ answer, sampleWithWriter disk call = (some next, answer) →
        (∀ reading, answer = .ok reading → next.reading = reading) → Accounted disk call := by
      intro answer heq hanswer
      constructor
      · rw [heq]
        exact .inr ⟨next, rfl, hraw⟩
      · exact fun now hsampled => taken_of_sampled hsampled
      · rw [heq]
        exact hbytes
      · rw [heq]
        exact hdisc
      · rw [heq]
        exact hsequence
      · intro reading hreading
        rw [heq] at hreading ⊢
        exact ⟨next, rfl, hanswer reading hreading⟩
      · intro state hstate hoverflow
        exact absurd hoverflow (hfits state hstate)
    have hcall := sampleWithWriter_of_prepare hnext
    cases hwrite : call.write with
    | committed =>
      rw [hwrite] at hcall
      exact hwritten (.ok next.reading) hcall fun reading hreading => Except.ok.inj hreading
    | failed error =>
      rw [hwrite] at hcall
      exact hkept error hcall
    | uncertain error =>
      rw [hwrite] at hcall
      exact hwritten (.error error) hcall fun reading hreading => by cases hreading

/-! ### A run of samples -/

/-- **Whatever becomes of the writes, the counters on disk are what the kernel's grew by.** -/
theorem meter_accounts (disk : Option TrafficMeterState) (calls : List SampleCall) :
    metered (afterCalls disk calls) = metered disk + gainedOver disk calls
      ∧ discontinuitiesOf (afterCalls disk calls) = discontinuitiesOf disk + brokenOver disk calls
      ∧ ∀ before call rest, calls = before ++ call :: rest → Accounted (afterCalls disk before) call
        ∧ metered (afterCalls disk before)
          ≤ metered (sampleWithWriter (afterCalls disk before) call).1 := by
  refine ⟨?_, ?_, ?_⟩
  · induction calls generalizing disk with
    | nil => exact (add_zero _).symm
    | cons call calls ih =>
      show metered (afterCalls (sampleWithWriter disk call).1 calls) = _
      rw [ih, (accounted disk call).gained, add_assoc]
      rfl
  · induction calls generalizing disk with
    | nil => rfl
    | cons call calls ih =>
      show discontinuitiesOf (afterCalls (sampleWithWriter disk call).1 calls) = _
      rw [ih, (accounted disk call).discontinuities, add_assoc]
      rfl
  · intro before call rest _
    have hcall := accounted (afterCalls disk before) call
    refine ⟨hcall, ?_⟩
    rw [hcall.gained]
    exact ⟨Nat.le_add_right _ _, Nat.le_add_right _ _⟩

end TrafficMeterState

end Brocade.Traffic
