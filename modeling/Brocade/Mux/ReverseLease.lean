/-
How much of a probe interval the health lease covers.

A policy is refused where its lease is shorter than a probe interval, drawn out by the jitter, and
the timeout of the probe.  That least lease is worked out in 32 bits: the product stops at the
largest number, and the timeout is added to a hundredth of it whatever comes out.  So the least
lease is the right one exactly where the product fits.
-/
import Brocade.Mux.ReverseWindow

namespace Brocade.Mux

/-- An addition that does not fit ends the program where overflows are checked. -/
def checkedAdd (a b : UInt32) : Option UInt32 :=
  if a.toNat + b.toNat < 2 ^ 32 then some (a + b) else none

namespace ReverseHealth

/-- What is looked at before the lease. -/
def RefusedBefore (p : ReverseHealth) : Prop :=
  p.reconnectBackoffCapMs < p.tuning.reconnectBackoffBaseMs
    ∨ p.tuning.maxHealthyWorkers < p.maxIdleReadyWorkers
    ∨ p.maxIdleReadyWorkers < p.tuning.spareWorkers
    ∨ p.probeIntervalMs = 0 ∨ p.probeTimeoutMs = 0 ∨ p.probeIntervalMs ≤ p.probeTimeoutMs
    ∨ p.confirmTimeoutMs = 0

/-- What is looked at after the lease. -/
def RefusedAfter (p : ReverseHealth) : Prop :=
  p.minHealthyWorkers = 0 ∨ p.maxIdleReadyWorkers < p.minHealthyWorkers
    ∨ p.maxParallelDialsPerPair = 0 ∨ p.dialReadyTimeoutMs = 0 ∨ p.reconnectBackoffCapMs = 0

instance (p : ReverseHealth) : Decidable p.RefusedBefore := inferInstanceAs (Decidable (_ ∨ _))

instance (p : ReverseHealth) : Decidable p.RefusedAfter := inferInstanceAs (Decidable (_ ∨ _))

/-- The least lease, where no addition overflows. -/
def leastLease (p : ReverseHealth) : Option UInt32 := do
  let percent ← checkedAdd 100 p.tuning.probeJitterPercent
  checkedAdd (saturatingMul p.probeIntervalMs percent / 100) p.probeTimeoutMs

/-- `validate`, with the overflows that it meets on its way. -/
def validateChecked (p : ReverseHealth) : Option (Except String Unit) :=
  let refused := Except.error
    "reverse health 参数超出范围，或探活超时/健康租约/备用连接数量不一致"
  match p.tuning.validate with
  | .error message => some (.error message)
  | .ok () =>
    if p.RefusedBefore then some refused
    else p.leastLease.map fun least =>
      if p.healthLeaseMs < least ∨ p.RefusedAfter then refused else .ok ()

/-- One jittered probe interval and the timeout, without a bound. -/
def probeSpan (p : ReverseHealth) : ℕ :=
  p.probeIntervalMs.toNat * (100 + p.tuning.probeJitterPercent.toNat) / 100
    + p.probeTimeoutMs.toNat

/-- The product does not fit, and what is left of it makes the sum overflow or lets a short lease
pass. -/
def Misjudged (p : ReverseHealth) : Prop :=
  p.tuning.validate = .ok () ∧ ¬ p.RefusedBefore
    ∧ 2 ^ 32 ≤ p.probeIntervalMs.toNat * (100 + p.tuning.probeJitterPercent.toNat)
    ∧ (2 ^ 32 ≤ (2 ^ 32 - 1) / 100 + p.probeTimeoutMs.toNat
      ∨ ¬ p.RefusedAfter ∧ (2 ^ 32 - 1) / 100 + p.probeTimeoutMs.toNat ≤ p.healthLeaseMs.toNat
        ∧ p.healthLeaseMs.toNat < p.probeSpan)

end ReverseHealth

section Parts

variable {p : ReverseHealth}

theorem toNat_saturatingMul (a b : UInt32) :
    (saturatingMul a b).toNat = min (a.toNat * b.toNat) (2 ^ 32 - 1) := by
  unfold saturatingMul
  rw [UInt32.toNat_ofNat']
  apply Nat.mod_eq_of_lt
  omega

theorem jitter_le (h : p.tuning.validate = .ok ()) : p.tuning.probeJitterPercent.toNat ≤ 100 := by
  unfold ReverseHealthTuning.validate at h
  split at h
  · cases h
  · next hranges =>
      have hjitter : ¬ 100 < p.tuning.probeJitterPercent := fun hlarge => hranges (.inl hlarge)
      simpa [UInt32.lt_iff_toNat_lt] using hjitter

theorem percent_toNat (h : p.tuning.validate = .ok ()) :
    (100 + p.tuning.probeJitterPercent).toNat = 100 + p.tuning.probeJitterPercent.toNat := by
  have hjitter := jitter_le h
  rw [UInt32.toNat_add]
  apply Nat.mod_eq_of_lt
  show 100 + p.tuning.probeJitterPercent.toNat < 2 ^ 32
  omega

theorem stretched_toNat (h : p.tuning.validate = .ok ()) :
    (saturatingMul p.probeIntervalMs (100 + p.tuning.probeJitterPercent) / 100).toNat
      = min (p.probeIntervalMs.toNat * (100 + p.tuning.probeJitterPercent.toNat)) (2 ^ 32 - 1)
        / 100 := by
  rw [UInt32.toNat_div, toNat_saturatingMul, percent_toNat h]
  rfl

theorem leastLease_eq (h : p.tuning.validate = .ok ()) : p.leastLease = checkedAdd
      (saturatingMul p.probeIntervalMs (100 + p.tuning.probeJitterPercent) / 100)
      p.probeTimeoutMs := by
  have hjitter := jitter_le h
  have hpercent : checkedAdd 100 p.tuning.probeJitterPercent
      = some (100 + p.tuning.probeJitterPercent) := by
    unfold checkedAdd
    apply if_pos
    show 100 + p.tuning.probeJitterPercent.toNat < 2 ^ 32
    omega
  simp [ReverseHealth.leastLease, hpercent]

/-- A policy is accepted where no guard refuses it, and its lease is not below the wrapped sum. -/
theorem validate_ok_iff : p.validate = .ok () ↔
    p.tuning.validate = .ok () ∧ ¬ p.RefusedBefore ∧ ¬ p.RefusedAfter ∧ ¬ p.healthLeaseMs
        < saturatingMul p.probeIntervalMs (100 + p.tuning.probeJitterPercent) / 100
          + p.probeTimeoutMs := by
  unfold ReverseHealth.validate
  cases htuning : p.tuning.validate with
  | error message =>
    simp only [bind, Except.bind]
    simp
  | ok _ =>
    simp only [bind, Except.bind]
    constructor
    · intro hok
      split at hok
      · cases hok
      · next hguards =>
          simp only [not_or] at hguards
          simp only [ReverseHealth.RefusedBefore, ReverseHealth.RefusedAfter, not_or]
          simp [hguards]
    · intro hparts
      obtain ⟨-, hbefore, hafter, hlease⟩ := hparts
      simp only [ReverseHealth.RefusedBefore, ReverseHealth.RefusedAfter, not_or]
        at hbefore hafter
      rw [if_neg]
      simp only [not_or]
      simp [hbefore, hafter, hlease]

theorem validateChecked_eq_none_iff : p.validateChecked = none ↔
    p.tuning.validate = .ok () ∧ ¬ p.RefusedBefore ∧ p.leastLease = none := by
  unfold ReverseHealth.validateChecked
  dsimp only
  cases htuning : p.tuning.validate with
  | error message => simp
  | ok _ =>
    by_cases hbefore : p.RefusedBefore
    · simp [hbefore]
    · simp [hbefore]

end Parts

/-- **The least lease is the right one but for the policies that are misjudged.**  No overflow is
met and an accepted lease covers a jittered interval with its timeout, if and only if the policy is
not one whose product stops short and then overflows or lets the lease pass. -/
theorem lease_exact_iff (p : ReverseHealth) :
    (p.validateChecked ≠ none ∧ (p.validate = .ok () → p.probeSpan ≤ p.healthLeaseMs.toNat))
      ↔ ¬ p.Misjudged := by
  by_cases htuning : p.tuning.validate = .ok ()
  swap
  · have hchecked : p.validateChecked ≠ none := by
      simp [validateChecked_eq_none_iff, htuning]
    simp [hchecked, validate_ok_iff, ReverseHealth.Misjudged, htuning]
  by_cases hbefore : p.RefusedBefore
  · have hchecked : p.validateChecked ≠ none := by
      simp [validateChecked_eq_none_iff, hbefore]
    simp [hchecked, validate_ok_iff, ReverseHealth.Misjudged, hbefore]
  -- the guards before the lease leave a timeout below the interval
  have htimeout : p.probeTimeoutMs.toNat < p.probeIntervalMs.toNat := by
    unfold ReverseHealth.RefusedBefore at hbefore
    simp only [not_or] at hbefore
    simpa [UInt32.le_iff_toNat_le] using hbefore.2.2.2.2.2.1
  have hjitter := jitter_le htuning
  have hstretched := stretched_toNat htuning
  have hnone : p.validateChecked = none ↔
      2 ^ 32 ≤ (saturatingMul p.probeIntervalMs (100 + p.tuning.probeJitterPercent) / 100).toNat
        + p.probeTimeoutMs.toNat := by
    rw [validateChecked_eq_none_iff, leastLease_eq htuning]
    simp [htuning, hbefore, checkedAdd]
  have hok : p.validate = .ok () ↔ ¬ p.RefusedAfter
      ∧ ((saturatingMul p.probeIntervalMs (100 + p.tuning.probeJitterPercent) / 100).toNat
        + p.probeTimeoutMs.toNat) % 2 ^ 32 ≤ p.healthLeaseMs.toNat := by
    rw [validate_ok_iff]
    simp [htuning, hbefore, UInt32.le_iff_toNat_le]
  rw [hstretched] at hnone hok
  unfold ReverseHealth.Misjudged
  rw [Ne, hnone, hok]
  simp only [htuning, hbefore, not_false_eq_true, true_and]
  unfold ReverseHealth.probeSpan
  have hproduct : 100 * p.probeIntervalMs.toNat
      ≤ p.probeIntervalMs.toNat * (100 + p.tuning.probeJitterPercent.toNat) := by
    rw [Nat.mul_comm]
    exact Nat.mul_le_mul_left _ (Nat.le_add_right _ _)
  generalize p.probeIntervalMs.toNat * (100 + p.tuning.probeJitterPercent.toNat) = product
    at hproduct
  by_cases hfits : product < 2 ^ 32
  · -- the interval is then far below the largest number, and with it the timeout
    have hmin : min product (2 ^ 32 - 1) = product := by omega
    have hsum : product / 100 + p.probeTimeoutMs.toNat < 2 ^ 32 := by omega
    rw [hmin, Nat.mod_eq_of_lt hsum]
    have hnever : ¬ 2 ^ 32 ≤ product := by omega
    simp only [hnever, false_and, not_false_eq_true, iff_true]
    exact ⟨by omega, fun hlease => hlease.2⟩
  · have hmin : min product (2 ^ 32 - 1) = 2 ^ 32 - 1 := by omega
    have hstops : 2 ^ 32 ≤ product := by omega
    rw [hmin]
    simp only [hstops, true_and]
    by_cases hover : 2 ^ 32 ≤ (2 ^ 32 - 1) / 100 + p.probeTimeoutMs.toNat
    · simp only [hover, not_true_eq_false, false_and, true_or]
    · have hsum : ((2 ^ 32 - 1) / 100 + p.probeTimeoutMs.toNat) % 2 ^ 32
          = (2 ^ 32 - 1) / 100 + p.probeTimeoutMs.toNat := by omega
      rw [hsum]
      simp only [hover, not_false_eq_true, true_and, false_or]
      constructor
      · intro hcovers hpasses
        have hcovered := hcovers ⟨hpasses.1, hpasses.2.1⟩
        omega
      · intro hnot hpasses
        by_contra hshort
        exact hnot ⟨hpasses.1, hpasses.2, by omega⟩

/-- The default policy with other intervals. -/
def probedEvery (interval timeout lease : UInt32) : ReverseHealth where
  disconnectOnHealthFailure := false
  probeIntervalMs := interval
  probeTimeoutMs := timeout
  confirmTimeoutMs := 750
  healthLeaseMs := lease
  minHealthyWorkers := 2
  maxIdleReadyWorkers := 2
  maxParallelDialsPerPair := 2
  dialReadyTimeoutMs := 2000
  reconnectBackoffCapMs := 2000
  tuning := ⟨10, 2, 1, 32, 16, 250⟩

/-- A lease of half a day passes for a probe a day; and a timeout of nearly the largest interval
overflows. -/
theorem short_lease_passes : ((probedEvery 86400000 750 43200000).validate = .ok ()
        ∧ ¬ (probedEvery 86400000 750 43200000).probeSpan
          ≤ (probedEvery 86400000 750 43200000).healthLeaseMs.toNat)
      ∧ (probedEvery 4294967295 4294967294 4294967295).validateChecked = none := by
  refine ⟨⟨rfl, ?_⟩, ?_⟩
  · decide
  · rfl

end Brocade.Mux
