/-
Shares of a whole, each rounded to the nearest unit.

Rounded one by one, the shares of a whole need not add up to it: every share that is rounded up
gains what its remainder lacks.  `sum_share_le_iff` says when they stay within the whole, in
terms of the remainders alone.
-/
import Mathlib.Algebra.BigOperators.Group.List.Basic
import Mathlib.Tactic.Ring

namespace Shares

/-- The share of `n` parts of `d` in a whole, rounded to the nearest unit, halves up. -/
def share (whole d n : ℕ) : ℕ := (whole * n + d / 2) / d

/-- What the division leaves over is half a unit or more. -/
def roundsUp (whole d n : ℕ) : Bool := decide (d ≤ whole * n % d + d / 2)

def remainders (whole d : ℕ) (ns : List ℕ) : List ℕ := ns.map fun n => whole * n % d

/-- What rounding up adds is covered by the remainders, and by the parts nobody has. -/
def Covered (whole d : ℕ) (ns : List ℕ) : Prop :=
  whole * ns.sum + d * ns.countP (roundsUp whole d) ≤ (remainders whole d ns).sum + d * whole

instance (whole d : ℕ) (ns : List ℕ) : Decidable (Covered whole d ns) :=
  inferInstanceAs (Decidable (_ ≤ _))

@[simp] theorem share_zero_right (whole n : ℕ) : share whole 0 n = 0 := Nat.div_zero _

theorem share_le {whole d n : ℕ} (h : n ≤ d) : share whole d n ≤ whole := by
  rcases Nat.eq_zero_or_pos d with rfl | hd
  · rw [share_zero_right]
    exact Nat.zero_le _
  · refine Nat.le_of_lt_succ ((Nat.div_lt_iff_lt_mul hd).mpr ?_)
    have hparts : whole * n ≤ whole * d := Nat.mul_le_mul_left _ h
    have hhalf : d / 2 < d := Nat.div_lt_self hd (by decide)
    calc whole * n + d / 2 < whole * d + d := Nat.add_lt_add_of_le_of_lt hparts hhalf
      _ = (whole + 1) * d := by ring

/-- A share is the exact one less its remainder, and one more if that is half a unit. -/
theorem mul_share (whole : ℕ) {d : ℕ} (hd : 0 < d) (n : ℕ) : d * share whole d n + whole * n % d
      = whole * n + if roundsUp whole d n = true then d else 0 := by
  have hdivide : d * (whole * n / d) + whole * n % d = whole * n := Nat.div_add_mod _ _
  have hrest : whole * n % d < d := Nat.mod_lt _ hd
  have hshare : share whole d n = whole * n / d + if roundsUp whole d n = true then 1 else 0 := by
    unfold share roundsUp
    conv_lhs => rw [← hdivide, Nat.add_assoc, Nat.mul_add_div hd]
    congr 1
    by_cases hup : d ≤ whole * n % d + d / 2
    · rw [if_pos (decide_eq_true hup)]
      refine Nat.div_eq_of_lt_le (by omega) (by omega)
    · rw [if_neg (by simpa using hup)]
      exact Nat.div_eq_of_lt (not_le.mp hup)
  rw [hshare]
  by_cases hup : roundsUp whole d n = true
  · rw [if_pos hup, if_pos hup, Nat.mul_add, Nat.mul_one]
    omega
  · rw [if_neg hup, if_neg hup]
    exact hdivide

theorem mul_sum_share {whole d : ℕ} (hd : 0 < d) (ns : List ℕ) :
    d * (ns.map (share whole d)).sum + (remainders whole d ns).sum
      = whole * ns.sum + d * ns.countP (roundsUp whole d) := by
  induction ns with
  | nil => rfl
  | cons n ns ih =>
    have hone := mul_share whole hd n
    unfold remainders at ih ⊢
    rw [List.map_cons, List.map_cons, List.sum_cons, List.sum_cons, List.sum_cons,
      List.countP_cons, Nat.mul_add, Nat.mul_add, Nat.mul_add]
    by_cases hup : roundsUp whole d n = true
    · rw [if_pos hup] at hone ⊢
      omega
    · rw [if_neg hup] at hone ⊢
      omega

theorem shares_of_none (whole : ℕ) (ns : List ℕ) :
    (ns.map (share whole 0)).sum = 0 ∧ (remainders whole 0 ns).sum = whole * ns.sum := by
  induction ns with
  | nil => exact ⟨rfl, rfl⟩
  | cons n ns ih =>
    refine ⟨?_, ?_⟩
    · rw [List.map_cons, List.sum_cons, share_zero_right, ih.1]
    · unfold remainders at ih ⊢
      rw [List.map_cons, List.sum_cons, List.sum_cons, Nat.mul_add, Nat.mod_zero, ih.2]

/-- **The shares stay within the whole exactly if what rounding up adds is covered.** -/
theorem sum_share_le_iff (whole d : ℕ) (ns : List ℕ) :
    (ns.map (share whole d)).sum ≤ whole ↔ Covered whole d ns := by
  unfold Covered
  rcases Nat.eq_zero_or_pos d with rfl | hd
  · obtain ⟨hnone, hall⟩ := shares_of_none whole ns
    rw [hnone, hall, Nat.zero_mul, Nat.zero_mul]
    exact ⟨fun _ => le_refl _, fun _ => Nat.zero_le _⟩
  · rw [← mul_sum_share hd, Nat.add_comm _ (d * whole), Nat.add_le_add_iff_right]
    exact (Nat.mul_le_mul_left_iff hd).symm

end Shares
