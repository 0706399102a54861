/-
A shared pacing clock, and spending what it gave.

Amounts are taken one after another, and whoever takes an amount makes the next one wait as
long as the amount costs.  However the takings fall, what is taken in an interval is bounded by
its length and one taking (`within_le`).  What was taken may be spent later and in pieces, by
anyone; as long as every piece is charged to a taking not older than a time to live, the interval
only grows by that time (`Charged.within_le`).
-/
import Mathlib.Algebra.Order.BigOperators.Group.List
import Mathlib.Algebra.Order.Field.Basic
import Mathlib.Data.List.Chain
import Mathlib.Tactic.Linarith

namespace Pacing

/-- An amount that moved under a key. -/
structure Move (κ K : Type) where
  key : κ
  at' : K
  amount : ℕ
deriving DecidableEq

variable {κ K : Type}

section Clock

variable [LinearOrder K]

/-- What moved in an interval, its ends included. -/
def within (a b : K) (moves : List (Move κ K)) : ℕ :=
  ((moves.filter fun m => a ≤ m.at' ∧ m.at' ≤ b).map Move.amount).sum

@[simp] theorem within_nil (a b : K) : within a b ([] : List (Move κ K)) = 0 := rfl

theorem within_cons (a b : K) (m : Move κ K) (moves : List (Move κ K)) : within a b (m :: moves)
      = (if a ≤ m.at' ∧ m.at' ≤ b then m.amount else 0) + within a b moves := by
  unfold within
  by_cases h : a ≤ m.at' ∧ m.at' ≤ b
  · rw [List.filter_cons_of_pos (by simpa using h), if_pos h]
    rfl
  · rw [List.filter_cons_of_neg (by simpa using h), if_neg h, Nat.zero_add]

/-! ### What the clock gives -/

variable [Field K] [IsStrictOrderedRing K] {price : K} {most : ℕ}

/-- Newest first: each taking waited as long as the one before it cost. -/
def Paced (price : K) (moves : List (Move κ K)) : Prop :=
  moves.IsChain fun newer older => older.at' + price * older.amount ≤ newer.at'

theorem Paced.before (hprice : 0 ≤ price) {x : Move κ K} {moves : List (Move κ K)}
    (h : Paced price (x :: moves)) {a b : K} : price * within a b moves ≤ max 0 (x.at' - a) := by
  induction moves generalizing x with
  | nil => simp
  | cons y moves ih =>
    obtain ⟨hwait, hrest⟩ := List.isChain_cons_cons.mp h
    have hbefore := ih hrest
    have hcost : 0 ≤ price * (y.amount : K) := mul_nonneg hprice (Nat.cast_nonneg _)
    rw [within_cons, Nat.cast_add, mul_add]
    by_cases hy : a ≤ y.at'
    · have htaken : price * ((if a ≤ y.at' ∧ y.at' ≤ b then y.amount else 0 : ℕ) : K)
          ≤ price * y.amount := by
        split
        · exact le_refl _
        · simpa using hcost
      rw [max_eq_right (by linarith)] at hbefore
      refine le_max_of_le_right ?_
      linarith
    · rw [if_neg fun hin => hy hin.1]
      rw [max_eq_left (by linarith [not_le.mp hy])] at hbefore
      refine le_max_of_le_left ?_
      simpa using hbefore

/-- **What the clock gives in an interval** costs at most its length and one taking. -/
theorem Paced.within_le (hprice : 0 ≤ price) {moves : List (Move κ K)} (h : Paced price moves)
    (hmost : ∀ m ∈ moves, m.amount ≤ most) {a b : K} (hab : a ≤ b) :
    price * within a b moves ≤ (b - a) + price * most := by
  induction moves with
  | nil =>
    have : 0 ≤ price * (most : K) := mul_nonneg hprice (Nat.cast_nonneg _)
    simp only [within_nil, Nat.cast_zero, mul_zero]
    linarith
  | cons x moves ih =>
    have hbefore := h.before hprice (a := a) (b := b)
    have hx : price * (x.amount : K) ≤ price * most :=
      mul_le_mul_of_nonneg_left (Nat.cast_le.mpr (hmost x List.mem_cons_self)) hprice
    have hzero : 0 ≤ price * (x.amount : K) := mul_nonneg hprice (Nat.cast_nonneg _)
    rw [within_cons]
    by_cases hin : a ≤ x.at' ∧ x.at' ≤ b
    · rw [max_eq_right (by linarith [hin.1])] at hbefore
      rw [if_pos hin, Nat.cast_add, mul_add]
      linarith [hin.2]
    · rw [if_neg hin, Nat.zero_add]
      exact ih (List.IsChain.tail h) fun m hm => hmost m (List.mem_cons_of_mem _ hm)

end Clock

/-! ### Spending what was taken -/

section Charge

variable [DecidableEq κ]

/-- What was spent under a key. -/
def spent (key : κ) (spends : List (Move κ K)) : ℕ :=
  ((spends.filter fun s => s.key = key).map Move.amount).sum

@[simp] theorem spent_nil (key : κ) : spent key ([] : List (Move κ K)) = 0 := rfl

theorem spent_cons (key : κ) (s : Move κ K) (spends : List (Move κ K)) :
    spent key (s :: spends) = (if s.key = key then s.amount else 0) + spent key spends := by
  unfold spent
  by_cases h : s.key = key
  · rw [List.filter_cons_of_pos (by simpa using h), if_pos h]
    rfl
  · rw [List.filter_cons_of_neg (by simpa using h), if_neg h, Nat.zero_add]

theorem spent_eq_zero {key : κ} {spends : List (Move κ K)} (h : ∀ s ∈ spends, s.key ≠ key) :
    spent key spends = 0 := by
  rw [spent, List.filter_eq_nil_iff.mpr fun s hs => by simpa using h s hs]
  rfl

theorem spent_filter_le (key : κ) (p : Move κ K → Bool) (spends : List (Move κ K)) :
    spent key (spends.filter p) ≤ spent key spends := by
  unfold spent
  exact (((List.filter_sublist.filter _).map _).sum_le_sum fun _ _ => Nat.zero_le _)

theorem sum_eq_spent_add (key : κ) (spends : List (Move κ K)) : (spends.map Move.amount).sum
      = spent key spends + ((spends.filter fun s => s.key ≠ key).map Move.amount).sum := by
  induction spends with
  | nil => rfl
  | cons s spends ih =>
    rw [List.map_cons, List.sum_cons, ih, spent_cons]
    by_cases h : s.key = key
    · rw [if_pos h, List.filter_cons_of_neg (by simpa using h)]
      omega
    · rw [if_neg h, List.filter_cons_of_pos (by simpa using h), List.map_cons, List.sum_cons]
      omega

/-- Where every key that was spent under has a taking as large, no more was spent than taken. -/
theorem sum_le_of_covered {spends takings : List (Move κ K)}
    (h : ∀ s ∈ spends, ∃ t ∈ takings, t.key = s.key ∧ spent s.key spends ≤ t.amount) :
    (spends.map Move.amount).sum ≤ (takings.map Move.amount).sum := by
  induction takings generalizing spends with
  | nil =>
    cases spends with
    | nil => rfl
    | cons s spends =>
      obtain ⟨t, ht, -⟩ := h s List.mem_cons_self
      exact absurd ht List.not_mem_nil
  | cons t takings ih =>
    rw [List.map_cons, List.sum_cons]
    by_cases hcovers : spent t.key spends ≤ t.amount
    · have hrest : ∀ s ∈ spends.filter (fun s => s.key ≠ t.key), ∃ u ∈ takings, u.key = s.key ∧
          spent s.key (spends.filter fun s => s.key ≠ t.key) ≤ u.amount := by
        intro s hs
        obtain ⟨hs, hne⟩ := List.mem_filter.mp hs
        obtain ⟨u, hu, hkey, hle⟩ := h s hs
        rcases List.mem_cons.mp hu with rfl | hu
        · exact absurd hkey.symm (by simpa using hne)
        · exact ⟨u, hu, hkey, (spent_filter_le _ _ _).trans hle⟩
      rw [sum_eq_spent_add t.key spends]
      exact Nat.add_le_add hcovers (ih hrest)
    · -- no spending leans on this taking
      have hrest : ∀ s ∈ spends, ∃ u ∈ takings, u.key = s.key ∧ spent s.key spends ≤ u.amount := by
        intro s hs
        obtain ⟨u, hu, hkey, hle⟩ := h s hs
        rcases List.mem_cons.mp hu with rfl | hu
        · exact absurd (hkey ▸ hle) hcovers
        · exact ⟨u, hu, hkey, hle⟩
      exact (ih hrest).trans (Nat.le_add_left _ _)

variable [LinearOrder K] [Field K] {ttl : K}

/-- The spendings under a key are charged to one taking: they follow it, within its time to
live, and with `left` still unspent they do not exceed it. -/
structure ChargedTo (ttl : K) (spends : List (Move κ K)) (t : Move κ K) (left : ℕ) : Prop where
  enough : left + spent t.key spends ≤ t.amount
  since : ∀ s ∈ spends, s.key = t.key → t.at' ≤ s.at'
  until' : ∀ s ∈ spends, s.key = t.key → s.at' ≤ t.at' + ttl

/-- Every spending is charged to a taking. -/
def Charged (ttl : K) (takings spends : List (Move κ K)) : Prop :=
  ∀ s ∈ spends, ∃ t ∈ takings, t.key = s.key ∧ ChargedTo ttl spends t 0

/-- **What is spent in an interval** was taken in it, or less than a time to live before. -/
theorem Charged.within_le [IsStrictOrderedRing K] {takings spends : List (Move κ K)} (h : Charged ttl takings spends)
    (a b : K) : within a b spends ≤ within (a - ttl) b takings := by
  refine sum_le_of_covered fun s hs => ?_
  obtain ⟨hs, hin⟩ := List.mem_filter.mp hs
  have hin : a ≤ s.at' ∧ s.at' ≤ b := by simpa using hin
  obtain ⟨t, ht, hkey, hcharged⟩ := h s hs
  have hsince := hcharged.since s hs hkey.symm
  have huntil := hcharged.until' s hs hkey.symm
  refine ⟨t, List.mem_filter.mpr ⟨ht, ?_⟩, hkey, ?_⟩
  · have : a - ttl ≤ t.at' ∧ t.at' ≤ b := ⟨by linarith [hin.1], by linarith [hin.2]⟩
    simpa using this
  · rw [← hkey]
    exact (spent_filter_le _ _ _).trans ((Nat.le_add_left _ _).trans hcharged.enough)

theorem ChargedTo.other {spends : List (Move κ K)} {t s : Move κ K} {left : ℕ}
    (h : ChargedTo ttl spends t left) (hkey : s.key ≠ t.key) :
    ChargedTo ttl (s :: spends) t left where
  enough := by
    rw [spent_cons, if_neg hkey, Nat.zero_add]
    exact h.enough
  since s' hs' hkey' := by
    rcases List.mem_cons.mp hs' with rfl | hs'
    · exact absurd hkey' hkey
    · exact h.since s' hs' hkey'
  until' s' hs' hkey' := by
    rcases List.mem_cons.mp hs' with rfl | hs'
    · exact absurd hkey' hkey
    · exact h.until' s' hs' hkey'

theorem ChargedTo.spend {spends : List (Move κ K)} {t s : Move κ K} {left : ℕ}
    (h : ChargedTo ttl spends t left) (hkey : s.key = t.key) (hamount : s.amount ≤ left)
    (hsince : t.at' ≤ s.at') (huntil : s.at' ≤ t.at' + ttl) :
    ChargedTo ttl (s :: spends) t (left - s.amount) where
  enough := by
    have := h.enough
    rw [spent_cons, if_pos hkey]
    omega
  since s' hs' hkey' := by
    rcases List.mem_cons.mp hs' with rfl | hs'
    · exact hsince
    · exact h.since s' hs' hkey'
  until' s' hs' hkey' := by
    rcases List.mem_cons.mp hs' with rfl | hs'
    · exact huntil
    · exact h.until' s' hs' hkey'

theorem ChargedTo.zero {spends : List (Move κ K)} {t : Move κ K} {left : ℕ}
    (h : ChargedTo ttl spends t left) : ChargedTo ttl spends t 0 :=
  ⟨by have := h.enough; omega, h.since, h.until'⟩

theorem ChargedTo.fresh {spends : List (Move κ K)} {t : Move κ K}
    (h : ∀ s ∈ spends, s.key ≠ t.key) : ChargedTo ttl spends t t.amount where
  enough := by rw [spent_eq_zero h, Nat.add_zero]
  since s hs hkey := absurd hkey (h s hs)
  until' s hs hkey := absurd hkey (h s hs)

end Charge

end Pacing
