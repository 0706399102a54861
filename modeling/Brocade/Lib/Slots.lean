/-
Rewriting some slots of a list and leaving the others.

The slots that a test marks are refilled, front to back, from a second list.  Where there are as
many fillings as marked slots, and each filling passes the test itself, what the test marks is the
second list, what it does not mark is untouched, and each slot keeps its mark.
-/
import Mathlib.Data.List.Basic

namespace Slots

variable {α : Type}

/-- Refill the marked slots in order; a marked slot with nothing left to fill it is an error. -/
def refill (marked : α → Bool) : List α → List α → Option (List α)
  | [], _ => some []
  | x :: xs, fillings =>
    if marked x then
      match fillings with
      | [] => none
      | y :: ys => (refill marked xs ys).map (y :: ·)
    else (refill marked xs fillings).map (x :: ·)

/-- What a refilled list is. -/
structure Refilled (marked : α → Bool) (xs fillings out : List α) : Prop where
  filled : out.filter marked = fillings
  kept : (out.filter fun x => !marked x) = xs.filter fun x => !marked x
  slots : out.map marked = xs.map marked

theorem Refilled.cons_marked {marked : α → Bool} {x y : α} {xs ys out : List α}
    (hx : marked x = true) (hy : marked y = true) (h : Refilled marked xs ys out) :
    Refilled marked (x :: xs) (y :: ys) (y :: out) where
  filled := by simp [hy, h.filled]
  kept := by simp [hx, hy, h.kept]
  slots := by simp [hx, hy, h.slots]

theorem Refilled.cons_kept {marked : α → Bool} {x : α} {xs ys out : List α} (hx : marked x = false)
    (h : Refilled marked xs ys out) : Refilled marked (x :: xs) ys (x :: out) where
  filled := by simp [hx, h.filled]
  kept := by simp [hx, h.kept]
  slots := by simp [h.slots]

/-- **As many marked fillings as marked slots always fit.** -/
theorem refill_spec {marked : α → Bool} {xs : List α} :
    ∀ {fillings : List α}, (∀ y ∈ fillings, marked y = true) →
      fillings.length = (xs.filter marked).length →
      ∃ out, refill marked xs fillings = some out ∧ Refilled marked xs fillings out := by
  induction xs with
  | nil =>
    intro fillings _ hlength
    have hnone : fillings = [] := List.length_eq_zero_iff.mp (by simpa using hlength)
    subst hnone
    exact ⟨[], by simp [refill], ⟨rfl, rfl, rfl⟩⟩
  | cons x xs ih =>
    intro fillings hmarked hlength
    by_cases hx : marked x = true
    · rw [List.filter_cons_of_pos hx] at hlength
      obtain ⟨y, ys, rfl⟩ := List.exists_cons_of_length_eq_add_one hlength
      obtain ⟨out, hout, hrefilled⟩ := ih (fun z hz => hmarked z (List.mem_cons_of_mem _ hz))
        (by simpa using hlength)
      refine ⟨y :: out, by simp [refill, hx, hout], ?_⟩
      exact hrefilled.cons_marked hx (hmarked y List.mem_cons_self)
    · have hfalse : marked x = false := by simpa using hx
      rw [List.filter_cons_of_neg hx] at hlength
      obtain ⟨out, hout, hrefilled⟩ := ih hmarked hlength
      exact ⟨x :: out, by simp [refill, hfalse, hout], hrefilled.cons_kept hfalse⟩

theorem refill_self (marked : α → Bool) (xs : List α) :
    refill marked xs (xs.filter marked) = some xs := by
  induction xs with
  | nil => simp [refill]
  | cons x xs ih =>
    by_cases hx : marked x = true
    · simp [refill, hx, ih]
    · simp [refill, hx, ih]

end Slots
