/-
The gaps that numbers leave in an interval.

The complement of an ascending list within an interval is a list of spans, each with both of its
ends inside, none of them empty.
-/
import Mathlib.Data.List.Basic

namespace Gaps

/-- The spans from `low` to `last` that the numbers leave, in order. -/
def spans (last : ℕ) : ℕ → List ℕ → List (ℕ × ℕ)
  | low, [] => if low ≤ last then [(low, last)] else []
  | low, kept :: rest =>
    (if low < kept then [(low, kept - 1)] else []) ++ spans last (kept + 1) rest

/-- **A number is in a span exactly where it is inside and not kept out.** -/
theorem mem_spans {last : ℕ} {kept : List ℕ} (hsorted : kept.Pairwise (· < ·))
    (hlast : ∀ k ∈ kept, k ≤ last) : ∀ {low : ℕ}, (∀ k ∈ kept, low ≤ k + 1) → ∀ n : ℕ,
      (∃ span ∈ spans last low kept, span.1 ≤ n ∧ n ≤ span.2) ↔ low ≤ n ∧ n ≤ last ∧ n ∉ kept := by
  induction kept with
  | nil =>
    intro low _ n
    rw [spans]
    split_ifs with hlow
    · simp
    · simp
      omega
  | cons k rest ih =>
    intro low hlow n
    obtain ⟨habove, hsorted⟩ := List.pairwise_cons.mp hsorted
    have hk := hlow k List.mem_cons_self
    have hend := hlast k List.mem_cons_self
    have hnext : ∀ r ∈ rest, k + 1 ≤ r + 1 := by
      intro r hr
      have hafter := habove r hr
      omega
    have hrest := ih hsorted (fun r hr => hlast r (List.mem_cons_of_mem _ hr)) hnext n
    rw [spans]
    simp only [List.mem_append, or_and_right, exists_or, hrest, List.mem_cons, not_or]
    constructor
    · rintro (⟨span, hspan, hfrom, hto⟩ | ⟨hfrom, hto, hnot⟩)
      · split_ifs at hspan with hgap
        · rw [List.mem_singleton] at hspan
          subst hspan
          dsimp only at hfrom hto
          refine ⟨hfrom, by omega, by omega, ?_⟩
          intro hn
          have hafter := habove n hn
          omega
        · cases hspan
      · exact ⟨by omega, hto, by omega, hnot⟩
    · rintro ⟨hfrom, hto, hne, hnot⟩
      by_cases hbelow : n < k
      · refine .inl ⟨(low, k - 1), ?_, hfrom, by show n ≤ k - 1; omega⟩
        rw [if_pos (by omega)]
        exact List.mem_singleton.mpr rfl
      · exact .inr ⟨by omega, hto, hnot⟩

theorem span_ends {last : ℕ} {kept : List ℕ} (hlast : ∀ k ∈ kept, k ≤ last) : ∀ {low : ℕ}, 1 ≤ low →
    ∀ span ∈ spans last low kept, 1 ≤ span.1 ∧ span.1 ≤ span.2 ∧ span.2 ≤ last := by
  induction kept with
  | nil =>
    intro low hlow span hspan
    rw [spans] at hspan
    split_ifs at hspan with hroom
    · rw [List.mem_singleton] at hspan
      exact hspan ▸ ⟨hlow, hroom, Nat.le_refl _⟩
    · cases hspan
  | cons k rest ih =>
    intro low hlow span hspan
    have hk := hlast k List.mem_cons_self
    rw [spans] at hspan
    rcases List.mem_append.mp hspan with hspan | hspan
    · split_ifs at hspan with hgap
      · rw [List.mem_singleton] at hspan
        subst hspan
        exact ⟨hlow, by show low ≤ k - 1; omega, by show k - 1 ≤ last; omega⟩
      · cases hspan
    · exact ih (fun r hr => hlast r (List.mem_cons_of_mem _ hr)) (by omega) span hspan

end Gaps
