/-
Tables in which the first match decides.

A table may be rewritten entry by entry, with some entries dropped and a last one that takes
everything.  It then decides by the entry made of the first one whose rewriting matches.  Where
rewriting only narrows the matches, that is the first match of the original exactly if the first
match is not one of those that lost it.
-/
import Mathlib.Data.List.Basic

namespace FirstMatch

variable {ρ σ : Type}

theorem find?_rewritten (make : ρ → Option σ) (p : σ → Bool) {rest : σ} (h : p rest = true)
    (rules : List ρ) : (rules.filterMap make ++ [rest]).find? p
      = some (((rules.find? fun rule => (make rule).any p).bind make).getD rest) := by
  induction rules with
  | nil => simp [h]
  | cons rule rules ih =>
    rw [List.find?_cons, List.filterMap_cons]
    cases hmake : make rule with
    | none => simpa using ih
    | some entry =>
      by_cases hp : p entry = true
      · simp [hp, hmake]
      · simp only [Option.any_some, hp, List.cons_append]
        rw [List.find?_cons_of_neg hp]
        exact ih

/-- Narrowing keeps the first match exactly where the first match is not narrowed out. -/
theorem find?_narrowed {p q : ρ → Bool} {rules : List ρ}
    (h : ∀ rule ∈ rules, q rule = true → p rule = true)
    (hfirst : ∀ rule, rules.find? p = some rule → q rule = true) :
    rules.find? q = rules.find? p := by
  induction rules with
  | nil => rfl
  | cons rule rules ih =>
    have hrest : ∀ r ∈ rules, q r = true → p r = true := fun r hr => h r (List.mem_cons_of_mem _ hr)
    by_cases hp : p rule = true
    · have hq := hfirst rule (List.find?_cons_of_pos hp)
      rw [List.find?_cons_of_pos hp, List.find?_cons_of_pos hq]
    · have hq : ¬ q rule = true := fun hq => hp (h rule List.mem_cons_self hq)
      rw [List.find?_cons_of_neg hp, List.find?_cons_of_neg hq]
      rw [List.find?_cons_of_neg hp] at hfirst
      exact ih hrest hfirst

end FirstMatch
