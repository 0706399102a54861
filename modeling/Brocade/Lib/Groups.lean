/-
Greedy grouping of a list.

An element joins the open group where a test on the group and the element allows it, and otherwise
opens the next one.  The groups cut the list into consecutive pieces, none empty; what joining keeps
holds of every group; and each group begins with an element that the one before it refused.
-/
import Mathlib.Data.List.Basic

namespace Groups

variable {α β : Type}

/-- The groups of a list while `group` is open; the empty list is no group. -/
def groupsFrom (joins : List α → α → Bool) : List α → List α → List (List α)
  | group, [] => if group.isEmpty then [] else [group]
  | group, x :: xs =>
    if joins group x then groupsFrom joins (group ++ [x]) xs
    else if group.isEmpty then groupsFrom joins [x] xs
    else group :: groupsFrom joins [x] xs

def groups (joins : List α → α → Bool) (xs : List α) : List (List α) := groupsFrom joins [] xs

variable {joins : List α → α → Bool}

theorem flatten_groupsFrom (xs : List α) : ∀ group : List α,
    (groupsFrom joins group xs).flatten = group ++ xs := by
  induction xs with
  | nil =>
    intro group
    rw [groupsFrom]
    by_cases hgroup : group = []
    · simp [hgroup]
    · simp [hgroup]
  | cons x xs ih =>
    intro group
    rw [groupsFrom]
    by_cases hjoins : joins group x = true
    · simp [hjoins, ih]
    · by_cases hgroup : group = []
      · subst hgroup
        simp [hjoins, ih]
      · simp [hjoins, hgroup, ih]

variable (joins) in
/-- **The groups cut the list into consecutive pieces.** -/
theorem flatten_groups (xs : List α) : (groups joins xs).flatten = xs := by
  rw [groups, flatten_groupsFrom, List.nil_append]

/-- **What a first element has and joining keeps holds of every group.** -/
theorem groups_induction {P : List α → Prop} (hfirst : ∀ x, P [x])
    (hjoin : ∀ group x, group ≠ [] → P group → joins group x = true → P (group ++ [x]))
    {xs : List α} : ∀ group ∈ groups joins xs, group ≠ [] ∧ P group := by
  have hfrom : ∀ (xs open' : List α), (open' ≠ [] → P open') →
      ∀ group ∈ groupsFrom joins open' xs, group ≠ [] ∧ P group := by
    intro xs
    induction xs with
    | nil =>
      intro open' hopen group hin
      rw [groupsFrom] at hin
      by_cases hempty : open' = []
      · simp [hempty] at hin
      · simp only [List.isEmpty_iff, hempty, if_false, List.mem_singleton] at hin
        exact hin ▸ ⟨hempty, hopen hempty⟩
    | cons x xs ih =>
      intro open' hopen group hin
      rw [groupsFrom] at hin
      by_cases hempty : open' = []
      · subst hempty
        by_cases hjoins : joins [] x = true
        · rw [if_pos hjoins] at hin
          exact ih _ (fun _ => hfirst x) group hin
        · rw [if_neg hjoins, if_pos List.isEmpty_nil] at hin
          exact ih _ (fun _ => hfirst x) group hin
      · by_cases hjoins : joins open' x = true
        · rw [if_pos hjoins] at hin
          exact ih _ (fun _ => hjoin open' x hempty (hopen hempty) hjoins) group hin
        · rw [if_neg hjoins, if_neg (by simpa using hempty), List.mem_cons] at hin
          rcases hin with heq | hin
          · exact heq ▸ ⟨hempty, hopen hempty⟩
          · exact ih _ (fun _ => hfirst x) group hin
  exact hfrom xs [] (fun hne => absurd rfl hne)

variable (joins) in
theorem head?_groupsFrom (xs : List α) : ∀ group : List α, group ≠ [] →
    ∃ g gs, groupsFrom joins group xs = g :: gs ∧ g.head? = group.head? := by
  induction xs with
  | nil =>
    intro group hgroup
    exact ⟨group, [], by simp [groupsFrom, hgroup], rfl⟩
  | cons x xs ih =>
    intro group hgroup
    rw [groupsFrom]
    by_cases hjoins : joins group x = true
    · obtain ⟨g, gs, hgs, hhead⟩ := ih (group ++ [x]) (by simp)
      refine ⟨g, gs, by rw [if_pos hjoins, hgs], ?_⟩
      rw [hhead, List.head?_append_of_ne_nil _ hgroup]
    · exact ⟨group, groupsFrom joins [x] xs, by simp [hjoins, hgroup], rfl⟩

/-- **Each group begins with an element that the one before it refused.** -/
theorem groups_refused {xs : List α} : (groups joins xs).IsChain fun group next =>
    ∃ x, next.head? = some x ∧ joins group x = false := by
  have hfrom : ∀ (xs open' : List α), (groupsFrom joins open' xs).IsChain fun group next =>
      ∃ x, next.head? = some x ∧ joins group x = false := by
    intro xs
    induction xs with
    | nil =>
      intro open'
      rw [groupsFrom]
      by_cases hempty : open' = []
      · simp [hempty]
      · simp [hempty]
    | cons x xs ih =>
      intro open'
      rw [groupsFrom]
      by_cases hjoins : joins open' x = true
      · rw [if_pos hjoins]
        exact ih _
      · by_cases hempty : open' = []
        · rw [if_neg hjoins, if_pos (by simp [hempty])]
          exact ih _
        · rw [if_neg hjoins, if_neg (by simpa using hempty)]
          obtain ⟨g, gs, hgs, hhead⟩ := head?_groupsFrom joins xs [x] (by simp)
          have hrest := ih [x]
          rw [hgs] at hrest ⊢
          rw [List.isChain_cons_cons]
          refine ⟨⟨x, by simpa using hhead, by simpa using hjoins⟩, hrest⟩
  exact hfrom xs []

theorem groups_singletons {xs : List α} (hnil : ∀ x, joins [] x = false)
    (h : xs.IsChain fun x y => joins [x] y = false) : groups joins xs = xs.map fun x => [x] := by
  have hfrom : ∀ (xs : List α) (x : α), ((x :: xs).IsChain fun x y => joins [x] y = false) →
      groupsFrom joins [x] xs = (x :: xs).map fun y => [y] := by
    intro xs
    induction xs with
    | nil => intro x _; simp [groupsFrom]
    | cons y xs ih =>
      intro x hchain
      obtain ⟨hxy, hrest⟩ := List.isChain_cons_cons.mp hchain
      rw [groupsFrom, hxy]
      simp [ih y hrest]
  cases xs with
  | nil => rfl
  | cons x xs =>
    rw [groups, groupsFrom, hnil]
    exact hfrom xs x h

end Groups
