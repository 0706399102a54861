/-
Depth-first searches that carry what they have seen from one branch to the next.

Two searches are developed.  `reaches` asks whether a wanted vertex can be reached and stops
at the first branch that finds it.  `cycles` reports every vertex met again on its own
stack.  Both recurse on a fuel and thread a list of seen vertices, and `dom` lists the
vertices that may have successors: a call that goes deeper marks one of them, so
`dom.length + 1` is fuel enough.

An unsuccessful search leaves a set closed under successors that does not hold what was
wanted (`reaches_iff`).  A search that reports nothing leaves only vertices from which every
path ends (`cycles_acc`), and no cycle goes through one of those (`not_cycle_of_acc`).

A cycle in a graph with several kinds of edges either stays within one kind or crosses an
edge of another; `transGen_cases` is that split.
-/
import Mathlib.Algebra.Order.Group.Nat
import Mathlib.Data.List.Basic

namespace Dfs

variable {α σ : Type}

/-- Ask the entries one after another until one says yes, threading a state. -/
def anyThread (f : α → σ → Bool × σ) : List α → σ → Bool × σ
  | [], s => (false, s)
  | a :: as, s => if (f a s).1 then (true, (f a s).2) else anyThread f as (f a s).2

/-- Visit every entry, threading a state and collecting what is reported. -/
def allThread {β : Type} (f : α → σ → List β × σ) : List α → σ → List β × σ
  | [], s => ([], s)
  | a :: as, s => ((f a s).1 ++ (allThread f as (f a s).2).1, (allThread f as (f a s).2).2)

/-! ### Paths and cycles -/

variable {succ : α → List α}

/-- Every path from `a` ends. -/
def Ends (succ : α → List α) (a : α) : Prop :=
  Acc (fun b a => b ∈ succ a) a

theorem Ends.of_mem {a b : α} (h : Ends succ a) (hb : b ∈ succ a) : Ends succ b :=
  Acc.inv h hb

theorem Ends.of_reaches {a b : α} (h : Ends succ a)
    (hab : Relation.ReflTransGen (fun a b => b ∈ succ a) a b) : Ends succ b := by
  induction hab with
  | refl => exact h
  | tail _ hbc ih => exact ih.of_mem hbc

theorem not_cycle_of_acc {a : α} (h : Ends succ a) :
    ¬ Relation.TransGen (fun a b => b ∈ succ a) a a := by
  induction h with
  | intro a _ ih =>
    intro hcycle
    obtain ⟨b, hab, hba⟩ := Relation.TransGen.head'_iff.mp hcycle
    exact ih b hab (Relation.TransGen.tail' hba hab)

/-! ### Cycles across several kinds of edges -/

theorem transGen_cases {E P : α → α → Prop} {a b : α} (h : Relation.TransGen E a b) :
    Relation.TransGen (fun x y => E x y ∧ P x y) a b
      ∨ ∃ x y, Relation.ReflTransGen E a x ∧ E x y ∧ ¬ P x y ∧ Relation.ReflTransGen E y b := by
  induction h with
  | single hab =>
    rename_i b
    by_cases hp : P a b
    · exact .inl (.single ⟨hab, hp⟩)
    · exact .inr ⟨a, b, .refl, hab, hp, .refl⟩
  | tail hab hbc ih =>
    rename_i b c
    rcases ih with ih | ⟨x, y, hax, hxy, hp, hyb⟩
    · by_cases hp : P b c
      · exact .inl (ih.tail ⟨hbc, hp⟩)
      · exact .inr ⟨b, c, hab.to_reflTransGen, hbc, hp, .refl⟩
    · exact .inr ⟨x, y, hax, hxy, hp, hyb.tail hbc⟩

theorem cycle_cases {E P : α → α → Prop} {a : α} (h : Relation.TransGen E a a) :
    Relation.TransGen (fun x y => E x y ∧ P x y) a a
      ∨ ∃ x y, E x y ∧ ¬ P x y ∧ Relation.ReflTransGen E y x := by
  refine (transGen_cases (P := P) h).imp_right ?_
  rintro ⟨x, y, hax, hxy, hp, hya⟩
  exact ⟨x, y, hxy, hp, hya.trans hax⟩

/-! ### Marking vertices -/

variable [DecidableEq α]

/-- How many vertices with successors are still unseen. -/
def unseen (dom seen : List α) : ℕ :=
  (dom.filter (· ∉ seen)).length

theorem unseen_le {dom seen : List α} : unseen dom seen ≤ dom.length :=
  List.length_filter_le ..

theorem unseen_anti {dom seen seen' : List α} (h : seen ⊆ seen') :
    unseen dom seen' ≤ unseen dom seen := by
  refine List.Sublist.length_le (List.monotone_filter_right dom fun a ha => ?_)
  simp only [decide_eq_true_eq] at ha ⊢
  exact fun hseen => ha (h hseen)

theorem unseen_mark {dom seen : List α} {a : α} (hdom : a ∈ dom) (ha : a ∉ seen) :
    unseen dom (seen ++ [a]) < unseen dom seen := by
  have hsub : (dom.filter (· ∉ seen ++ [a])) = (dom.filter (· ∉ seen)).filter (· ≠ a) := by
    rw [List.filter_filter]
    refine List.filter_congr fun b _ => ?_
    rw [← Bool.decide_and, decide_eq_decide, List.mem_append, List.mem_singleton]
    tauto
  unfold unseen
  rw [hsub]
  refine List.length_filter_lt_length_iff_exists.mpr ⟨a, ?_, by simp⟩
  simp [hdom, ha]

/-! ### Looking for one vertex -/

variable (succ) in
/-- Can `wanted` be reached?  Also what has been seen by the time the answer is known. -/
def reaches (wanted : α) : ℕ → α → List α → Bool × List α
  | 0, _, seen => (false, seen)
  | fuel + 1, a, seen =>
    if a = wanted then (true, seen)
    else if a ∈ seen then (false, seen)
    else anyThread (reaches wanted fuel) (succ a) (seen ++ [a])

variable {wanted : α} {dom : List α}

/-- What a search without success adds is not wanted, and its successors were all seen. -/
private structure Closes (succ : α → List α) (wanted : α) (seen seen' : List α) : Prop where
  grown : seen ⊆ seen'
  closed : ∀ v ∈ seen', v ∉ seen → v ≠ wanted ∧ ∀ w ∈ succ v, w ∈ seen'

omit [DecidableEq α] in
private theorem Closes.refl (seen : List α) : Closes succ wanted seen seen :=
  ⟨List.Subset.refl _, fun _ h hn => absurd h hn⟩

private theorem Closes.trans {s t u : List α} (h₁ : Closes succ wanted s t)
    (h₂ : Closes succ wanted t u) : Closes succ wanted s u := by
  refine ⟨List.Subset.trans h₁.grown h₂.grown, fun v hv hns => ?_⟩
  by_cases hvt : v ∈ t
  · obtain ⟨hne, hsucc⟩ := h₁.closed v hvt hns
    exact ⟨hne, fun w hw => h₂.grown (hsucc w hw)⟩
  · exact h₂.closed v hv hvt

private theorem anyThread_closes {f : α → List α → Bool × List α} {as seen : List α}
    (hf : ∀ a ∈ as, ∀ s, seen ⊆ s → (f a s).1 = false →
      Closes succ wanted s (f a s).2 ∧ a ∈ (f a s).2) (h : (anyThread f as seen).1 = false) :
    Closes succ wanted seen (anyThread f as seen).2 ∧ ∀ a ∈ as, a ∈ (anyThread f as seen).2 := by
  induction as generalizing seen with
  | nil => exact ⟨.refl _, fun _ ha => absurd ha List.not_mem_nil⟩
  | cons a as ih =>
    unfold anyThread at h ⊢
    cases hfa : (f a seen).1 with
    | true => simp [hfa] at h
    | false =>
      rw [hfa, if_neg Bool.false_ne_true] at h
      rw [if_neg Bool.false_ne_true]
      obtain ⟨hcloses, ha⟩ := hf a List.mem_cons_self seen (List.Subset.refl _) hfa
      obtain ⟨hrest, has⟩ := ih (fun b hb s hs => hf b (List.mem_cons_of_mem a hb) s
        (List.Subset.trans hcloses.grown hs)) h
      refine ⟨hcloses.trans hrest, fun b hb => ?_⟩
      rcases List.mem_cons.mp hb with rfl | hb
      · exact hrest.grown ha
      · exact has b hb

variable {fuel : ℕ}

private theorem reaches_closes (hdom : ∀ a, succ a ≠ [] → a ∈ dom) {a : α} {seen : List α}
    (hfuel : unseen dom seen < fuel) (h : (reaches succ wanted fuel a seen).1 = false) :
    Closes succ wanted seen (reaches succ wanted fuel a seen).2
      ∧ a ∈ (reaches succ wanted fuel a seen).2 := by
  induction fuel generalizing a seen with
  | zero => omega
  | succ fuel ih =>
    unfold reaches at h ⊢
    by_cases hwanted : a = wanted
    · simp [hwanted] at h
    rw [if_neg hwanted] at h ⊢
    by_cases hseen : a ∈ seen
    · rw [if_pos hseen]
      exact ⟨.refl _, hseen⟩
    rw [if_neg hseen] at h ⊢
    by_cases hsucc : succ a = []
    · rw [hsucc]
      refine ⟨⟨List.subset_append_left _ _, fun v hv hns => ?_⟩, by simp [anyThread]⟩
      have hva : v = a := by simpa [anyThread, hns] using hv
      subst hva
      exact ⟨hwanted, fun w hw => absurd (hsucc ▸ hw) List.not_mem_nil⟩
    have hless := unseen_mark (hdom a hsucc) hseen
    obtain ⟨hcloses, hall⟩ := @anyThread_closes _ succ _ wanted _ _ _
      (fun b _ s hs hb => ih (by have := @unseen_anti _ _ dom _ _ hs; omega) hb) h
    have ha : a ∈ (anyThread (reaches succ wanted fuel) (succ a) (seen ++ [a])).2 :=
      hcloses.grown (by simp)
    refine ⟨⟨fun v hv => hcloses.grown (List.mem_append_left _ hv), fun v hv hns => ?_⟩, ha⟩
    by_cases hva : v = a
    · subst hva
      exact ⟨hwanted, hall⟩
    · exact hcloses.closed v hv (by simp [hns, hva])

omit [DecidableEq α] in
private theorem anyThread_exists {f : α → List α → Bool × List α} {as seen : List α}
    (h : (anyThread f as seen).1 = true) : ∃ a ∈ as, ∃ s, (f a s).1 = true := by
  induction as generalizing seen with
  | nil => simp [anyThread] at h
  | cons a as ih =>
    unfold anyThread at h
    cases hfa : (f a seen).1 with
    | true => exact ⟨a, List.mem_cons_self, seen, hfa⟩
    | false =>
      rw [hfa, if_neg Bool.false_ne_true] at h
      obtain ⟨b, hb, s, hs⟩ := ih h
      exact ⟨b, List.mem_cons_of_mem a hb, s, hs⟩

private theorem reaches_sound {a : α} {seen : List α}
    (h : (reaches succ wanted fuel a seen).1 = true) :
    Relation.ReflTransGen (fun a b => b ∈ succ a) a wanted := by
  induction fuel generalizing a seen with
  | zero => simp [reaches] at h
  | succ fuel ih =>
    unfold reaches at h
    by_cases hwanted : a = wanted
    · rw [hwanted]
    rw [if_neg hwanted] at h
    by_cases hseen : a ∈ seen
    · simp [hseen] at h
    rw [if_neg hseen] at h
    obtain ⟨b, hb, s, hs⟩ := anyThread_exists h
    exact .head hb (ih hs)

/-- **The search answers whether the wanted vertex is reachable.** -/
theorem reaches_iff (hdom : ∀ a, succ a ≠ [] → a ∈ dom) (hfuel : dom.length < fuel) (a : α) :
    (reaches succ wanted fuel a []).1 = true
      ↔ Relation.ReflTransGen (fun a b => b ∈ succ a) a wanted := by
  refine ⟨reaches_sound, fun hreach => ?_⟩
  by_contra hfalse
  rw [Bool.not_eq_true] at hfalse
  obtain ⟨hcloses, ha⟩ := reaches_closes hdom
    (lt_of_le_of_lt unseen_le hfuel) hfalse
  have hinside : ∀ b, Relation.ReflTransGen (fun a b => b ∈ succ a) a b →
      b ∈ (reaches succ wanted fuel a []).2 := by
    intro b hb
    induction hb with
    | refl => exact ha
    | tail _ hbc ih => exact (hcloses.closed _ ih List.not_mem_nil).2 _ hbc
  exact (hcloses.closed _ (hinside wanted hreach) List.not_mem_nil).1 rfl

/-! ### Looking for cycles -/

variable (succ) in
/-- The vertices met again while still on the stack, and what has been visited. -/
def cycles : ℕ → List α → α → List α → List α × List α
  | 0, _, _, visited => ([], visited)
  | fuel + 1, stack, a, visited =>
    if a ∈ stack then ([a], visited)
    else if a ∈ visited then ([], visited)
    else allThread (cycles fuel (stack ++ [a])) (succ a) (visited ++ [a])

/-- All that was visited is on the stack or ends. -/
private def Settled (succ : α → List α) (stack visited : List α) : Prop :=
  ∀ v ∈ visited, v ∈ stack ∨ Ends succ v

omit [DecidableEq α] in
private theorem allThread_settled {f : α → List α → List α × List α} {stack as visited : List α}
    (hf : ∀ a ∈ as, ∀ s, visited ⊆ s → Settled succ stack s → (f a s).1 = [] →
      Ends succ a ∧ s ⊆ (f a s).2 ∧ Settled succ stack (f a s).2)
    (hsettled : Settled succ stack visited) (h : (allThread f as visited).1 = []) :
    (∀ a ∈ as, Ends succ a) ∧ visited ⊆ (allThread f as visited).2
      ∧ Settled succ stack (allThread f as visited).2 := by
  induction as generalizing visited with
  | nil => exact ⟨fun _ ha => absurd ha List.not_mem_nil, List.Subset.refl _, hsettled⟩
  | cons a as ih =>
    unfold allThread at h ⊢
    obtain ⟨hhead, htail⟩ := List.append_eq_nil_iff.mp h
    obtain ⟨hends, hgrown, hkept⟩ :=
      hf a List.mem_cons_self visited (List.Subset.refl _) hsettled hhead
    obtain ⟨hrest, hgrown', hkept'⟩ := ih (fun b hb s hs => hf b (List.mem_cons_of_mem a hb) s
      (List.Subset.trans hgrown hs)) hkept htail
    refine ⟨fun b hb => ?_, List.Subset.trans hgrown hgrown', hkept'⟩
    rcases List.mem_cons.mp hb with rfl | hb
    · exact hends
    · exact hrest b hb

private theorem cycles_settled (hdom : ∀ a, succ a ≠ [] → a ∈ dom) {stack visited : List α}
    {a : α} (hfuel : unseen dom visited < fuel) (hsettled : Settled succ stack visited)
    (h : (cycles succ fuel stack a visited).1 = []) :
    Ends succ a ∧ visited ⊆ (cycles succ fuel stack a visited).2
      ∧ Settled succ stack (cycles succ fuel stack a visited).2 := by
  induction fuel generalizing stack visited a with
  | zero => omega
  | succ fuel ih =>
    unfold cycles at h ⊢
    by_cases hstack : a ∈ stack
    · simp [hstack] at h
    rw [if_neg hstack] at h ⊢
    by_cases hvisited : a ∈ visited
    · rw [if_pos hvisited]
      exact ⟨(hsettled a hvisited).resolve_left hstack, List.Subset.refl _, hsettled⟩
    rw [if_neg hvisited] at h ⊢
    have hmarked : Settled succ (stack ++ [a]) (visited ++ [a]) := by
      intro v hv
      rcases List.mem_append.mp hv with hv | hv
      · exact (hsettled v hv).imp_left (List.mem_append_left _)
      · exact .inl (List.mem_append_right _ hv)
    obtain ⟨hall, hgrown, hkept⟩ := @allThread_settled _ succ _ (stack ++ [a]) _ _
      (fun b hb s hs hset hnone => ih (by
        have hless := unseen_mark (hdom a (List.ne_nil_of_mem hb)) hvisited
        have := @unseen_anti _ _ dom _ _ hs
        omega) hset hnone) hmarked h
    -- every child ends, so `a` does, and with it what only the stack held
    have hends : Ends succ a := ⟨a, hall⟩
    refine ⟨hends, fun v hv => hgrown (List.mem_append_left _ hv), fun v hv => ?_⟩
    rcases hkept v hv with hv | hv
    · rcases List.mem_append.mp hv with hv | hv
      · exact .inl hv
      · exact .inr (List.mem_singleton.mp hv ▸ hends)
    · exact .inr hv

/-- **A search from several roots that reports nothing shows that every path from them
ends.** -/
theorem cycles_acc (hdom : ∀ a, succ a ≠ [] → a ∈ dom) (hfuel : dom.length < fuel) {roots : List α}
    (h : (allThread (cycles succ fuel []) roots []).1 = []) : ∀ a ∈ roots, Ends succ a :=
  (@allThread_settled _ succ _ [] _ _
    (fun _ _ _ _ hset hnone => cycles_settled hdom (lt_of_le_of_lt unseen_le hfuel) hset hnone)
    (fun _ hv => absurd hv List.not_mem_nil) h).1

omit [DecidableEq α] in
theorem allThread_eq_nil {β : Type} {f : α → σ → List β × σ} {as : List α}
    (h : ∀ a ∈ as, ∀ s, (f a s).1 = []) (s : σ) : (allThread f as s).1 = [] := by
  induction as generalizing s with
  | nil => rfl
  | cons a as ih =>
    show (f a s).1 ++ (allThread f as (f a s).2).1 = []
    rw [h a List.mem_cons_self, ih fun b hb => h b (List.mem_cons_of_mem a hb)]
    rfl

private theorem cycles_eq_nil {stack visited : List α} {a : α} (h : Ends succ a)
    (hstack : ∀ s ∈ stack, Relation.TransGen (fun a b => b ∈ succ a) s a) :
    (cycles succ fuel stack a visited).1 = [] := by
  induction fuel generalizing stack visited a with
  | zero => rfl
  | succ fuel ih =>
    unfold cycles
    rw [if_neg fun ha => not_cycle_of_acc h (hstack a ha)]
    split
    · rfl
    · refine allThread_eq_nil (fun b hb s => ih (h.of_mem hb) fun below hbelow => ?_) _
      rcases List.mem_append.mp hbelow with hbelow | hbelow
      · exact (hstack below hbelow).tail hb
      · rw [List.mem_singleton.mp hbelow]
        exact .single hb

theorem cycles_of_acc {roots : List α} (h : ∀ a ∈ roots, Ends succ a) :
    (allThread (cycles succ fuel []) roots []).1 = [] :=
  allThread_eq_nil (fun a ha _ => cycles_eq_nil (h a ha) fun _ hs => absurd hs List.not_mem_nil) []

end Dfs
