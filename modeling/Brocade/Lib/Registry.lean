/-
Registries: lists of items that are told apart by a key.

The concrete registry is a list in order of registration, with operations that
insist on their preconditions: adding a key that is there and removing one that is
not both fail.  What it stands for is a partial map from keys to items.  `Holds`
connects the two, and every operation on the list is shown to be the corresponding
operation on the map, failing never when its precondition holds.
-/
import Mathlib.Data.List.Sigma

namespace Registry

variable {α κ : Type} [DecidableEq κ] (key : α → Option κ)

/-- The item registered under `k`. -/
def find? (k : κ) (items : List α) : Option α := items.find? fun a => key a = some k

/-- An item comes in, if its key is free. -/
def add? (items : List α) (a : α) : Option (List α) :=
  match key a with
  | some k => if (find? key k items).isSome then none else some (items ++ [a])
  | none => none

/-- The item of a key goes, if there is one. -/
def remove? (items : List α) (k : κ) : Option (List α) :=
  if (find? key k items).isSome then some (items.filter fun a => !decide (key a = some k))
  else none

/-- The list registers exactly the items of the partial map `f`, each once. -/
structure Holds (items : List α) (f : κ → Option α) : Prop where
  keyed : ∀ a ∈ items, ∃ k, key a = some k
  nodup : (items.map key).Nodup
  mem : ∀ k a, (a ∈ items ∧ key a = some k) ↔ f k = some a

variable {key}

theorem find?_eq_none {k : κ} {items : List α} :
    find? key k items = none ↔ ∀ a ∈ items, key a ≠ some k := by
  simp [find?, List.find?_eq_none]

theorem find?_isSome {k : κ} {items : List α} :
    (find? key k items).isSome = true ↔ ∃ a ∈ items, key a = some k := by
  simp [find?, List.find?_isSome]

theorem Holds.find? {items : List α} {f : κ → Option α} (h : Holds key items f) (k : κ) :
    Registry.find? key k items = f k := by
  cases hf : Registry.find? key k items with
  | none =>
    cases hk : f k with
    | none => rfl
    | some a =>
      obtain ⟨hmem, hkey⟩ := (h.mem k a).mpr hk
      exact absurd hkey (find?_eq_none.mp hf a hmem)
  | some a =>
    have hkey : key a = some k := by simpa using List.find?_some hf
    exact ((h.mem k a).mp ⟨List.mem_of_find?_eq_some hf, hkey⟩).symm

omit [DecidableEq κ] in
theorem Holds.nil : Holds key [] fun _ => none := ⟨by simp, by simp, by simp⟩

theorem Holds.single {a : α} {k : κ} (h : key a = some k) :
    Holds key [a] fun k' => if k' = k then some a else none := by
  refine ⟨by simp [h], by simp, ?_⟩
  intro k' b
  by_cases hk : k' = k
  · subst hk
    simp only [List.mem_singleton, if_true, Option.some.injEq]
    exact ⟨fun hb => hb.1.symm, fun hb => hb ▸ ⟨rfl, h⟩⟩
  · simp only [List.mem_singleton, if_neg hk, reduceCtorEq, iff_false, not_and]
    rintro rfl hb
    exact hk (Option.some.inj (hb.symm.trans h))

theorem Holds.of_nodup {items : List α} (hkeyed : ∀ a ∈ items, ∃ k, key a = some k)
    (hnodup : (items.map key).Nodup) : Holds key items fun k => Registry.find? key k items := by
  refine ⟨hkeyed, hnodup, ?_⟩
  intro k a
  constructor
  · rintro ⟨ha, hk⟩
    obtain ⟨b, hb⟩ := Option.isSome_iff_exists.mp (find?_isSome.mpr ⟨a, ha, hk⟩)
    have hbk : key b = some k := by simpa using List.find?_some hb
    have hba : b = a :=
      List.inj_on_of_nodup_map hnodup (List.mem_of_find?_eq_some hb) ha (hbk.trans hk.symm)
    exact hba ▸ hb
  · intro h
    exact ⟨List.mem_of_find?_eq_some h, by simpa using List.find?_some h⟩

omit [DecidableEq κ] in
theorem Holds.perm {xs ys : List α} {f : κ → Option α} (hx : Holds key xs f)
    (hy : Holds key ys f) : xs.Perm ys := by
  have hsub : ∀ {zs ws : List α}, Holds key zs f → Holds key ws f → ∀ a ∈ zs, a ∈ ws := by
    intro zs ws hz hw a ha
    obtain ⟨k, hk⟩ := hz.keyed a ha
    exact ((hw.mem k a).mpr ((hz.mem k a).mp ⟨ha, hk⟩)).1
  rw [List.perm_ext_iff_of_nodup (List.Nodup.of_map _ hx.nodup) (List.Nodup.of_map _ hy.nodup)]
  exact fun a => ⟨hsub hx hy a, hsub hy hx a⟩

/-! ### Adding and removing several items -/

theorem addAll_eq {xs ys : List α} (hkey : ∀ a ∈ ys, ∃ k, key a = some k)
    (hnodup : (ys.map key).Nodup) (hfresh : ∀ a ∈ ys, ∀ b ∈ xs, key b ≠ key a) :
    ys.foldlM (add? key) xs = some (xs ++ ys) := by
  induction ys generalizing xs with
  | nil => simp
  | cons y ys ih =>
    obtain ⟨k, hk⟩ := hkey y List.mem_cons_self
    have hnone : Registry.find? key k xs = none :=
      find?_eq_none.mpr fun b hb => hk ▸ hfresh y List.mem_cons_self b hb
    have hstep : add? key xs y = some (xs ++ [y]) := by simp [add?, hk, hnone]
    rw [List.map_cons, List.nodup_cons] at hnodup
    have hfresh' : ∀ a ∈ ys, ∀ b ∈ xs ++ [y], key b ≠ key a := by
      intro a ha b hb
      rcases List.mem_append.mp hb with hb | hb
      · exact hfresh a (List.mem_cons_of_mem _ ha) b hb
      · rw [List.mem_singleton.mp hb]
        intro heq
        exact hnodup.1 (heq ▸ List.mem_map_of_mem ha)
    have hrest := ih (fun a ha => hkey a (List.mem_cons_of_mem _ ha)) hnodup.2 hfresh'
    simpa [List.foldlM_cons, hstep] using hrest

theorem removeAll_eq {xs : List α} {ks : List κ} (hnodup : ks.Nodup)
    (hin : ∀ k ∈ ks, ∃ a ∈ xs, key a = some k) :
    ks.foldlM (remove? key) xs = some (xs.filter fun a => !decide (key a ∈ ks.map some)) := by
  induction ks generalizing xs with
  | nil => simp
  | cons k ks ih =>
    rw [List.nodup_cons] at hnodup
    have hstep : remove? key xs k = some (xs.filter fun a => !decide (key a = some k)) := by
      have hthere := find?_isSome.mpr (hin k List.mem_cons_self)
      simp [remove?, hthere]
    have hin' : ∀ k' ∈ ks, ∃ a ∈ xs.filter fun a => !decide (key a = some k), key a = some k' := by
      intro k' hk'
      obtain ⟨a, ha, hkey⟩ := hin k' (List.mem_cons_of_mem _ hk')
      have hne : k' ≠ k := fun heq => hnodup.1 (heq ▸ hk')
      exact ⟨a, List.mem_filter.mpr ⟨ha, by simp [hkey, hne]⟩, hkey⟩
    rw [List.foldlM_cons, hstep]
    show ks.foldlM (remove? key) _ = _
    rw [ih hnodup.2 hin', List.filter_filter]
    refine congrArg some (List.filter_congr fun a _ => ?_)
    by_cases ha : key a = some k <;> simp [ha]

/-- **Adding disjoint items succeeds and is the union of the maps.** -/
theorem Holds.addAll {xs ys : List α} {f g : κ → Option α} (hx : Holds key xs f)
    (hy : Holds key ys g) (hdisj : ∀ k a, g k = some a → f k = none) :
    ys.foldlM (add? key) xs = some (xs ++ ys) ∧ Holds key (xs ++ ys) (fun k => (g k).or (f k)) := by
  have hfresh : ∀ a ∈ ys, ∀ b ∈ xs, key b ≠ key a := by
    intro a ha b hb heq
    obtain ⟨k, hk⟩ := hy.keyed a ha
    have hg := (hy.mem k a).mp ⟨ha, hk⟩
    have hf := (hx.mem k b).mp ⟨hb, heq.trans hk⟩
    rw [hdisj k a hg] at hf
    cases hf
  refine ⟨addAll_eq hy.keyed hy.nodup hfresh, ?_, ?_, ?_⟩
  · intro a ha
    rcases List.mem_append.mp ha with ha | ha
    · exact hx.keyed a ha
    · exact hy.keyed a ha
  · rw [List.map_append, List.nodup_append]
    refine ⟨hx.nodup, hy.nodup, ?_⟩
    intro k hk k' hk' heq
    obtain ⟨b, hb, rfl⟩ := List.mem_map.mp hk
    obtain ⟨a, ha, rfl⟩ := List.mem_map.mp hk'
    exact hfresh a ha b hb heq
  · intro k a
    rw [List.mem_append, or_and_right, hx.mem, hy.mem]
    cases hg : g k with
    | none => simp
    | some b => simp [hdisj k b hg]

/-- **Removing registered keys succeeds and restricts the map.** -/
theorem Holds.removeAll {xs : List α} {f : κ → Option α} {ks : List κ} (hx : Holds key xs f)
    (hnodup : ks.Nodup) (hin : ∀ k ∈ ks, f k ≠ none) :
    ks.foldlM (remove? key) xs = some (xs.filter fun a => !decide (key a ∈ ks.map some)) ∧
      Holds key (xs.filter fun a => !decide (key a ∈ ks.map some))
        (fun k => if k ∈ ks then none else f k) := by
  refine ⟨removeAll_eq hnodup ?_, ?_, ?_, ?_⟩
  · intro k hk
    obtain ⟨a, ha⟩ := Option.ne_none_iff_exists'.mp (hin k hk)
    exact ⟨a, (hx.mem k a).mpr ha⟩
  · exact fun a ha => hx.keyed a (List.mem_of_mem_filter ha)
  · exact hx.nodup.sublist (List.filter_sublist.map key)
  · intro k a
    rw [List.mem_filter]
    by_cases hk : k ∈ ks
    · simp only [hk, if_true, reduceCtorEq, iff_false, not_and]
      rintro ⟨-, hout⟩ hkey
      simp [hkey, hk] at hout
    · rw [if_neg hk, ← hx.mem k a]
      constructor
      · rintro ⟨⟨ha, -⟩, hkey⟩
        exact ⟨ha, hkey⟩
      · rintro ⟨ha, hkey⟩
        exact ⟨⟨ha, by simp [hkey, hk]⟩, hkey⟩

end Registry
