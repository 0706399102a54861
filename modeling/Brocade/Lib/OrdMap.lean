/-
Ordered maps as key-sorted association lists.

A B-tree map iterates in key order and holds one value per key.  Both facts are
the strict sortedness of its list of entries, so the entries *are* the map:
`Assoc` develops lookup, insertion and erasure on bare lists, where a recursive
syntax tree can use them too, and `OrdMap` bundles a list with its sortedness so
that a value out of order cannot be built.

The result everything else leans on is `Assoc.ext_of_lookup`: two sorted lists
that answer every lookup alike are the same list.
-/
import Mathlib.Data.List.Sort
import Mathlib.Data.String.Basic

namespace Assoc

variable {κ α β : Type} [LinearOrder κ]

/-- The first value stored under `k`. -/
def lookup (k : κ) : List (κ × α) → Option α
  | [] => none
  | (k', v) :: rest => if k = k' then some v else lookup k rest

/-- Insert in key order, replacing the value of a key already present. -/
def insert (k : κ) (v : α) : List (κ × α) → List (κ × α)
  | [] => [(k, v)]
  | (k', v') :: rest =>
    if k < k' then (k, v) :: (k', v') :: rest
    else if k = k' then (k, v) :: rest
    else (k', v') :: insert k v rest

/-- Drop the entry of `k`. -/
def erase (k : κ) (m : List (κ × α)) : List (κ × α) :=
  m.filter fun e => !decide (e.1 = k)

/-- Strictly increasing keys: one entry a key, in iteration order. -/
def Sorted (m : List (κ × α)) : Prop :=
  m.Pairwise fun a b => a.1 < b.1

instance (m : List (κ × α)) : Decidable (Sorted m) :=
  inferInstanceAs (Decidable (m.Pairwise fun a b => a.1 < b.1))

@[simp] theorem lookup_nil (k : κ) : lookup k ([] : List (κ × α)) = none := rfl

theorem lookup_cons (k : κ) (e : κ × α) (m : List (κ × α)) :
    lookup k (e :: m) = if k = e.1 then some e.2 else lookup k m := rfl

theorem sorted_nil : Sorted ([] : List (κ × α)) := List.Pairwise.nil

theorem sorted_cons {e : κ × α} {m : List (κ × α)} :
    Sorted (e :: m) ↔ (∀ f ∈ m, e.1 < f.1) ∧ Sorted m := List.pairwise_cons

theorem lookup_insert (k k' : κ) (v : α) (m : List (κ × α)) :
    lookup k' (insert k v m) = if k' = k then some v else lookup k' m := by
  induction m with
  | nil => simp [insert, lookup]
  | cons e rest ih =>
    obtain ⟨l, w⟩ := e
    unfold insert
    by_cases hlt : k < l
    · simp [hlt, lookup]
    · by_cases heq : k = l
      · subst heq
        by_cases hk : k' = k <;> simp [lookup, hk]
      · rw [if_neg hlt, if_neg heq]
        by_cases hk : k' = l
        · subst hk
          simp [lookup, Ne.symm heq]
        · simp [lookup, hk, ih]

theorem lookup_erase (k k' : κ) (m : List (κ × α)) :
    lookup k' (erase k m) = if k' = k then none else lookup k' m := by
  induction m with
  | nil => simp [erase]
  | cons e rest ih =>
    obtain ⟨l, w⟩ := e
    unfold erase at ih ⊢
    by_cases hl : l = k
    · subst hl
      rw [List.filter_cons_of_neg (by simp), ih, lookup_cons]
      by_cases hk : k' = l <;> simp [hk]
    · rw [List.filter_cons_of_pos (by simp [hl]), lookup_cons, lookup_cons, ih]
      by_cases hk : k' = l
      · simp [hk, hl]
      · simp [hk]

theorem mem_of_lookup {k : κ} {v : α} {m : List (κ × α)}
    (h : lookup k m = some v) : (k, v) ∈ m := by
  induction m with
  | nil => simp at h
  | cons e rest ih =>
    rw [lookup_cons] at h
    by_cases hk : k = e.1
    · simp only [hk, if_true, Option.some.injEq] at h
      simp [hk, ← h]
    · rw [if_neg hk] at h
      exact List.mem_cons_of_mem _ (ih h)

theorem lookup_eq_none {k : κ} {m : List (κ × α)} : lookup k m = none ↔ ∀ e ∈ m, e.1 ≠ k := by
  induction m with
  | nil => simp
  | cons e rest ih =>
    rw [lookup_cons]
    by_cases hk : k = e.1
    · simp [hk]
    · simp [hk, ih, Ne.symm hk]

theorem lookup_of_mem {k : κ} {v : α} {m : List (κ × α)} (hs : Sorted m)
    (h : (k, v) ∈ m) : lookup k m = some v := by
  induction m with
  | nil => simp at h
  | cons e rest ih =>
    obtain ⟨hlt, hrest⟩ := sorted_cons.mp hs
    rw [lookup_cons]
    rcases List.mem_cons.mp h with heq | hmem
    · simp [← heq]
    · have hne : k ≠ e.1 := (hlt _ hmem).ne'
      rw [if_neg hne]
      exact ih hrest hmem

theorem lookup_eq_some {k : κ} {v : α} {m : List (κ × α)} (hs : Sorted m) :
    lookup k m = some v ↔ (k, v) ∈ m :=
  ⟨mem_of_lookup, lookup_of_mem hs⟩

theorem mem_insert {k : κ} {v : α} {m : List (κ × α)} {e : κ × α}
    (h : e ∈ insert k v m) : e = (k, v) ∨ e ∈ m := by
  induction m with
  | nil => simpa [insert] using h
  | cons f rest ih =>
    unfold insert at h
    split_ifs at h with hlt heq
    · simpa using h
    · rcases List.mem_cons.mp h with he | he
      · exact Or.inl he
      · exact Or.inr (List.mem_cons_of_mem _ he)
    · rcases List.mem_cons.mp h with he | he
      · exact Or.inr (he ▸ List.mem_cons_self)
      · exact (ih he).imp_right (List.mem_cons_of_mem _)

theorem sorted_insert {m : List (κ × α)} (hs : Sorted m) (k : κ) (v : α) :
    Sorted (insert k v m) := by
  induction m with
  | nil => simp [insert, Sorted]
  | cons e rest ih =>
    obtain ⟨hlt, hrest⟩ := sorted_cons.mp hs
    unfold insert
    split_ifs with hk heq
    · refine sorted_cons.mpr ⟨?_, hs⟩
      intro f hf
      rcases List.mem_cons.mp hf with rfl | hf
      · exact hk
      · exact lt_trans hk (hlt f hf)
    · exact sorted_cons.mpr ⟨fun f hf => heq ▸ hlt f hf, hrest⟩
    · refine sorted_cons.mpr ⟨?_, ih hrest⟩
      intro f hf
      rcases mem_insert hf with rfl | hf
      · exact lt_of_le_of_ne (not_lt.mp hk) (Ne.symm heq)
      · exact hlt f hf

theorem sorted_filter {m : List (κ × α)} (hs : Sorted m) (p : κ × α → Bool) : Sorted (m.filter p) :=
  List.Pairwise.filter p hs

theorem sorted_erase {m : List (κ × α)} (hs : Sorted m) (k : κ) : Sorted (erase k m) :=
  sorted_filter hs _

theorem nodup_of_sorted {m : List (κ × α)} (hs : Sorted m) : (m.map Prod.fst).Nodup := by
  rw [List.nodup_iff_pairwise_ne, List.pairwise_map]
  exact hs.imp ne_of_lt

/-- **Sorted lists are determined by their lookups.** -/
theorem ext_of_lookup {m₁ m₂ : List (κ × α)} (h₁ : Sorted m₁) (h₂ : Sorted m₂)
    (h : ∀ k, lookup k m₁ = lookup k m₂) : m₁ = m₂ := by
  have hmem : ∀ e : κ × α, e ∈ m₁ ↔ e ∈ m₂ := by
    intro ⟨k, v⟩
    rw [← lookup_eq_some h₁, ← lookup_eq_some h₂, h k]
  have hperm : m₁.Perm m₂ :=
    (List.perm_ext_iff_of_nodup (List.Nodup.of_map _ (nodup_of_sorted h₁))
      (List.Nodup.of_map _ (nodup_of_sorted h₂))).mpr hmem
  refine hperm.eq_of_pairwise ?_ h₁ h₂
  intro a b _ _ hab hba
  exact absurd hba (lt_asymm hab)

theorem ext_of_erase {m₁ m₂ : List (κ × α)} (h₁ : Sorted m₁) (h₂ : Sorted m₂) {k : κ}
    (hrest : erase k m₁ = erase k m₂) (hk : lookup k m₁ = lookup k m₂) : m₁ = m₂ := by
  refine ext_of_lookup h₁ h₂ fun k' => ?_
  by_cases heq : k' = k
  · rw [heq, hk]
  · have h := congrArg (lookup k') hrest
    rwa [lookup_erase, lookup_erase, if_neg heq, if_neg heq] at h

end Assoc

/-- A map from `κ` to `α` that iterates in key order. -/
structure OrdMap (κ α : Type) [LinearOrder κ] where
  entries : List (κ × α)
  sorted : Assoc.Sorted entries

namespace OrdMap

variable {κ α : Type} [LinearOrder κ]

instance [DecidableEq α] : DecidableEq (OrdMap κ α) := fun m₁ m₂ =>
  decidable_of_iff (m₁.entries = m₂.entries) ⟨fun h => by cases m₁; cases m₂; cases h; rfl,
    fun h => congrArg entries h⟩

def empty : OrdMap κ α := ⟨[], Assoc.sorted_nil⟩

def get? (m : OrdMap κ α) (k : κ) : Option α := Assoc.lookup k m.entries

def contains (m : OrdMap κ α) (k : κ) : Bool := (m.get? k).isSome

def insert (m : OrdMap κ α) (k : κ) (v : α) : OrdMap κ α :=
  ⟨Assoc.insert k v m.entries, Assoc.sorted_insert m.sorted k v⟩

def filter (m : OrdMap κ α) (p : κ × α → Bool) : OrdMap κ α :=
  ⟨m.entries.filter p, Assoc.sorted_filter m.sorted p⟩

def erase (m : OrdMap κ α) (k : κ) : OrdMap κ α :=
  ⟨Assoc.erase k m.entries, Assoc.sorted_erase m.sorted k⟩

def keys (m : OrdMap κ α) : List κ := m.entries.map Prod.fst

def values (m : OrdMap κ α) : List α := m.entries.map Prod.snd

def isEmpty (m : OrdMap κ α) : Bool := m.entries.isEmpty

@[simp] theorem get?_empty (k : κ) : (empty : OrdMap κ α).get? k = none := rfl

@[simp] theorem get?_insert (m : OrdMap κ α) (k k' : κ) (v : α) :
    (m.insert k v).get? k' = if k' = k then some v else m.get? k' :=
  Assoc.lookup_insert k k' v m.entries

@[simp] theorem get?_erase (m : OrdMap κ α) (k k' : κ) :
    (m.erase k).get? k' = if k' = k then none else m.get? k' :=
  Assoc.lookup_erase k k' m.entries

theorem mem_entries {m : OrdMap κ α} {k : κ} {v : α} : (k, v) ∈ m.entries ↔ m.get? k = some v :=
  (Assoc.lookup_eq_some m.sorted).symm

theorem contains_iff {m : OrdMap κ α} {k : κ} : m.contains k = true ↔ ∃ v, m.get? k = some v :=
  Option.isSome_iff_exists

theorem get?_filter (m : OrdMap κ α) (p : κ × α → Bool) (k : κ) :
    (m.filter p).get? k = (m.get? k).filter fun v => p (k, v) := by
  cases hv : m.get? k with
  | none =>
    refine Assoc.lookup_eq_none.mpr fun e he => ?_
    exact Assoc.lookup_eq_none.mp hv e (List.mem_of_mem_filter he)
  | some v =>
    by_cases hp : p (k, v) = true
    · rw [Option.filter_some, if_pos hp]
      exact mem_entries.mp (List.mem_filter.mpr ⟨mem_entries.mpr hv, hp⟩)
    · rw [Option.filter_some, if_neg hp]
      refine Assoc.lookup_eq_none.mpr fun e he hk => ?_
      obtain ⟨hmem, hpe⟩ := List.mem_filter.mp he
      obtain ⟨k', w⟩ := e
      cases hk
      rw [mem_entries.mp hmem, Option.some.injEq] at hv
      exact hp (hv ▸ hpe)

theorem nodup_keys (m : OrdMap κ α) : m.keys.Nodup := Assoc.nodup_of_sorted m.sorted

theorem mem_keys {m : OrdMap κ α} {k : κ} : k ∈ m.keys ↔ m.contains k = true := by
  rw [contains_iff]
  constructor
  · intro h
    obtain ⟨⟨_, v⟩, hmem, rfl⟩ := List.mem_map.mp h
    exact ⟨v, mem_entries.mp hmem⟩
  · rintro ⟨v, hv⟩
    exact List.mem_map.mpr ⟨(k, v), mem_entries.mpr hv, rfl⟩

theorem mem_values {m : OrdMap κ α} {v : α} : v ∈ m.values ↔ ∃ k, m.get? k = some v := by
  constructor
  · intro h
    obtain ⟨⟨k, _⟩, hmem, rfl⟩ := List.mem_map.mp h
    exact ⟨k, mem_entries.mp hmem⟩
  · rintro ⟨k, hk⟩
    exact List.mem_map.mpr ⟨(k, v), mem_entries.mpr hk, rfl⟩

/-! ### Collecting -/

section LastOf

variable {κ' : Type} [DecidableEq κ']

/-- The last value given for a key. -/
def lastOf (k : κ') (entries : List (κ' × α)) : Option α :=
  (entries.reverse.find? fun e => e.1 = k).map Prod.snd

theorem lastOf_append (k : κ') (xs ys : List (κ' × α)) :
    lastOf k (xs ++ ys) = (lastOf k ys).or (lastOf k xs) := by
  unfold lastOf
  rw [List.reverse_append, List.find?_append]
  cases ys.reverse.find? fun e => e.1 = k <;> simp

theorem lastOf_eq_none {k : κ'} {entries : List (κ' × α)} :
    lastOf k entries = none ↔ ∀ e ∈ entries, e.1 ≠ k := by
  simp [lastOf]

theorem mem_of_lastOf {k : κ'} {v : α} {entries : List (κ' × α)} (h : lastOf k entries = some v) :
    (k, v) ∈ entries := by
  obtain ⟨e, he, rfl⟩ := Option.map_eq_some_iff.mp h
  have hk : e.1 = k := by simpa using List.find?_some he
  exact hk ▸ List.mem_reverse.mp (List.mem_of_find?_eq_some he)

theorem lastOf_of_mem {k : κ'} {v : α} {entries : List (κ' × α)}
    (hnodup : (entries.map Prod.fst).Nodup) (h : (k, v) ∈ entries) : lastOf k entries = some v := by
  cases hlast : lastOf k entries with
  | none => exact absurd rfl (lastOf_eq_none.mp hlast (k, v) h)
  | some w =>
    have hw := List.inj_on_of_nodup_map hnodup (mem_of_lastOf hlast) h rfl
    rw [(Prod.mk.inj hw).2]

theorem lastOf_flatMap {β : Type} {k : κ'} {f : β → List (κ' × α)} {bs : List β} {b : β}
    (hnodup : bs.Nodup) (hb : b ∈ bs) (honly : ∀ c ∈ bs, c ≠ b → ∀ e ∈ f c, e.1 ≠ k) :
    lastOf k (bs.flatMap f) = lastOf k (f b) := by
  have hnone : ∀ cs : List β, (∀ c ∈ cs, c ∈ bs ∧ c ≠ b) → lastOf k (cs.flatMap f) = none := by
    intro cs hcs
    refine lastOf_eq_none.mpr fun e he => ?_
    obtain ⟨c, hc, hec⟩ := List.mem_flatMap.mp he
    exact honly c (hcs c hc).1 (hcs c hc).2 e hec
  obtain ⟨before, after, rfl⟩ := List.append_of_mem hb
  have hparts := List.nodup_append.mp hnodup
  rw [List.flatMap_append, List.flatMap_cons, lastOf_append, lastOf_append,
    hnone after fun c hc => ⟨by simp [hc], ?_⟩, hnone before fun c hc => ⟨by simp [hc], ?_⟩]
  · simp
  · rintro rfl
    exact hparts.2.2 c hc c List.mem_cons_self rfl
  · rintro rfl
    exact (List.nodup_cons.mp hparts.2.1).1 hc

end LastOf

/-- A map of the pairs in order, a later one replacing an earlier one of its key. -/
def ofList (entries : List (κ × α)) : OrdMap κ α :=
  entries.foldl (fun m e => m.insert e.1 e.2) empty

@[simp] theorem get?_ofList (entries : List (κ × α)) (k : κ) :
    (ofList entries).get? k = lastOf k entries := by
  have hfold : ∀ (entries : List (κ × α)) (m : OrdMap κ α),
      (entries.foldl (fun m e => m.insert e.1 e.2) m).get? k = (lastOf k entries).or (m.get? k) := by
    intro entries
    induction entries with
    | nil => intro m; simp [lastOf]
    | cons e entries ih =>
      intro m
      rw [List.foldl_cons, ih, get?_insert, ← List.singleton_append, lastOf_append]
      by_cases hk : k = e.1
      · simp [hk, lastOf]
      · simp [hk, lastOf, Ne.symm hk]
  rw [ofList, hfold]
  simp

theorem ext_of_get? {m₁ m₂ : OrdMap κ α} (h : ∀ k, m₁.get? k = m₂.get? k) : m₁ = m₂ := by
  have hentries : m₁.entries = m₂.entries := Assoc.ext_of_lookup m₁.sorted m₂.sorted h
  cases m₁
  cases m₂
  cases hentries
  rfl

/-! ### First come -/

/-- The values under their names; of several with one name the first stays. -/
def ofFirst (name : α → κ) (values : List α) : OrdMap κ α :=
  values.foldl (fun m v => if m.contains (name v) then m else m.insert (name v) v) empty

theorem get?_ofFirst (name : α → κ) (values : List α) (k : κ) :
    (ofFirst name values).get? k = values.find? fun v => name v = k := by
  have hfold : ∀ (values : List α) (m : OrdMap κ α),
      (values.foldl (fun m v => if m.contains (name v) then m else m.insert (name v) v) m).get? k
        = (m.get? k).or (values.find? fun v => name v = k) := by
    intro values
    induction values with
    | nil => simp
    | cons v values ih =>
      intro m
      rw [List.foldl_cons, ih, List.find?_cons]
      by_cases hname : name v = k
      · subst hname
        cases hheld : m.get? (name v) with
        | none => simp [contains, hheld, get?_insert]
        | some held => simp [contains, hheld]
      · have hother : ¬ k = name v := fun h => hname h.symm
        split_ifs with hheld
        · simp [hname]
        · simp [hname, get?_insert, hother]
  rw [ofFirst, hfold]
  simp

theorem mem_ofFirst {name : α → κ} {values : List α} {v : α} :
    v ∈ (ofFirst name values).values ↔ values.find? (fun w => name w = name v) = some v := by
  rw [mem_values]
  constructor
  · rintro ⟨k, h⟩
    rw [get?_ofFirst] at h
    have hname : name v = k := by simpa using List.find?_some h
    rw [hname]
    exact h
  · intro h
    exact ⟨name v, by rw [get?_ofFirst]; exact h⟩

/-! ### Sets -/

/-- The keys in order, each once. -/
def keySet (ks : List κ) : List κ :=
  (ks.foldl (fun m k => m.insert k ()) (empty : OrdMap κ Unit)).keys

theorem mem_keySet {ks : List κ} {k : κ} : k ∈ keySet ks ↔ k ∈ ks := by
  have hfold : ∀ (ks : List κ) (m : OrdMap κ Unit),
      k ∈ (ks.foldl (fun m k => m.insert k ()) m).keys ↔ k ∈ m.keys ∨ k ∈ ks := by
    intro ks
    induction ks with
    | nil => simp
    | cons l ks ih =>
      intro m
      rw [List.foldl_cons, ih, mem_keys, mem_keys, contains_iff, contains_iff, get?_insert,
        List.mem_cons]
      by_cases hkl : k = l <;> simp [hkl]
  rw [keySet, hfold]
  simp [keys, empty]

theorem nodup_keySet (ks : List κ) : (keySet ks).Nodup := nodup_keys _

theorem sorted_keySet (ks : List κ) : (keySet ks).Pairwise (· < ·) := by
  unfold keySet keys
  exact List.pairwise_map.mpr (OrdMap.sorted _)

/-- The pairs in order of their first component and then of their second, each once. -/
def pairSet (ps : List (κ × κ)) : List (κ × κ) :=
  (ps.foldl (fun m p => m.insert [p.1, p.2] p) (empty : OrdMap (List κ) (κ × κ))).values

theorem mem_pairSet {ps : List (κ × κ)} {p : κ × κ} : p ∈ pairSet ps ↔ p ∈ ps := by
  have hfold : ∀ (ps : List (κ × κ)) (m : OrdMap (List κ) (κ × κ)),
      (∀ q, m.get? [q.1, q.2] = some q ∨ m.get? [q.1, q.2] = none) →
      (∀ ks q, m.get? ks = some q → ks = [q.1, q.2]) →
      (p ∈ (ps.foldl (fun m p => m.insert [p.1, p.2] p) m).values
        ↔ m.get? [p.1, p.2] = some p ∨ p ∈ ps) := by
    intro ps
    induction ps with
    | nil =>
      intro m _ hkeys
      simp only [List.foldl_nil, values, List.mem_map, List.not_mem_nil, or_false]
      constructor
      · rintro ⟨⟨ks, q⟩, hmem, rfl⟩
        have hget := mem_entries.mp hmem
        rwa [← hkeys ks q hget]
      · intro hget
        exact ⟨([p.1, p.2], p), mem_entries.mpr hget, rfl⟩
    | cons q ps ih =>
      intro m hsome hkeys
      rw [List.foldl_cons, ih, get?_insert, List.mem_cons]
      · by_cases hpq : p = q
        · simp [hpq]
        · have hne : [p.1, p.2] ≠ [q.1, q.2] := by
            intro h
            injection h with h₁ h₂
            injection h₂ with h₂
            exact hpq (Prod.ext h₁ h₂)
          simp [hne, hpq]
      · intro r
        rw [get?_insert]
        split
        · rename_i h
          injection h with h₁ h₂
          injection h₂ with h₂
          exact .inl (congrArg some (Prod.ext h₁ h₂).symm)
        · exact hsome r
      · intro ks r
        rw [get?_insert]
        split
        · rename_i h
          intro hr
          rw [h, ← Option.some.inj hr]
        · exact hkeys ks r
  rw [pairSet, hfold ps empty (fun _ => .inr rfl) (fun _ _ h => by cases h)]
  simp

theorem nodup_pairSet (ps : List (κ × κ)) : (pairSet ps).Nodup := by
  have hfold : ∀ (ps : List (κ × κ)) (m : OrdMap (List κ) (κ × κ)),
      (∀ ks q, m.get? ks = some q → ks = [q.1, q.2]) →
      ∀ ks q, (ps.foldl (fun m p => m.insert [p.1, p.2] p) m).get? ks = some q →
        ks = [q.1, q.2] := by
    intro ps
    induction ps with
    | nil => exact fun m hm => hm
    | cons p ps ih =>
      intro m hm
      refine ih _ ?_
      intro ks q hget
      rw [get?_insert] at hget
      split at hget
      next hks => rw [hks, ← Option.some.inj hget]
      next => exact hm ks q hget
  have hkeys := hfold ps empty (by simp)
  have hmap : ((pairSet ps).map fun p => [p.1, p.2])
      = (ps.foldl (fun m p => m.insert [p.1, p.2] p) empty).keys := by
    rw [pairSet, values, keys, List.map_map]
    refine List.map_congr_left ?_
    intro entry hentry
    exact (hkeys entry.1 entry.2 (mem_entries.mp hentry)).symm
  refine List.Nodup.of_map (fun p => [p.1, p.2]) ?_
  rw [hmap]
  exact nodup_keys _

end OrdMap
