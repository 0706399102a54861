/-
Tables with a primary key, and what they add up to.

A table is a list of rows with distinct keys.  The three writes are the ones a SQL
`INSERT` offers on a conflicting key: replace what is there (`put`), leave it and drop
the new row (`insertNew`), or combine the two (`upsert`).  `total` sums a quantity over
the rows whose key satisfies a predicate; each write has one lemma about it, so that a
ledger's balance is followed write by write and never by unfolding a table.
-/
import Mathlib.Algebra.BigOperators.Group.List.Basic
import Mathlib.Data.List.Find
import Mathlib.Data.List.Nodup
import Mathlib.Data.List.Perm.Subperm

/-- Rows with distinct keys. -/
structure Table (κ α : Type) where
  rows : List (κ × α)
  nodup : (rows.map Prod.fst).Nodup

namespace Table

variable {κ α M : Type}

def empty : Table κ α := ⟨[], List.nodup_nil⟩

/-- The keys of the table. -/
def keys (t : Table κ α) : List κ := t.rows.map Prod.fst

/-- The sum of `f` over the rows whose key satisfies `p`. -/
def total [AddMonoid M] (t : Table κ α) (p : κ → Bool) (f : α → M) : M :=
  ((t.rows.filter fun r => p r.1).map fun r => f r.2).sum

@[simp] theorem total_empty [AddMonoid M] (p : κ → Bool) (f : α → M) :
    (empty : Table κ α).total p f = 0 := rfl

section Writes

variable [DecidableEq κ]

def get? (t : Table κ α) (k : κ) : Option α := (t.rows.find? fun r => r.1 = k).map Prod.snd

/-- Replace the row of `k`, or append one. -/
private def alterRows (k : κ) (g : Option α → α) : List (κ × α) → List (κ × α)
  | [] => [(k, g none)]
  | (k', v) :: rest => if k' = k then (k, g (some v)) :: rest else (k', v) :: alterRows k g rest

private theorem alterRows_keys (k : κ) (g : Option α → α) (rows : List (κ × α)) :
    (alterRows k g rows).map Prod.fst
      = if k ∈ rows.map Prod.fst then rows.map Prod.fst else rows.map Prod.fst ++ [k] := by
  induction rows with
  | nil => simp [alterRows]
  | cons r rest ih =>
    obtain ⟨k', v⟩ := r
    unfold alterRows
    by_cases hk : k' = k
    · simp [hk]
    · simp only [if_neg hk, List.map_cons, ih, List.mem_cons, Ne.symm hk, false_or]
      by_cases hmem : k ∈ rest.map Prod.fst <;> simp [hmem]

/-- `INSERT … ON CONFLICT DO UPDATE`: the new row is computed from the one that is there. -/
def upsert (t : Table κ α) (k : κ) (g : Option α → α) : Table κ α where
  rows := alterRows k g t.rows
  nodup := by
    rw [alterRows_keys]
    by_cases hk : k ∈ t.rows.map Prod.fst
    · rw [if_pos hk]
      exact t.nodup
    · rw [if_neg hk]
      exact List.nodup_append.mpr ⟨t.nodup, List.nodup_singleton k,
        fun a ha b hb heq => hk (List.mem_singleton.mp hb ▸ heq ▸ ha)⟩

/-- Replace the row of `k`. -/
def put (t : Table κ α) (k : κ) (v : α) : Table κ α := t.upsert k fun _ => v

def contains (t : Table κ α) (k : κ) : Bool := (t.get? k).isSome

/-- `INSERT … ON CONFLICT DO NOTHING`; `none` where the key is taken. -/
def insertNew? (t : Table κ α) (k : κ) (v : α) : Option (Table κ α) :=
  if t.contains k then none else some (t.put k v)

theorem get?_upsert (t : Table κ α) (k k' : κ) (g : Option α → α) :
    (t.upsert k g).get? k' = if k' = k then some (g (t.get? k)) else t.get? k' := by
  have h : ∀ rows : List (κ × α), ((alterRows k g rows).find? fun r => r.1 = k').map Prod.snd
        = if k' = k then some (g ((rows.find? fun r => r.1 = k).map Prod.snd))
          else (rows.find? fun r => r.1 = k').map Prod.snd := by
    intro rows
    induction rows with
    | nil =>
      by_cases hk : k' = k
      · simp [alterRows, hk]
      · simp [alterRows, hk, Ne.symm hk]
    | cons r rest ih =>
      obtain ⟨l, v⟩ := r
      unfold alterRows
      by_cases hl : l = k
      · subst hl
        by_cases hk : k' = l
        · simp [hk]
        · simp [hk, Ne.symm hk]
      · rw [if_neg hl]
        by_cases hk' : l = k'
        · subst hk'
          simp [hl]
        · simp [hk', hl, ih]
  exact h t.rows

@[simp] theorem get?_put (t : Table κ α) (k k' : κ) (v : α) :
    (t.put k v).get? k' = if k' = k then some v else t.get? k' :=
  get?_upsert t k k' _

theorem of_get?_put {t : Table κ α} {k k' : κ} {v v' : α} (h : (t.put k v).get? k' = some v') :
    k' = k ∧ v' = v ∨ k' ≠ k ∧ t.get? k' = some v' := by
  rw [get?_put] at h
  split at h
  · next hsame => exact .inl ⟨hsame, (Option.some.inj h).symm⟩
  · next hother => exact .inr ⟨hother, h⟩

@[simp] theorem get?_empty (k : κ) : (empty : Table κ α).get? k = none := rfl

theorem contains_iff {t : Table κ α} {k : κ} : t.contains k = true ↔ ∃ v, t.get? k = some v :=
  Option.isSome_iff_exists

theorem get?_of_mem {t : Table κ α} {k : κ} {v : α} (h : (k, v) ∈ t.rows) : t.get? k = some v := by
  have hsome : (t.rows.find? fun r => r.1 = k).isSome = true :=
    List.find?_isSome.mpr ⟨(k, v), h, by simp⟩
  obtain ⟨⟨k', w⟩, hr⟩ := Option.isSome_iff_exists.mp hsome
  have hkey : k' = k := by simpa using List.find?_some hr
  have heq : ((k', w) : κ × α) = (k, v) :=
    List.inj_on_of_nodup_map t.nodup (List.mem_of_find?_eq_some hr) h hkey
  obtain ⟨rfl, rfl⟩ := Prod.mk.inj heq
  rw [get?, hr]
  rfl

theorem mem_rows {t : Table κ α} {k : κ} {v : α} : (k, v) ∈ t.rows ↔ t.get? k = some v := by
  refine ⟨get?_of_mem, fun h => ?_⟩
  obtain ⟨⟨k', w⟩, hr, rfl⟩ := Option.map_eq_some_iff.mp h
  have hkey : k' = k := by simpa using List.find?_some hr
  exact hkey ▸ List.mem_of_find?_eq_some hr

theorem mem_keys {t : Table κ α} {k : κ} : k ∈ t.keys ↔ t.contains k = true := by
  rw [contains_iff]
  constructor
  · intro h
    obtain ⟨⟨_, v⟩, hmem, rfl⟩ := List.mem_map.mp h
    exact ⟨v, mem_rows.mp hmem⟩
  · rintro ⟨v, hv⟩
    exact List.mem_map.mpr ⟨(k, v), mem_rows.mpr hv, rfl⟩

theorem contains_upsert (t : Table κ α) (k k' : κ) (g : Option α → α) :
    (t.upsert k g).contains k' = (decide (k' = k) || t.contains k') := by
  unfold contains
  rw [get?_upsert]
  by_cases hk : k' = k <;> simp [hk]

/-- **An upsert changes the total by what it adds to its own row.** -/
theorem total_upsert [AddCommMonoid M] (t : Table κ α) (k : κ) (g : Option α → α) (p : κ → Bool)
    {f : α → M} {d : M} (hnone : f (g none) = d) (hsome : ∀ v, f (g (some v)) = f v + d) :
    (t.upsert k g).total p f = t.total p f + if p k then d else 0 := by
  have h : ∀ rows : List (κ × α),
      (((alterRows k g rows).filter fun r => p r.1).map fun r => f r.2).sum
        = ((rows.filter fun r => p r.1).map fun r => f r.2).sum + if p k then d else 0 := by
    intro rows
    induction rows with
    | nil => by_cases hp : p k <;> simp [alterRows, hp, hnone]
    | cons r rest ih =>
      obtain ⟨l, v⟩ := r
      unfold alterRows
      by_cases hl : l = k
      · subst hl
        by_cases hp : p l
        · simp [hp, hsome, add_comm, add_assoc]
        · simp [hp]
      · rw [if_neg hl]
        by_cases hp : p l = true
        · rw [List.filter_cons_of_pos (by simpa using hp),
            List.filter_cons_of_pos (by simpa using hp)]
          simp only [List.map_cons, List.sum_cons, ih, add_assoc]
        · rw [List.filter_cons_of_neg (by simpa using hp),
            List.filter_cons_of_neg (by simpa using hp), ih]
  exact h t.rows

theorem total_eq_get? [AddMonoid M] (t : Table κ M) (k : κ) :
    t.total (fun k' => decide (k' = k)) id = (t.get? k).getD 0 := by
  have h : ∀ rows : List (κ × M), (rows.map Prod.fst).Nodup →
      ((rows.filter fun r => decide (r.1 = k)).map fun r => id r.2).sum
        = ((rows.find? fun r => r.1 = k).map Prod.snd).getD 0 := by
    intro rows
    induction rows with
    | nil => intro _; rfl
    | cons r rest ih =>
      intro hnodup
      rw [List.map_cons, List.nodup_cons] at hnodup
      by_cases hk : r.1 = k
      · have hrest : rest.filter (fun r => decide (r.1 = k)) = [] := by
          rw [List.filter_eq_nil_iff]
          intro r' hr' heq
          exact hnodup.1 (hk ▸ of_decide_eq_true heq ▸ List.mem_map_of_mem hr')
        simp [hk, hrest]
      · rw [List.filter_cons_of_neg (by simpa using hk),
          List.find?_cons_of_neg (by simpa using hk), ih hnodup.2]
  exact h t.rows t.nodup

theorem total_insertNew? [AddCommMonoid M] {t t' : Table κ α} {k : κ} {v : α}
    (h : t.insertNew? k v = some t') (p : κ → Bool) (f : α → M) :
    t'.total p f = t.total p f + if p k then f v else 0 := by
  unfold insertNew? at h
  rw [Option.ite_none_left_eq_some, Option.some.injEq] at h
  obtain ⟨hfresh, rfl⟩ := h
  have habsent : ∀ r ∈ t.rows, r.1 ≠ k := by
    intro r hr heq
    exact hfresh (mem_keys.mp (heq ▸ List.mem_map_of_mem hr))
  have happend : ∀ rows : List (κ × α), (∀ r ∈ rows, r.1 ≠ k) →
      alterRows k (fun _ => v) rows = rows ++ [(k, v)] := by
    intro rows
    induction rows with
    | nil => intro _; rfl
    | cons r rest ih =>
      intro hrows
      obtain ⟨l, w⟩ := r
      unfold alterRows
      rw [if_neg (hrows (l, w) List.mem_cons_self),
        ih fun r hr => hrows r (List.mem_cons_of_mem _ hr), List.cons_append]
  show (((alterRows k _ t.rows).filter fun r => p r.1).map fun r => f r.2).sum = _
  rw [happend t.rows habsent]
  by_cases hp : p k <;> simp [total, hp]

theorem get?_insertNew? {t t' : Table κ α} {k : κ} {v : α} (h : t.insertNew? k v = some t')
    (k' : κ) : t'.get? k' = if k' = k then some v else t.get? k' := by
  unfold insertNew? at h
  rw [Option.ite_none_left_eq_some, Option.some.injEq] at h
  obtain ⟨-, rfl⟩ := h
  exact get?_put t k k' v

theorem insertNew?_eq_none {t : Table κ α} {k : κ} {v : α} :
    t.insertNew? k v = none ↔ t.contains k = true := by
  unfold insertNew?
  by_cases h : t.contains k <;> simp [h]

theorem contains_of_insertNew? {t t' : Table κ α} {k : κ} {v : α}
    (h : t.insertNew? k v = some t') : t.contains k = false := by
  rw [← Bool.not_eq_true, ← insertNew?_eq_none (v := v), h]
  exact nofun

/-- `DELETE … WHERE`, of keys. -/
def deleteWhere (t : Table κ α) (p : κ → Bool) : Table κ α where
  rows := t.rows.filter fun r => !p r.1
  nodup := t.nodup.sublist (List.filter_sublist.map Prod.fst)

theorem get?_deleteWhere (t : Table κ α) (p : κ → Bool) (k : κ) :
    (t.deleteWhere p).get? k = if p k then none else t.get? k := by
  unfold get? deleteWhere
  rw [List.find?_filter]
  by_cases hp : p k = true
  · rw [if_pos hp, Option.map_eq_none_iff, List.find?_eq_none]
    intro r _ h
    simp only [Bool.not_eq_true', decide_eq_true_eq] at h
    rw [h.2, hp] at h
    exact Bool.false_ne_true h.1.symm
  · rw [if_neg hp]
    congr 1
    refine List.find?_congr fun r _ => ?_
    by_cases hk : r.1 = k
    · simp [hk, hp]
    · simp [hk]

theorem of_get?_deleteWhere {t : Table κ α} {p : κ → Bool} {k : κ} {v : α}
    (h : (t.deleteWhere p).get? k = some v) : t.get? k = some v := by
  rw [get?_deleteWhere] at h
  split at h
  · cases h
  · exact h

/-- `DELETE … WHERE NOT`, of whole rows. -/
def retain (t : Table κ α) (p : κ → α → Bool) : Table κ α where
  rows := t.rows.filter fun r => p r.1 r.2
  nodup := t.nodup.sublist (List.filter_sublist.map Prod.fst)

theorem get?_retain (t : Table κ α) (p : κ → α → Bool) (k : κ) :
    (t.retain p).get? k = (t.get? k).filter (p k) := by
  refine Option.ext fun v => ?_
  rw [Option.filter_eq_some_iff, ← mem_rows, ← mem_rows]
  exact List.mem_filter

/-- `UPDATE`, of every row. -/
def update (t : Table κ α) (f : κ → α → α) : Table κ α where
  rows := t.rows.map fun r => (r.1, f r.1 r.2)
  nodup := by
    rw [List.map_map]
    exact t.nodup

@[simp] theorem get?_update (t : Table κ α) (f : κ → α → α) (k : κ) :
    (t.update f).get? k = (t.get? k).map (f k) := by
  refine Option.ext fun v => ?_
  rw [← mem_rows, Option.map_eq_some_iff]
  constructor
  · intro h
    obtain ⟨⟨k', w⟩, hmem, heq⟩ := List.mem_map.mp h
    obtain ⟨rfl, rfl⟩ := Prod.mk.inj heq
    exact ⟨w, mem_rows.mp hmem, rfl⟩
  · rintro ⟨w, hw, rfl⟩
    exact List.mem_map.mpr ⟨(k, w), mem_rows.mpr hw, rfl⟩

/-! ### Counting rows -/

/-- `SELECT count(*) … WHERE`. -/
def count (t : Table κ α) (p : κ → α → Bool) : ℕ := t.rows.countP fun r => p r.1 r.2

omit [DecidableEq κ] in
@[simp] theorem count_empty (p : κ → α → Bool) : (empty : Table κ α).count p = 0 := rfl

theorem count_eq_zero {t : Table κ α} {p : κ → α → Bool} (h : t.count p = 0) {k : κ} {v : α}
    (hv : t.get? k = some v) : p k v = false :=
  Bool.eq_false_iff.mpr (List.countP_eq_zero.mp h (k, v) (mem_rows.mpr hv))

theorem count_le {t t' : Table κ α} {p q : κ → α → Bool}
    (h : ∀ k v, t.get? k = some v → p k v = true → ∃ w, t'.get? k = some w ∧ q k w = true) :
    t.count p ≤ t'.count q := by
  have hkeys : ∀ (t : Table κ α) (p : κ → α → Bool),
      t.count p = ((t.rows.filter fun r => p r.1 r.2).map Prod.fst).length := by
    intro t p
    rw [List.length_map]
    exact List.countP_eq_length_filter
  rw [hkeys t p, hkeys t' q]
  refine (List.subperm_of_subset (t.nodup.sublist (List.filter_sublist.map _))
    fun k hk => ?_).length_le
  obtain ⟨⟨_, v⟩, hmem, rfl⟩ := List.mem_map.mp hk
  obtain ⟨hrow, hp⟩ := List.mem_filter.mp hmem
  obtain ⟨w, hw, hq⟩ := h _ v (mem_rows.mp hrow) hp
  exact List.mem_map.mpr ⟨(_, w), List.mem_filter.mpr ⟨mem_rows.mpr hw, hq⟩, rfl⟩

theorem count_except (t : Table κ α) (k : κ) (p : κ → α → Bool) :
    t.count p = t.count (fun k' v => p k' v && decide (k' ≠ k))
      + (t.get? k).elim 0 (fun v => (p k v).toNat) := by
  have h : ∀ rows : List (κ × α), (rows.map Prod.fst).Nodup → rows.countP (fun r => p r.1 r.2)
        = rows.countP (fun r => p r.1 r.2 && decide (r.1 ≠ k))
          + ((rows.find? fun r => r.1 = k).map Prod.snd).elim 0 (fun v => (p k v).toNat) := by
    intro rows
    induction rows with
    | nil => intro _; rfl
    | cons r rest ih =>
      intro hnodup
      rw [List.map_cons, List.nodup_cons] at hnodup
      by_cases hk : r.1 = k
      · have hrest : rest.countP (fun r => p r.1 r.2)
            = rest.countP (fun r => p r.1 r.2 && decide (r.1 ≠ k)) := by
          refine List.countP_congr fun r' hr' => ?_
          have hne : r'.1 ≠ k := fun heq => hnodup.1 (hk ▸ heq ▸ List.mem_map_of_mem hr')
          simp [hne]
        rw [List.countP_cons, List.countP_cons, List.find?_cons_of_pos (by simpa using hk), hrest,
          ← hk]
        cases hp : p r.1 r.2 <;> simp [hp]
      · rw [List.countP_cons, List.countP_cons, List.find?_cons_of_neg (by simpa using hk),
          ih hnodup.2]
        simp only [hk, ne_eq, not_false_eq_true, decide_true, Bool.and_true]
        omega
  exact h t.rows t.nodup

end Writes

end Table
