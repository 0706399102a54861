/-
A bounded map that keeps what was used last.

Beside the entries stands the list of their keys, from the one used longest ago.  A use moves its
key to the back.  A new entry goes to the back too, and keys are then taken off the front as long
as there are more entries than fit.  What this keeps can be said without the list: of all keys ever
used, in the order of their last use, the last ones that fit.
-/
import Mathlib.Data.List.Dedup
import Mathlib.Data.List.DropRight
import Brocade.Lib.Table

/-! ### The last few of a list -/

namespace List

variable {α : Type*}

theorem rtake_of_length_le {n : ℕ} {l : List α} (h : l.length ≤ n) : l.rtake n = l := by
  rw [rtake, Nat.sub_eq_zero_of_le h, drop_zero]

theorem length_rtake_le (n : ℕ) (l : List α) : (l.rtake n).length ≤ n := by
  rw [rtake, length_drop]
  omega

theorem rtake_append {n : ℕ} {l : List α} (h : n ≤ l.length) (ahead : List α) :
    (ahead ++ l).rtake n = l.rtake n := by
  rw [rtake, rtake, length_append, Nat.add_sub_assoc h, drop_append,
    drop_eq_nil_of_le (Nat.le_add_right _ _), nil_append, Nat.add_sub_cancel_left]

/-- A list is some part ahead of its last few, and none if these are fewer than asked for. -/
theorem exists_append_rtake (n : ℕ) (l : List α) :
    ∃ ahead, l = ahead ++ l.rtake n ∧ (ahead = [] ∨ (l.rtake n).length = n) := by
  refine ⟨l.take (l.length - n), (take_append_drop _ l).symm, ?_⟩
  by_cases hlength : l.length ≤ n
  · left
    rw [Nat.sub_eq_zero_of_le hlength, take_zero]
  · right
    rw [rtake, length_drop]
    omega

variable [DecidableEq α]

theorem rtake_erase_concat {n : ℕ} {l : List α} {a : α} (hnodup : l.Nodup) (ha : a ∈ l.rtake n) :
    (l.erase a ++ [a]).rtake n = (l.rtake n).erase a ++ [a] := by
  obtain ⟨ahead, hl, hfull⟩ := exists_append_rtake n l
  have hlength : ((l.rtake n).erase a ++ [a]).length = (l.rtake n).length := by
    have hpos := length_pos_of_mem ha
    rw [length_append, length_erase_of_mem ha, length_singleton]
    omega
  have hahead : a ∉ ahead := by
    rw [hl] at hnodup
    exact fun hmem => (nodup_append.mp hnodup).2.2 a hmem a ha rfl
  have herase : l.erase a ++ [a] = ahead ++ ((l.rtake n).erase a ++ [a]) := by
    conv_lhs => rw [hl, erase_append_right _ hahead, append_assoc]
  rw [herase]
  rcases hfull with hnone | hfull
  · rw [hnone, nil_append]
    exact rtake_of_length_le (hlength.trans_le (length_rtake_le n l))
  · rw [rtake_append (hlength.trans hfull).ge]
    exact rtake_of_length_le (hlength.trans hfull).le

theorem rtake_concat_of_notMem {n : ℕ} {l : List α} {a : α} (ha : a ∉ l.rtake n) :
    (l.erase a ++ [a]).rtake n = (l.rtake n ++ [a]).rtake n := by
  obtain ⟨ahead, hl, hfull⟩ := exists_append_rtake n l
  rcases hfull with hnone | hfull
  · have hall : l = l.rtake n := by rwa [hnone, nil_append] at hl
    rw [← hall] at ha ⊢
    rw [erase_of_not_mem ha]
  · have herase : ∃ ahead', l.erase a ++ [a] = ahead' ++ (l.rtake n ++ [a]) := by
      by_cases hmem : a ∈ ahead
      · refine ⟨ahead.erase a, ?_⟩
        conv_lhs => rw [hl, erase_append_left _ hmem, append_assoc]
      · refine ⟨ahead, ?_⟩
        conv_lhs => rw [hl, erase_append_right _ hmem, erase_of_not_mem ha, append_assoc]
    obtain ⟨ahead', herase⟩ := herase
    rw [herase, rtake_append]
    rw [length_append, hfull]
    omega

theorem dedup_concat (l : List α) (a : α) : (l ++ [a]).dedup = l.dedup.erase a ++ [a] := by
  induction l with
  | nil => simp
  | cons b l ih =>
    rw [cons_append]
    by_cases hb : b ∈ l
    · rw [dedup_cons_of_mem hb, dedup_cons_of_mem (mem_append_left _ hb), ih]
    · rw [dedup_cons_of_notMem hb]
      by_cases hba : b = a
      · subst hba
        rw [dedup_cons_of_mem (by simp), ih, erase_cons_head, erase_of_not_mem (by simpa using hb)]
      · rw [dedup_cons_of_notMem (by simp [hb, hba]), ih, erase_cons_tail (by simpa using hba),
          cons_append]

end List

/-! ### The map -/

/-- What is kept, least recently used first. -/
structure Lru (κ α : Type) where
  ready : Table κ α
  lru : List κ

namespace Lru

variable {κ α : Type} [DecidableEq κ] {capacity : ℕ} {m : Lru κ α} {uses : List κ} {k : κ}

def empty : Lru κ α := ⟨.empty, []⟩

/-- A use moves the key to the back. -/
def touch (m : Lru κ α) (k : κ) : Lru κ α := { m with lru := m.lru.erase k ++ [k] }

/-- Take the oldest off until the entries fit; nothing where no key is left to take off. -/
def evict (capacity : ℕ) : List κ → Table κ α → Option (Lru κ α)
  | [], ready => if ready.rows.length ≤ capacity then some ⟨ready, []⟩ else none
  | oldest :: lru, ready =>
    if ready.rows.length ≤ capacity then some ⟨ready, oldest :: lru⟩
    else evict capacity lru (ready.deleteWhere fun key => decide (key = oldest))

def insert (capacity : ℕ) (m : Lru κ α) (k : κ) (v : α) : Option (Lru κ α) :=
  evict capacity (m.lru ++ [k]) (m.ready.put k v)

theorem length_ready {lru : List κ} {ready : Table κ α} (hnodup : lru.Nodup)
    (hkeys : ∀ k, k ∈ lru ↔ ready.contains k = true) : ready.rows.length = lru.length := by
  have hperm : ready.keys.Perm lru :=
    (List.perm_ext_iff_of_nodup ready.nodup hnodup).mpr fun k => Table.mem_keys.trans (hkeys k).symm
  rw [← hperm.length_eq]
  exact (List.length_map ..).symm

theorem evict_spec {lru : List κ} {ready : Table κ α} (hnodup : lru.Nodup)
    (hkeys : ∀ k, k ∈ lru ↔ ready.contains k = true) :
    ∃ m, evict capacity lru ready = some m ∧ m.lru = lru.rtake capacity
      ∧ ∀ k, m.ready.get? k = if k ∈ lru.rtake capacity then ready.get? k else none := by
  have hnone : ∀ {lru : List κ} {ready : Table κ α}, (∀ k, k ∈ lru ↔ ready.contains k = true) →
      ∀ k, ready.get? k = if k ∈ lru then ready.get? k else none := by
    intro lru ready hkeys k
    by_cases hk : k ∈ lru
    · rw [if_pos hk]
    · rw [if_neg hk]
      cases hget : ready.get? k with
      | none => rfl
      | some v => exact absurd ((hkeys k).mpr (Table.contains_iff.mpr ⟨v, hget⟩)) hk
  induction lru generalizing ready with
  | nil =>
    have hlength := length_ready hnodup hkeys
    refine ⟨⟨ready, []⟩, ?_, ?_, ?_⟩
    · rw [evict, if_pos (by rw [hlength]; exact Nat.zero_le _)]
    · rw [List.rtake_nil]
    · rw [List.rtake_nil]
      exact hnone hkeys
  | cons oldest lru ih =>
    have hlength := length_ready hnodup hkeys
    obtain ⟨hoff, hrest⟩ := List.nodup_cons.mp hnodup
    rw [evict]
    by_cases hfits : ready.rows.length ≤ capacity
    · rw [if_pos hfits, List.rtake_of_length_le (hlength ▸ hfits)]
      exact ⟨⟨ready, oldest :: lru⟩, rfl, rfl, hnone hkeys⟩
    · rw [if_neg hfits]
      have hget : ∀ k, (ready.deleteWhere fun key => decide (key = oldest)).get? k
          = if k = oldest then none else ready.get? k := by
        intro k
        rw [Table.get?_deleteWhere]
        simp only [decide_eq_true_eq]
      have hkeysRest : ∀ k, k ∈ lru
          ↔ (ready.deleteWhere fun key => decide (key = oldest)).contains k = true := by
        intro k
        rw [Table.contains_iff, hget]
        by_cases hk : k = oldest
        · subst hk
          simp [hoff]
        · rw [if_neg hk, ← Table.contains_iff, ← hkeys, List.mem_cons, or_iff_right hk]
      obtain ⟨m, hm, hlru, hready⟩ := ih hrest hkeysRest
      have hmore : capacity ≤ lru.length := by
        rw [List.length_cons] at hlength
        omega
      have hrtake : (oldest :: lru).rtake capacity = lru.rtake capacity :=
        List.rtake_append hmore [oldest]
      rw [hrtake]
      refine ⟨m, hm, hlru, fun k => ?_⟩
      rw [hready k, hget k]
      by_cases hk : k ∈ lru.rtake capacity
      · have hne : k ≠ oldest := fun heq => hoff (heq ▸ List.mem_of_mem_drop hk)
        rw [if_pos hk, if_pos hk, if_neg hne]
      · rw [if_neg hk, if_neg hk]

/-! ### What is kept -/

/-- **The entries are those of the keys used last.** -/
structure Kept (capacity : ℕ) (uses : List κ) (m : Lru κ α) : Prop where
  lru : m.lru = uses.dedup.rtake capacity
  keys : ∀ k, k ∈ m.lru ↔ m.ready.contains k = true

theorem Kept.nodup (h : Kept capacity uses m) : m.lru.Nodup := by
  rw [h.lru]
  exact (List.nodup_dedup _).sublist (List.drop_sublist _ _)

theorem kept_empty : Kept capacity [] (empty : Lru κ α) where
  lru := by simp [empty]
  keys k := by simp [empty, Table.contains]

theorem Kept.touch (h : Kept capacity uses m) (hk : m.ready.contains k = true) :
    Kept capacity (uses ++ [k]) (m.touch k) where
  lru := by
    have hmem : k ∈ m.lru := (h.keys k).mpr hk
    rw [h.lru] at hmem
    rw [List.dedup_concat, List.rtake_erase_concat (List.nodup_dedup _) hmem, ← h.lru]
    rfl
  keys other := by
    have hmem : k ∈ m.lru := (h.keys k).mpr hk
    show other ∈ m.lru.erase k ++ [k] ↔ _
    rw [List.mem_append, h.nodup.mem_erase_iff, List.mem_singleton]
    refine Iff.trans ?_ (h.keys other)
    by_cases hother : other = k
    · simp [hother, hmem]
    · simp [hother]

theorem Kept.insert (h : Kept capacity uses m) (hpos : 0 < capacity)
    (hk : m.ready.contains k = false) (v : α) :
    ∃ m', m.insert capacity k v = some m' ∧ Kept capacity (uses ++ [k]) m'
      ∧ m'.ready.get? k = some v
      ∧ ∀ other w, m'.ready.get? other = some w → other ≠ k → m.ready.get? other = some w := by
  have hnot : k ∉ m.lru := by
    rw [h.keys, hk]
    exact Bool.false_ne_true
  have hnodup : (m.lru ++ [k]).Nodup := by
    rw [List.nodup_append]
    exact ⟨h.nodup, List.nodup_singleton k, fun a ha b hb heq =>
      hnot (List.mem_singleton.mp hb ▸ heq ▸ ha)⟩
  have hkeys : ∀ other, other ∈ m.lru ++ [k] ↔ (m.ready.put k v).contains other = true := by
    intro other
    rw [List.mem_append, List.mem_singleton, h.keys, Table.contains_iff, Table.contains_iff,
      Table.get?_put]
    by_cases hother : other = k
    · simp [hother]
    · simp [hother]
  obtain ⟨m', hm', hlru, hready⟩ : ∃ m', m.insert capacity k v = some m'
      ∧ m'.lru = (m.lru ++ [k]).rtake capacity
      ∧ ∀ other, m'.ready.get? other
        = if other ∈ (m.lru ++ [k]).rtake capacity then (m.ready.put k v).get? other else none :=
    evict_spec hnodup hkeys
  have hlast : k ∈ (m.lru ++ [k]).rtake capacity := by
    rw [List.rtake, List.drop_append_of_le_length
      (by rw [List.length_append, List.length_singleton]; omega)]
    exact List.mem_append_right _ (List.mem_singleton.mpr rfl)
  refine ⟨m', hm', ⟨?_, fun other => ?_⟩, ?_, fun other w hget hne => ?_⟩
  · rw [hlru, List.dedup_concat, List.rtake_concat_of_notMem (h.lru ▸ hnot), ← h.lru]
  · rw [hlru, Table.contains_iff, hready]
    by_cases hother : other ∈ (m.lru ++ [k]).rtake capacity
    · rw [if_pos hother]
      refine iff_of_true hother (Table.contains_iff.mp ((hkeys other).mp ?_))
      exact List.mem_of_mem_drop hother
    · rw [if_neg hother]
      exact iff_of_false hother (by simp)
  · rw [hready, if_pos hlast, Table.get?_put, if_pos rfl]
  · rw [hready] at hget
    split at hget
    · rwa [Table.get?_put, if_neg hne] at hget
    · cases hget

end Lru
