/-
The order in which subscriptions list their entries.

Each publication merges the desired order of the apps, and of the chains of an app, into the order
kept so far.  What is no longer desired may still be served, so it keeps its slot; what is still
desired is put into the slots it had, in the desired order; what is new goes before the next
desired one that was there.  A serving topology is then sorted by the merged order.
-/
import Mathlib.Data.List.Nodup
import Mathlib.Data.List.Perm.Subperm
import Mathlib.Algebra.Group.Nat.Defs
import Brocade.Lib.Slots

namespace Brocade.ClientConfig

open Slots

/-- Where a new id goes: before the first of the ids behind it that was there already. -/
def insertionPoint (previous rest merged : List String) : Option ℕ :=
  (rest.find? fun next => decide (next ∈ previous)).bind fun next =>
    merged.findIdx? fun existing => existing == next

/-- Insert the new ids of the desired list, each in front of its next surviving neighbour. -/
def insertNew (previous : List String) : List String → List String → List String
  | [], merged => merged
  | id :: rest, merged =>
    if id ∈ previous then insertNew previous rest merged
    else
      match insertionPoint previous rest merged with
      | some position => insertNew previous rest (merged.insertIdx position id)
      | none => insertNew previous rest (merged ++ [id])

/-- The desired ids that were there, in the order of the desired list. -/
def reorderedExisting (previous desired : List String) : List String :=
  desired.filter fun id => decide (id ∈ previous)

/-- `none` is the panic of a slot that the reordered ids do not fill. -/
def mergeOrder (previous desired : List String) : Option (List String) :=
  (refill (fun id => decide (id ∈ desired)) previous (reorderedExisting previous desired)).map
    (insertNew previous desired)

def usizeMax : ℕ := 2 ^ 64 - 1

/-- The sort key of an id; of an id listed twice the later position counts. -/
def positionOf (order : List String) (id : String) : ℕ :=
  (order.zipIdx.reverse.lookup id).getD usizeMax

/-- The order an operator wants. -/
def reorderById {T : Type} (items : List T) (order : List String) (id : T → String) : List T :=
  items.mergeSort fun a b => decide (positionOf order (id a) ≤ positionOf order (id b))

/-! ### New ids -/

/-- What the merged list is while the ids in `rest` are still to be inserted: the ones already
passed stand in front, in the desired order. -/
structure Inserting (previous desired slots passed rest merged : List String) : Prop where
  listed : (merged.filter fun id => decide (id ∈ desired)) = passed ++ reorderedExisting previous rest
  left : (merged.filter fun id => !decide (id ∈ desired)) =
    previous.filter fun id => !decide (id ∈ desired)
  slots : (merged.filter fun id => decide (id ∈ previous)) = slots

section Insert

variable {previous desired slots passed rest merged : List String} {id : String}

theorem reorderedExisting_cons_new (hid : id ∉ previous) :
    reorderedExisting previous (id :: rest) = reorderedExisting previous rest := by
  rw [reorderedExisting, List.filter_cons_of_neg (by simpa using hid), reorderedExisting]

theorem Inserting.skip (h : Inserting previous desired slots passed (id :: rest) merged)
    (hid : id ∈ previous) : Inserting previous desired slots (passed ++ [id]) rest merged where
  listed := by
    rw [h.listed, reorderedExisting, List.filter_cons_of_pos (by simpa using hid)]
    simp [reorderedExisting]
  left := h.left
  slots := h.slots

theorem Inserting.insert {front back : List String}
    (h : Inserting previous desired slots passed (id :: rest) (front ++ back)) (hid : id ∉ previous)
    (hdesired : id ∈ desired) (hfront : (front.filter fun id => decide (id ∈ desired)) = passed)
    (hback : (back.filter fun id => decide (id ∈ desired)) = reorderedExisting previous rest) :
    Inserting previous desired slots (passed ++ [id]) rest (front ++ id :: back) where
  listed := by simp [List.filter_append, hfront, hback, hdesired]
  left := by
    rw [← h.left]
    simp [List.filter_append, hdesired]
  slots := by
    rw [← h.slots]
    simp [List.filter_append, hid]

/-- Where the merged list is cut in front of a neighbour, so is the desired part of it. -/
theorem Inserting.cut {next : String} {front back tail : List String} (hnodup : desired.Nodup)
    (hdesired : desired = passed ++ id :: rest) (hid : id ∉ previous)
    (hrest : reorderedExisting previous rest = next :: tail)
    (h : Inserting previous desired slots passed (id :: rest) (front ++ next :: back)) :
    (front.filter fun id => decide (id ∈ desired)) = passed ∧
      ((next :: back).filter fun id => decide (id ∈ desired)) = reorderedExisting previous rest := by
  have hmem : next ∈ rest := by
    have hin : next ∈ reorderedExisting previous rest := hrest ▸ List.mem_cons_self
    exact (List.mem_filter.mp hin).1
  have hnextDesired : next ∈ desired := by
    rw [hdesired]
    simp [hmem]
  have hparts : (passed ++ id :: rest).Nodup := hdesired ▸ hnodup
  have hpassed : next ∉ passed := by
    intro hin
    exact List.disjoint_of_nodup_append hparts hin (List.mem_cons_of_mem _ hmem)
  have hrestNodup : rest.Nodup := (List.nodup_append.mp hparts).2.1.of_cons
  have htail : next ∉ tail := by
    have hfiltered : (reorderedExisting previous rest).Nodup := hrestNodup.filter _
    rw [hrest] at hfiltered
    exact hfiltered.notMem
  have hlisted := h.listed
  rw [reorderedExisting_cons_new hid, hrest, List.filter_append,
    List.filter_cons_of_pos (by simpa using hnextDesired)] at hlisted
  obtain ⟨hleft, -, hright⟩ := (List.append_cons_inj_of_notMem hpassed htail).mp hlisted.symm
  refine ⟨hleft.symm, ?_⟩
  rw [List.filter_cons_of_pos (by simpa using hnextDesired), ← hright, hrest]

theorem insertionPoint_none (h : reorderedExisting previous rest = []) :
    insertionPoint previous rest merged = none := by
  have hfind : (rest.find? fun next => decide (next ∈ previous)) = none := by
    rw [← List.head?_filter, ← reorderedExisting, h, List.head?_nil]
  rw [insertionPoint, hfind, Option.bind_none]

theorem insertionPoint_some {next : String} {front back tail : List String}
    (hrest : reorderedExisting previous rest = next :: tail) (hfront : next ∉ front) :
    insertionPoint previous rest (front ++ next :: back) = some front.length := by
  have hfind : (rest.find? fun next => decide (next ∈ previous)) = some next := by
    rw [← List.head?_filter, ← reorderedExisting, hrest, List.head?_cons]
  have hnone : front.findIdx? (fun existing => existing == next) = none := by
    rw [List.findIdx?_eq_none_iff]
    intro existing hin
    have hne : existing ≠ next := fun heq => hfront (heq ▸ hin)
    simpa using hne
  rw [insertionPoint, hfind, Option.bind_some, List.findIdx?_append, hnone]
  simp [List.findIdx?_cons]

theorem insertIdx_at_length (front back : List String) (id : String) :
    (front ++ back).insertIdx front.length id = front ++ id :: back := by
  induction front with
  | nil => simp
  | cons x front ih => simp [ih]

/-- **Every new id ends up where the desired list has it.** -/
theorem insertNew_spec (hnodup : desired.Nodup) :
    ∀ (rest : List String) {passed merged : List String}, desired = passed ++ rest →
      Inserting previous desired slots passed rest merged →
      Inserting previous desired slots desired [] (insertNew previous rest merged) := by
  intro rest
  induction rest with
  | nil =>
    intro passed merged hdesired h
    rw [List.append_nil] at hdesired
    rw [insertNew, hdesired]
    exact hdesired ▸ h
  | cons id rest ih =>
    intro passed merged hdesired h
    have hnext : desired = (passed ++ [id]) ++ rest := by simpa using hdesired
    by_cases hid : id ∈ previous
    · rw [insertNew, if_pos hid]
      exact ih hnext (h.skip hid)
    have hin : id ∈ desired := by simp [hdesired]
    rw [insertNew, if_neg hid]
    cases hrest : reorderedExisting previous rest with
    | nil =>
      rw [insertionPoint_none hrest]
      refine ih hnext (Inserting.insert ?_ hid hin ?_ (by simp [hrest]))
      · rwa [List.append_nil]
      · have hlisted := h.listed
        rwa [reorderedExisting_cons_new hid, hrest, List.append_nil] at hlisted
    | cons next tail =>
      have hmem : next ∈ merged := by
        have hlisted : next ∈ merged.filter fun id => decide (id ∈ desired) := by
          rw [h.listed, reorderedExisting_cons_new hid, hrest]
          simp
        exact (List.mem_filter.mp hlisted).1
      obtain ⟨front, back, rfl, hfront⟩ := List.eq_append_cons_of_mem hmem
      rw [insertionPoint_some hrest hfront]
      show Inserting _ _ _ _ _ (insertNew previous rest
        ((front ++ next :: back).insertIdx front.length id))
      rw [insertIdx_at_length]
      obtain ⟨hpassed, hlater⟩ := h.cut hnodup hdesired hid hrest
      exact ih hnext (h.insert hid hin hpassed hlater)

end Insert

/-! ### The merged order -/

section Merge

variable {previous desired : List String}

theorem length_reorderedExisting (hprevious : previous.Nodup) (hdesired : desired.Nodup) :
    (reorderedExisting previous desired).length =
      (previous.filter fun id => decide (id ∈ desired)).length := by
  apply List.Perm.length_eq
  rw [reorderedExisting, List.perm_ext_iff_of_nodup (hdesired.filter _) (hprevious.filter _)]
  intro id
  simp [and_comm]

/-- What the merged order is: the desired list, with what is no longer desired in its old slots. -/
structure Merged (previous desired merged : List String) : Prop where
  listed : (merged.filter fun id => decide (id ∈ desired)) = desired
  left : (merged.filter fun id => !decide (id ∈ desired)) =
    previous.filter fun id => !decide (id ∈ desired)
  slots : ((merged.filter fun id => decide (id ∈ previous)).map fun id => decide (id ∈ desired)) =
    previous.map fun id => decide (id ∈ desired)

theorem mergeOrder_spec (hprevious : previous.Nodup) (hdesired : desired.Nodup) :
    ∃ merged, mergeOrder previous desired = some merged ∧ Merged previous desired merged := by
  have hmarked : ∀ id ∈ reorderedExisting previous desired, decide (id ∈ desired) = true := by
    intro id hid
    simpa using (List.mem_filter.mp hid).1
  obtain ⟨refilled, hrefill, hspec⟩ :=
    refill_spec hmarked (length_reorderedExisting hprevious hdesired)
  have hold : (refilled.filter fun id => decide (id ∈ previous)) = refilled := by
    rw [List.filter_eq_self]
    intro id hid
    by_cases hin : id ∈ desired
    · have hfilled : id ∈ reorderedExisting previous desired := by
        rw [← hspec.filled]
        exact List.mem_filter.mpr ⟨hid, by simpa using hin⟩
      exact (List.mem_filter.mp hfilled).2
    · have hkept : id ∈ previous.filter fun id => !decide (id ∈ desired) := by
        rw [← hspec.kept]
        exact List.mem_filter.mpr ⟨hid, by simpa using hin⟩
      simpa using (List.mem_filter.mp hkept).1
  have hstart : Inserting previous desired refilled [] desired refilled :=
    ⟨hspec.filled, hspec.kept, hold⟩
  have hend := insertNew_spec hdesired desired rfl hstart
  refine ⟨insertNew previous desired refilled, by rw [mergeOrder, hrefill, Option.map_some], ?_⟩
  refine ⟨?_, hend.left, ?_⟩
  · simpa [reorderedExisting] using hend.listed
  · rw [hend.slots, hspec.slots]

section Facts

variable {merged : List String}

section

variable (h : Merged previous desired merged)

include h

theorem Merged.perm :
    merged.Perm (desired ++ previous.filter fun id => !decide (id ∈ desired)) := by
  have hsplit := List.filter_append_perm (fun id => decide (id ∈ desired)) merged
  rw [h.listed, h.left] at hsplit
  exact hsplit.symm

theorem Merged.nodup (hprevious : previous.Nodup) (hdesired : desired.Nodup) : merged.Nodup := by
  rw [h.perm.nodup_iff, List.nodup_append]
  refine ⟨hdesired, hprevious.filter _, ?_⟩
  intro id hid other hother heq
  have hnot := (List.mem_filter.mp hother).2
  rw [← heq] at hnot
  simp [hid] at hnot

theorem Merged.mem_iff (id : String) : id ∈ merged ↔ id ∈ previous ∨ id ∈ desired := by
  rw [h.perm.mem_iff, List.mem_append, List.mem_filter]
  by_cases hid : id ∈ desired
  · simp [hid]
  · simp [hid]

theorem Merged.again : mergeOrder merged desired = some merged := by
  have hall : ∀ id ∈ desired, id ∈ merged := fun id hid => (h.mem_iff id).mpr (.inr hid)
  have hexisting : reorderedExisting merged desired = desired := by
    rw [reorderedExisting, List.filter_eq_self]
    intro id hid
    simpa using hall id hid
  have hnothing : ∀ (rest order : List String), (∀ id ∈ rest, id ∈ merged) →
      insertNew merged rest order = order := by
    intro rest
    induction rest with
    | nil => intro order _; rw [insertNew]
    | cons id rest ih =>
      intro order hin
      rw [insertNew, if_pos (hin id List.mem_cons_self)]
      exact ih order fun other hother => hin other (List.mem_cons_of_mem _ hother)
  have hself := refill_self (fun id => decide (id ∈ desired)) merged
  rw [h.listed] at hself
  rw [mergeOrder, hexisting, hself, Option.map_some, hnothing desired merged hall]

end

end Facts

end Merge

/-! ### Sorting a topology -/

section Serving

variable {order : List String}

theorem lookup_zipIdx_reverse {x : String} (hnodup : order.Nodup) (hx : x ∈ order) :
    ∀ start : ℕ, (order.zipIdx start).reverse.lookup x = some (start + order.idxOf x) := by
  induction order with
  | nil => simp at hx
  | cons y order ih =>
    intro start
    rw [List.zipIdx_cons, List.reverse_cons, List.lookup_append]
    by_cases hxy : x = y
    · subst hxy
      have hnone : (order.zipIdx (start + 1)).reverse.lookup x = none := by
        rw [List.lookup_eq_none_iff]
        intro pair hpair
        have hin : pair.1 ∈ order := List.fst_mem_of_mem_zipIdx (List.mem_reverse.mp hpair)
        have hne : x ≠ pair.1 := fun heq => hnodup.notMem (heq ▸ hin)
        simpa using hne
      simp [hnone]
    · have hin : x ∈ order := (List.mem_cons.mp hx).resolve_left hxy
      rw [ih hnodup.of_cons hin, List.idxOf_cons_ne _ (Ne.symm hxy)]
      simp
      omega

theorem positionOf_eq {x : String} (hnodup : order.Nodup) (hx : x ∈ order) :
    positionOf order x = order.idxOf x := by
  rw [positionOf, lookup_zipIdx_reverse hnodup hx 0, Option.getD_some, Nat.zero_add]

theorem idxOf_lt_of_filter {a b : String} {p : String → Bool} (ha : p a = true) (hb : p b = true)
    (h : (order.filter p).idxOf b < (order.filter p).idxOf a) : order.idxOf b < order.idxOf a := by
  induction order with
  | nil => simp at h
  | cons x order ih =>
    by_cases hx : p x = true
    · rw [List.filter_cons_of_pos hx] at h
      by_cases hbx : b = x
      · subst hbx
        by_cases hab : a = b
        · simp [hab] at h
        · rw [List.idxOf_cons_self, List.idxOf_cons_ne _ (Ne.symm hab)]
          omega
      · by_cases hax : a = x
        · simp [hax] at h
        rw [List.idxOf_cons_ne _ (Ne.symm hbx), List.idxOf_cons_ne _ (Ne.symm hax)] at h ⊢
        have hlater := ih (by omega)
        omega
    · rw [List.filter_cons_of_neg hx] at h
      have hbx : x ≠ b := fun heq => hx (heq ▸ hb)
      have hax : x ≠ a := fun heq => hx (heq ▸ ha)
      rw [List.idxOf_cons_ne _ hbx, List.idxOf_cons_ne _ hax]
      have hlater := ih h
      omega

variable {T : Type} {items : List T} {id : T → String}

theorem reorderById_perm : (reorderById items order id).Perm items :=
  List.mergeSort_perm _ _

variable (items order id) in
theorem reorderById_sorted : (reorderById items order id).Pairwise fun a b =>
    positionOf order (id a) ≤ positionOf order (id b) := by
  have hsorted : (reorderById items order id).Pairwise fun a b =>
      decide (positionOf order (id a) ≤ positionOf order (id b)) = true :=
    List.pairwise_mergeSort
      (fun a b c hab hbc => by simp only [decide_eq_true_eq] at hab hbc ⊢; omega)
      (fun a b => by simp only [Bool.or_eq_true, decide_eq_true_eq]; omega) items
  exact hsorted.imp fun h => by simpa using h

variable {previous desired merged : List String}

variable (items id) in
/-- **A serving topology sorted by the merged order lists what is desired in the desired order.** -/
theorem Merged.served (h : Merged previous desired merged) (hnodup : merged.Nodup) :
    (((reorderById items merged id).map id).filter fun x => decide (x ∈ desired)).Pairwise
      fun a b => desired.idxOf a ≤ desired.idxOf b := by
  have hsorted : ((reorderById items merged id).map id).Pairwise fun a b =>
      positionOf merged a ≤ positionOf merged b :=
    List.pairwise_map.mpr (reorderById_sorted merged items id)
  have hfiltered := List.Pairwise.filter (fun x => decide (x ∈ desired)) hsorted
  refine List.Pairwise.imp_of_mem ?_ hfiltered
  intro a b ha hb hab
  have haDesired : a ∈ desired := by simpa using (List.mem_filter.mp ha).2
  have hbDesired : b ∈ desired := by simpa using (List.mem_filter.mp hb).2
  rw [positionOf_eq hnodup ((h.mem_iff a).mpr (.inr haDesired)),
    positionOf_eq hnodup ((h.mem_iff b).mpr (.inr hbDesired))] at hab
  by_contra hnot
  have hbefore : merged.idxOf b < merged.idxOf a := by
    apply idxOf_lt_of_filter (p := fun x => decide (x ∈ desired))
    · simpa using haDesired
    · simpa using hbDesired
    · rw [h.listed]
      omega
  omega

theorem eq_filter_of_pairwise {ids : List String} (hids : ids.Nodup)
    (hsub : ∀ x ∈ ids, x ∈ desired) (hdesired : desired.Nodup)
    (hpairwise : ids.Pairwise fun a b => desired.idxOf a ≤ desired.idxOf b) :
    ids = desired.filter fun x => decide (x ∈ ids) := by
  have hperm : ids.Perm (desired.filter fun x => decide (x ∈ ids)) := by
    rw [List.perm_ext_iff_of_nodup hids (hdesired.filter _)]
    intro x
    rw [List.mem_filter, decide_eq_true_eq]
    exact ⟨fun hx => ⟨hsub x hx, hx⟩, fun hx => hx.2⟩
  have hself : desired.Pairwise fun a b => desired.idxOf a ≤ desired.idxOf b := by
    rw [List.pairwise_iff_getElem]
    intro i j hi hj hij
    rw [hdesired.idxOf_getElem, hdesired.idxOf_getElem]
    omega
  refine hperm.eq_of_pairwise ?_ hpairwise (hself.filter _)
  intro a b ha hb hab hba
  exact (List.idxOf_inj (hsub a ha)).mp (Nat.le_antisymm hab hba)

end Serving

/-- **Order merging is stable.** -/
theorem merge_order_stable (previous desired : List String) (hprevious : previous.Nodup)
    (hdesired : desired.Nodup) : ∃ merged, mergeOrder previous desired = some merged ∧
      merged.Nodup ∧ (∀ id, id ∈ merged ↔ id ∈ previous ∨ id ∈ desired) ∧
      (merged.filter fun id => decide (id ∈ desired)) = desired ∧
      (merged.filter fun id => !decide (id ∈ desired)) =
        (previous.filter fun id => !decide (id ∈ desired)) ∧
      ((merged.filter fun id => decide (id ∈ previous)).map fun id => decide (id ∈ desired)) =
        (previous.map fun id => decide (id ∈ desired)) ∧
      mergeOrder merged desired = some merged ∧
      ∀ {T : Type} (items : List T) (id : T → String), (reorderById items merged id).Perm items ∧
        (((reorderById items merged id).map id).filter fun x => decide (x ∈ desired)).Pairwise
          (fun a b => desired.idxOf a ≤ desired.idxOf b) ∧
        ((items.map id).Nodup →
          (((reorderById items merged id).map id).filter fun x => decide (x ∈ desired)) =
            desired.filter fun x => decide (x ∈ items.map id)) := by
  obtain ⟨merged, hmerged, hspec⟩ := mergeOrder_spec hprevious hdesired
  have hnodup := hspec.nodup hprevious hdesired
  refine ⟨merged, hmerged, hnodup, hspec.mem_iff, hspec.listed, hspec.left, hspec.slots,
    hspec.again, ?_⟩
  intro T items id
  have hserved := hspec.served items id hnodup
  refine ⟨reorderById_perm, hserved, ?_⟩
  intro hitems
  have hperm : ((reorderById items merged id).map id).Perm (items.map id) :=
    reorderById_perm.map id
  rw [eq_filter_of_pairwise ((hperm.nodup_iff.mpr hitems).filter _)
    (fun x hx => by simpa using (List.mem_filter.mp hx).2) hdesired hserved]
  apply List.filter_congr
  intro x hx
  simp [hx, hperm.mem_iff]

theorem merge_order_stable_deleted : ["a", "b", "c"].Nodup ∧ ["c", "n", "a"].Nodup ∧
      ∃ merged, mergeOrder ["a", "b", "c"] ["c", "n", "a"] = some merged ∧ merged.Nodup := by
  obtain ⟨merged, hmerged, hnodup, -⟩ :=
    merge_order_stable ["a", "b", "c"] ["c", "n", "a"] (by decide) (by decide)
  exact ⟨by decide, by decide, merged, hmerged, hnodup⟩

example : mergeOrder ["a", "b", "c"] ["c", "n", "a"] = some ["c", "b", "n", "a"] := by decide

end Brocade.ClientConfig
