/-
Writing members of JSON documents.

An entry that is inserted twice is there once, in whatever order two of them are inserted; and a
document answers for a member that was put into it with what was put, and for every other one as
before.
-/
import Brocade.Lib.Json

namespace Assoc

variable {κ α : Type} [LinearOrder κ] {k l : κ} {v w : α} {m : List (κ × α)}

theorem insert_insert (hs : Sorted m) : insert k v (insert k w m) = insert k v m := by
  apply ext_of_lookup (sorted_insert (sorted_insert hs k w) k v) (sorted_insert hs k v)
  intro k'
  simp only [lookup_insert]
  by_cases hk : k' = k
  · simp [hk]
  · simp [hk]

theorem insert_comm (hs : Sorted m) (hne : k ≠ l) :
    insert k v (insert l w m) = insert l w (insert k v m) := by
  apply ext_of_lookup (sorted_insert (sorted_insert hs l w) k v)
    (sorted_insert (sorted_insert hs k v) l w)
  intro k'
  simp only [lookup_insert]
  by_cases hk : k' = k
  · simp [hk, hne]
  · simp [hk]

theorem erase_insert (hs : Sorted m) (hnone : lookup k m = none) : erase k (insert k v m) = m := by
  apply ext_of_lookup (sorted_erase (sorted_insert hs k v) k) hs
  intro k'
  rw [lookup_erase, lookup_insert]
  by_cases hk : k' = k
  · simp [hk, hnone]
  · simp [hk]

theorem insert_erase (hs : Sorted m) : insert k v (erase k m) = insert k v m := by
  apply ext_of_lookup (sorted_insert (sorted_erase hs k) k v) (sorted_insert hs k v)
  intro k'
  rw [lookup_insert, lookup_insert, lookup_erase]
  by_cases hk : k' = k
  · simp [hk]
  · simp [hk]

theorem erase_of_lookup (hs : Sorted m) (hnone : lookup k m = none) : erase k m = m := by
  apply ext_of_lookup (sorted_erase hs k) hs
  intro k'
  rw [lookup_erase]
  by_cases hk : k' = k
  · simp [hk, hnone]
  · simp [hk]

end Assoc

namespace Json.Value

/-- The document with a member; one that is no object stays as it is. -/
def put (v : Value) (key : String) (x : Value) : Value :=
  match v with
  | .obj fields => .obj (Assoc.insert key x fields)
  | v => v

@[simp] theorem put_obj (fields : List (String × Value)) (key : String) (x : Value) :
    (Value.obj fields).put key x = .obj (Assoc.insert key x fields) := rfl

theorem get?_put_ne (v : Value) {key k : String} (x : Value) (h : k ≠ key) :
    (v.put key x).get? k = v.get? k := by
  cases v with
  | obj fields => simp [Assoc.lookup_insert, h]
  | null => rfl
  | bool b => rfl
  | num n => rfl
  | str s => rfl
  | arr items => rfl

theorem get?_put_self {v y : Value} {k : String} (hk : v.get? k = some y) (key : String)
    (x : Value) : (v.put key x).get? key = some x := by
  cases v with
  | obj fields => simp [Assoc.lookup_insert]
  | null => simp [get?] at hk
  | bool b => simp [get?] at hk
  | num n => simp [get?] at hk
  | str s => simp [get?] at hk
  | arr items => simp [get?] at hk

/-- The members stand in key order, each key once, as a parser leaves them. -/
def Ordered : Value → Prop
  | .obj fields => Assoc.Sorted fields
  | _ => True

theorem ordered_ofFields (fields : List (String × Value)) : (ofFields fields).Ordered :=
  (OrdMap.ofList fields).sorted

theorem ordered_put {v : Value} (hv : v.Ordered) (key : String) (x : Value) :
    (v.put key x).Ordered := by
  cases v with
  | obj fields => exact Assoc.sorted_insert hv key x
  | null => trivial
  | bool b => trivial
  | num n => trivial
  | str s => trivial
  | arr items => trivial

theorem put_put {v : Value} (hv : v.Ordered) (key : String) (x y : Value) :
    (v.put key x).put key y = v.put key y := by
  cases v with
  | obj fields => rw [put_obj, put_obj, put_obj, Assoc.insert_insert hv]
  | null => rfl
  | bool b => rfl
  | num n => rfl
  | str s => rfl
  | arr items => rfl

theorem put_comm {v : Value} (hv : v.Ordered) {k l : String} (hne : k ≠ l) (x y : Value) :
    (v.put k x).put l y = (v.put l y).put k x := by
  cases v with
  | obj fields => rw [put_obj, put_obj, put_obj, put_obj, Assoc.insert_comm hv hne.symm]
  | null => rfl
  | bool b => rfl
  | num n => rfl
  | str s => rfl
  | arr items => rfl

theorem put_get? {v x : Value} (hv : v.Ordered) {key : String} (hx : v.get? key = some x) :
    v.put key x = v := by
  cases v with
  | obj fields =>
    have hsame : Assoc.insert key x fields = fields := by
      apply Assoc.ext_of_lookup (Assoc.sorted_insert hv key x) hv
      intro k
      rw [Assoc.lookup_insert]
      by_cases hk : k = key
      · rw [if_pos hk, hk, ← get?_obj, hx]
      · rw [if_neg hk]
    rw [put_obj, hsame]
  | null => rfl
  | bool b => rfl
  | num n => rfl
  | str s => rfl
  | arr items => rfl

end Json.Value
