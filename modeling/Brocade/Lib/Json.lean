/-
JSON values, as a document object model holds them.

An object is a key-sorted association list, so equality of values is equality of
the documents and not of their spelling.  Access follows the usual indexing
conventions of such models: reading a missing member gives `null`, and assigning
through a path creates members on the way (turning `null` into an object), while a
path that meets a value of another kind, or an index past the end of an array, is
an error and not a no-op.
-/
import Mathlib.Data.Rat.Init
import Brocade.Lib.OrdMap

namespace Json

/-- A number as parsed: an unsigned or negative integer, or a finite float (as its
exact rational value, which is what float equality compares). -/
inductive Number where
  | posInt (n : Nat)
  | negInt (n : Int)
  | float (q : Rat)
deriving DecidableEq

/-- A value of a document. -/
inductive Value where
  | null
  | bool (b : Bool)
  | num (n : Number)
  | str (s : String)
  | arr (items : List Value)
  | obj (fields : List (String × Value))

namespace Value

mutual

/-- Values can be compared. -/
def decEq : (a b : Value) → Decidable (a = b)
  | .null, b => match b with
    | .null => isTrue rfl
    | .bool _ | .num _ | .str _ | .arr _ | .obj _ => isFalse nofun
  | .bool x, b => match b with
    | .bool y => decidable_of_iff (x = y) (by simp)
    | .null | .num _ | .str _ | .arr _ | .obj _ => isFalse nofun
  | .num x, b => match b with
    | .num y => decidable_of_iff (x = y) (by simp)
    | .null | .bool _ | .str _ | .arr _ | .obj _ => isFalse nofun
  | .str x, b => match b with
    | .str y => decidable_of_iff (x = y) (by simp)
    | .null | .bool _ | .num _ | .arr _ | .obj _ => isFalse nofun
  | .arr xs, b => match b with
    | .arr ys => @decidable_of_iff _ (xs = ys) (by simp) (decEqItems xs ys)
    | .null | .bool _ | .num _ | .str _ | .obj _ => isFalse nofun
  | .obj xs, b => match b with
    | .obj ys => @decidable_of_iff _ (xs = ys) (by simp) (decEqFields xs ys)
    | .null | .bool _ | .num _ | .str _ | .arr _ => isFalse nofun

def decEqItems : (a b : List Value) → Decidable (a = b)
  | [], [] => isTrue rfl
  | [], _ :: _ => isFalse nofun
  | _ :: _, [] => isFalse nofun
  | x :: xs, y :: ys =>
    @decidable_of_iff _ (x = y ∧ xs = ys) (by simp)
      (@instDecidableAnd _ _ (decEq x y) (decEqItems xs ys))

def decEqFields : (a b : List (String × Value)) → Decidable (a = b)
  | [], [] => isTrue rfl
  | [], _ :: _ => isFalse nofun
  | _ :: _, [] => isFalse nofun
  | (k, x) :: xs, (l, y) :: ys =>
    @decidable_of_iff _ (k = l ∧ x = y ∧ xs = ys) (by simp [and_assoc])
      (@instDecidableAnd _ _ _ (@instDecidableAnd _ _ (decEq x y) (decEqFields xs ys)))

end

instance : DecidableEq Value := decEq

/-! ### Reading -/

def asStr? : Value → Option String
  | .str s => some s
  | _ => none

def asArr? : Value → Option (List Value)
  | .arr items => some items
  | _ => none

def asObj? : Value → Option (List (String × Value))
  | .obj fields => some fields
  | _ => none

/-- A member of an object; `none` for anything that is not an object. -/
def get? (v : Value) (key : String) : Option Value :=
  match v with
  | .obj fields => Assoc.lookup key fields
  | _ => none

/-- Indexing by a key, which reads a missing member as `null`. -/
def field (v : Value) (key : String) : Value := (v.get? key).getD .null

/-- An object of the given members, a later one replacing an earlier one of its name. -/
def ofFields (fields : List (String × Value)) : Value := .obj (OrdMap.ofList fields).entries

theorem get?_ofFields (fields : List (String × Value)) (key : String) :
    (ofFields fields).get? key = OrdMap.lastOf key fields := OrdMap.get?_ofList fields key

@[simp] theorem asObj?_eq_some {v : Value} {fields : List (String × Value)} :
    v.asObj? = some fields ↔ v = .obj fields := by
  cases v <;> simp [asObj?]

@[simp] theorem asArr?_eq_some {v : Value} {items : List Value} :
    v.asArr? = some items ↔ v = .arr items := by
  cases v <;> simp [asArr?]

@[simp] theorem asStr?_eq_some {v : Value} {s : String} : v.asStr? = some s ↔ v = .str s := by
  cases v <;> simp [asStr?]

@[simp] theorem get?_obj (fields : List (String × Value)) (key : String) :
    (Value.obj fields).get? key = Assoc.lookup key fields := rfl

/-! ### Assigning -/

/-- A step of a path. -/
inductive Step where
  | key (k : String)
  | index (i : Nat)

/-- Assign `x` at the end of a path; `none` where indexing fails. -/
def assign? : Value → List Step → Value → Option Value
  | _, [], x => some x
  | .null, .key k :: path, x => do
      let child ← assign? .null path x
      return .obj [(k, child)]
  | .obj fields, .key k :: path, x => do
      let child ← assign? ((Assoc.lookup k fields).getD .null) path x
      return .obj (Assoc.insert k child fields)
  | .arr items, .index i :: path, x => do
      let child ← assign? (← items[i]?) path x
      return .arr (items.set i child)
  | _, _ :: _, _ => none

/-- Assign one member. -/
def set? (v : Value) (key : String) (x : Value) : Option Value := v.assign? [.key key] x

theorem set?_obj (fields : List (String × Value)) (key : String) (x : Value) :
    (Value.obj fields).set? key x = some (.obj (Assoc.insert key x fields)) := rfl

/-- **An assigned member reads back, and every other member is as before.** -/
theorem get?_set? {v w x : Value} {key : String} (h : v.set? key x = some w) (k : String) :
    w.get? k = if k = key then some x else v.get? k := by
  cases v with
  | null =>
    cases h
    by_cases hk : k = key <;> simp [get?, Assoc.lookup, hk]
  | obj fields =>
    cases h
    exact Assoc.lookup_insert key k x fields
  | bool b => cases h
  | num n => cases h
  | str s => cases h
  | arr items => cases h

theorem field_set? {v w x : Value} {key : String} (h : v.set? key x = some w) (k : String) :
    w.field k = if k = key then x else v.field k := by
  unfold field
  rw [get?_set? h k]
  by_cases hk : k = key <;> simp [hk]

/-! ### Canonical documents

A parser builds every object in key order.  `Canonical` says so of the value as a
whole, down to the last nested object.
-/

mutual

/-- Every object is sorted. -/
def canonical : Value → Bool
  | .arr items => canonicalItems items
  | .obj fields => decide (Assoc.Sorted fields) && canonicalFields fields
  | _ => true

def canonicalItems : List Value → Bool
  | [] => true
  | v :: rest => v.canonical && canonicalItems rest

def canonicalFields : List (String × Value) → Bool
  | [] => true
  | (_, v) :: rest => v.canonical && canonicalFields rest

end

/-- Every object in the value lists its members in key order, each key once. -/
def Canonical (v : Value) : Prop := v.canonical = true

instance (v : Value) : Decidable v.Canonical := inferInstanceAs (Decidable (_ = true))

theorem canonicalFields_mem {fields : List (String × Value)} (h : canonicalFields fields = true)
    {e : String × Value} (he : e ∈ fields) : e.2.Canonical := by
  induction fields with
  | nil => simp at he
  | cons f rest ih =>
    simp only [canonicalFields, Bool.and_eq_true] at h
    rcases List.mem_cons.mp he with rfl | he
    · exact h.1
    · exact ih h.2 he

theorem Canonical.sorted {fields : List (String × Value)} (h : (Value.obj fields).Canonical) :
    Assoc.Sorted fields := by
  simp only [Canonical, canonical, Bool.and_eq_true, decide_eq_true_eq] at h
  exact h.1

theorem Canonical.get? {v w : Value} {key : String} (h : v.Canonical)
    (hw : v.get? key = some w) : w.Canonical := by
  cases v with
  | obj fields =>
    simp only [Canonical, canonical, Bool.and_eq_true] at h
    exact canonicalFields_mem h.2 (Assoc.mem_of_lookup hw)
  | null => cases hw
  | bool b => cases hw
  | num n => cases hw
  | str s => cases hw
  | arr items => cases hw

end Value

/-- A document: a value as a parser builds it. -/
structure Document where
  root : Value
  canonical : root.Canonical

end Json
