/-
Tries with a value in every node.

A node that is not there reads as a blank value, so that making the nodes on the way to a place
changes nothing that can be read: an update is seen at its own path and nowhere else.
-/
import Mathlib.Data.List.Basic

/-- A tree of keys. -/
inductive Trie (κ ν : Type) where
  | node (value : ν) (children : List (κ × Trie κ ν))

namespace Trie

variable {κ ν : Type} [DecidableEq κ]

def value : Trie κ ν → ν
  | node value _ => value

def children : Trie κ ν → List (κ × Trie κ ν)
  | node _ children => children

def empty (blank : ν) : Trie κ ν := node blank []

def child? (t : Trie κ ν) (k : κ) : Option (Trie κ ν) := t.children.lookup k

def setChild (t : Trie κ ν) (k : κ) (child : Trie κ ν) : Trie κ ν :=
  node t.value ((k, child) :: t.children)

/-- Change the value at a path, making the nodes that are missing on the way. -/
def update (blank : ν) (f : ν → ν) : List κ → Trie κ ν → Trie κ ν
  | [], t => node (f t.value) t.children
  | k :: path, t => t.setChild k (update blank f path ((t.child? k).getD (empty blank)))

/-- The value at a path, blank where there is no node. -/
def read (blank : ν) : List κ → Trie κ ν → ν
  | [], t => t.value
  | k :: path, t => ((t.child? k).map (read blank path)).getD blank

@[simp] theorem child?_setChild (t c : Trie κ ν) (k l : κ) :
    (t.setChild k c).child? l = if l = k then some c else t.child? l := by
  show ((k, c) :: t.children).lookup l = _
  rw [List.lookup_cons]
  by_cases hlk : l = k
  · simp [hlk]
  · have hbeq : (l == k) = false := by simpa using hlk
    simp [hlk, hbeq, child?]

@[simp] theorem read_nil (blank : ν) (t : Trie κ ν) : read blank [] t = t.value := by rw [read]

@[simp] theorem read_empty (blank : ν) (path : List κ) : read blank path (empty blank) = blank := by
  cases path with
  | nil => rfl
  | cons k path => simp [read, child?, children, empty]

/-- **An update is seen at its own path and nowhere else.** -/
theorem read_update (blank : ν) (f : ν → ν) (path : List κ) : ∀ (q : List κ) (t : Trie κ ν),
    read blank q (update blank f path t) = if q = path then f (read blank q t) else read blank q t := by
  induction path with
  | nil =>
    intro q t
    cases q with
    | nil => simp [update, value]
    | cons k q => simp [update, read, child?, children]
  | cons k path ih =>
    intro q t
    cases q with
    | nil => simp [update, setChild, value]
    | cons l q =>
      rw [update, read, child?_setChild]
      by_cases hlk : l = k
      · subst hlk
        rw [if_pos rfl, Option.map_some, Option.getD_some, ih, read]
        cases hchild : t.child? l with
        | none => simp
        | some c => simp
      · have hne : l :: q ≠ k :: path := fun heq => hlk (List.cons.inj heq).1
        rw [if_neg hlk, if_neg hne, read]

end Trie
