/-
Strings as a systems language handles them.

Trimming removes every character of Unicode's `White_Space` property, not only the
ASCII ones, prefixes are compared character by character, and splitting finds the first
occurrence of a pattern or the last of a character.
-/
import Mathlib.Data.List.TakeWhile
import Mathlib.Data.String.Basic

namespace Text

/-- Pairs of names are compared name by name. -/
instance instLawfulBEqPair : LawfulBEq (String × String) := inferInstance

/-- Unicode `White_Space`. -/
def isWhitespace (c : Char) : Bool :=
  let n := c.toNat
  (9 ≤ n && n ≤ 13) || n == 0x20 || n == 0x85 || n == 0xA0 || n == 0x1680
    || (0x2000 ≤ n && n ≤ 0x200A) || n == 0x2028 || n == 0x2029 || n == 0x202F || n == 0x205F
    || n == 0x3000

/-- Drop the whitespace at both ends. -/
def trim (s : String) : String :=
  String.ofList ((s.toList.dropWhile isWhitespace).reverse.dropWhile isWhitespace).reverse

/-- What follows `pre`, if the string starts with it. -/
def stripPrefix? (pre s : String) : Option String :=
  if pre.toList.isPrefixOf s.toList then some (String.ofList (s.toList.drop pre.length)) else none

def startsWith (s pre : String) : Bool := pre.toList.isPrefixOf s.toList

def endsWith (s suf : String) : Bool := suf.toList.isSuffixOf s.toList

/-- What is before and behind the first occurrence of `pat`. -/
def cutAt (pat : List Char) : List Char → Option (List Char × List Char)
  | [] => if pat.isEmpty then some ([], []) else none
  | c :: cs =>
    if pat.isPrefixOf (c :: cs) then some ([], (c :: cs).drop pat.length)
    else (cutAt pat cs).map fun parts => (c :: parts.1, parts.2)

/-- The parts before and behind a separator. -/
def splitOnce? (s pat : String) : Option (String × String) :=
  (cutAt pat.toList s.toList).map fun parts => (String.ofList parts.1, String.ofList parts.2)

/-- What is before and behind the last occurrence of `c`. -/
def rsplitOnce? (s : String) (c : Char) : Option (String × String) :=
  (cutAt [c] s.toList.reverse).map fun parts =>
    (String.ofList parts.2.reverse, String.ofList parts.1.reverse)

/-- The pieces between the occurrences of `c`, one more than there are. -/
def pieces (c : Char) : List Char → List Char → List String
  | [], piece => [String.ofList piece.reverse]
  | d :: ds, piece =>
    if d = c then String.ofList piece.reverse :: pieces c ds [] else pieces c ds (d :: piece)

def split (s : String) (c : Char) : List String := pieces c s.toList []

def contains (s pat : String) : Bool := (cutAt pat.toList s.toList).isSome

def replace (s : String) (c : Char) (by' : String) : String :=
  String.join (s.toList.map fun d => if d = c then by' else d.toString)

variable {s : String} {c : Char} {as : List Char}

theorem trim_of_unbroken (h : ∀ c ∈ s.toList, isWhitespace c = false) : trim s = s := by
  have hdrop : ∀ cs : List Char, (∀ c ∈ cs, isWhitespace c = false) →
      cs.dropWhile isWhitespace = cs := by
    intro cs hcs
    cases cs with
    | nil => rfl
    | cons c cs => rw [List.dropWhile_cons_of_neg (by simp [hcs c List.mem_cons_self])]
  unfold trim
  rw [hdrop _ h, hdrop _ (by simpa using h), List.reverse_reverse, String.ofList_toList]

theorem trim_ne_empty (hc : c ∈ s.toList) (h : isWhitespace c = false) : trim s ≠ "" := by
  intro hempty
  have hnil : ((s.toList.dropWhile isWhitespace).reverse.dropWhile isWhitespace).reverse = [] := by
    rw [trim] at hempty
    simpa using congrArg String.toList hempty
  rw [List.reverse_eq_nil_iff, List.dropWhile_eq_nil_iff] at hnil
  -- all of the rest is blank, and its first character is not
  have hrest : s.toList.dropWhile isWhitespace = [] := by
    cases hdrop : s.toList.dropWhile isWhitespace with
    | nil => rfl
    | cons d ds =>
      have hfirst := List.head_dropWhile_not isWhitespace (by rw [hdrop]; exact List.cons_ne_nil _ _)
      simp only [hdrop, List.head_cons] at hfirst
      have hblank := hnil d (by rw [hdrop]; simp)
      rw [hfirst] at hblank
      cases hblank
  rw [List.dropWhile_eq_nil_iff] at hrest
  rw [hrest c hc] at h
  cases h

/-! ### Pieces -/

theorem pieces_of_not_mem (h : c ∉ as) : ∀ piece,
    pieces c as piece = [String.ofList (piece.reverse ++ as)] := by
  induction as with
  | nil => exact fun piece => by rw [pieces, List.append_nil]
  | cons a as ih =>
    intro piece
    have hac : ¬ a = c := fun hsame => h (hsame ▸ List.mem_cons_self)
    rw [pieces, if_neg hac, ih fun hmem => h (List.mem_cons_of_mem _ hmem)]
    simp

theorem split_of_not_mem (h : c ∉ s.toList) : split s c = [s] := by
  rw [split, pieces_of_not_mem h]
  simp

theorem pieces_append (c : Char) (as bs : List Char) : ∀ piece,
    pieces c (as ++ c :: bs) piece = pieces c as piece ++ pieces c bs [] := by
  induction as with
  | nil =>
    intro piece
    show (if c = c then String.ofList piece.reverse :: pieces c bs []
      else pieces c bs (c :: piece)) = _
    rw [if_pos rfl]
    rfl
  | cons a as ih =>
    intro piece
    rw [List.cons_append, pieces.eq_2, pieces.eq_2]
    by_cases hac : a = c
    · rw [if_pos hac, if_pos hac, ih, List.cons_append]
    · rw [if_neg hac, if_neg hac, ih]

theorem split_intercalate {values : List String} (h : values ≠ []) :
    split (String.intercalate (String.singleton c) values) c = values.flatMap (split · c) := by
  induction values with
  | nil => exact absurd rfl h
  | cons value values ih =>
    cases values with
    | nil => simp
    | cons next values =>
      rw [String.intercalate_cons_cons, List.flatMap_cons, ← ih (List.cons_ne_nil _ _)]
      unfold split
      rw [String.toList_append, String.toList_append, String.toList_singleton,
        List.append_assoc, List.singleton_append, pieces_append]

theorem pieces_ne_nil (c : Char) (as piece : List Char) : pieces c as piece ≠ [] := by
  induction as generalizing piece with
  | nil => simp [pieces]
  | cons a as ih =>
    rw [pieces]
    split_ifs
    · exact List.cons_ne_nil _ _
    · exact ih _

theorem split_ne_nil (s : String) (c : Char) : split s c ≠ [] := pieces_ne_nil c _ _

theorem intercalate_split (s : String) (c : Char) :
    String.intercalate (String.singleton c) (split s c) = s := by
  have hpieces : ∀ (as piece : List Char),
      String.intercalate (String.singleton c) (pieces c as piece)
        = String.ofList (piece.reverse ++ as) := by
    intro as
    induction as with
    | nil => intro piece; simp [pieces]
    | cons a as ih =>
      intro piece
      rw [pieces]
      by_cases hac : a = c
      · rw [if_pos hac]
        cases hrest : pieces c as [] with
        | nil => exact absurd hrest (pieces_ne_nil c as [])
        | cons next rest =>
          rw [String.intercalate_cons_cons, ← hrest, ih, hac]
          apply String.toList_injective
          simp
      · rw [if_neg hac, ih]
        simp
  rw [split, hpieces]
  simp

theorem cutAt_singleton {bs : List Char} (h : c ∉ as) :
    cutAt [c] (as ++ c :: bs) = some (as, bs) := by
  induction as with
  | nil => simp [cutAt]
  | cons a as ih =>
    have hac : ¬ c = a := fun hca => h (hca ▸ List.mem_cons_self)
    have hrest : c ∉ as := fun hmem => h (List.mem_cons_of_mem _ hmem)
    rw [List.cons_append, cutAt, if_neg (by simpa using hac), ih hrest]
    rfl

theorem rsplitOnce?_of_not_mem {front back : String}
    (hs : s.toList = front.toList ++ c :: back.toList) (h : c ∉ back.toList) :
    rsplitOnce? s c = some (front, back) := by
  unfold rsplitOnce?
  rw [hs, List.reverse_append, List.reverse_cons, List.append_assoc, List.singleton_append,
    cutAt_singleton (by simpa using h)]
  simp

theorem first_cut_unique {bs xs ys : List Char} (ha : c ∉ as) (hb : c ∉ bs)
    (h : as ++ c :: xs = bs ++ c :: ys) : as = bs ∧ xs = ys := by
  induction as generalizing bs with
  | nil =>
    cases bs with
    | nil => simpa using h
    | cons b bs =>
      have hcb : c = b := (List.cons.inj h).1
      exact absurd (hcb ▸ List.mem_cons_self) hb
  | cons a as ih =>
    cases bs with
    | nil =>
      have hca : a = c := (List.cons.inj h).1
      exact absurd (hca ▸ List.mem_cons_self) ha
    | cons b bs =>
      obtain ⟨hab, hrest⟩ := List.cons.inj h
      obtain ⟨heq, hys⟩ := ih (fun hmem => ha (List.mem_cons_of_mem _ hmem))
        (fun hmem => hb (List.mem_cons_of_mem _ hmem)) hrest
      exact ⟨by rw [hab, heq], hys⟩

theorem toString_nat_injective {m n : ℕ} (h : toString m = toString n) : m = n := by
  have hdigits : (Nat.repr m).toList = (Nat.repr n).toList := congrArg String.toList h
  rw [Nat.toList_repr, Nat.toList_repr] at hdigits
  rw [← Nat.ofDigitChars_toDigits (b := 10) (n := m) (by decide) (by decide), hdigits,
    Nat.ofDigitChars_toDigits (by decide) (by decide)]

end Text
