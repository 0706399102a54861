/-
Ports and internet addresses, as a systems language's standard library reads and writes
them.

The grammar of addresses is the one of the standard parsers: four decimal octets without
leading zeros, or eight groups of one to four hexadecimal digits with at most one `::` and
possibly four octets at the end.  Only whether a text is an address is needed of the second
kind, so its reader returns what is left of the text.
-/
import Mathlib.Data.BitVec
import Mathlib.Data.String.Basic

namespace Address

def isDecimal (c : Char) : Bool := '0' ≤ c && c ≤ '9'

def isHex (c : Char) : Bool :=
  isDecimal c || ('a' ≤ c && c ≤ 'f') || ('A' ≤ c && c ≤ 'F')

def decimalValue (ds : List Char) : ℕ :=
  ds.foldl (fun n c => 10 * n + (c.toNat - '0'.toNat)) 0

/-- What follows an optional plus sign. -/
def unsigned : List Char → List Char
  | '+' :: ds => ds
  | ds => ds

/-- A number that fits sixteen bits. -/
def parseU16 (s : String) : Option ℕ :=
  let ds := unsigned s.toList
  if ds.isEmpty || !ds.all isDecimal then none
  else if decimalValue ds < 2 ^ 16 then some (decimalValue ds) else none

theorem isDecimal_of_mem_toString {n : ℕ} {c : Char} (h : c ∈ (toString n).toList) :
    isDecimal c = true := by
  have hdigits : (toString n).toList = Nat.toDigits 10 n := Nat.toList_repr
  rw [hdigits] at h
  have hdigit := Nat.isDigit_of_mem_toDigits (by decide) (by decide) h
  rw [Char.isDigit, Bool.and_eq_true, decide_eq_true_eq, decide_eq_true_eq] at hdigit
  rw [isDecimal, Bool.and_eq_true, decide_eq_true_eq, decide_eq_true_eq]
  exact hdigit

theorem parseU16_toString {n : ℕ} (h : n < 2 ^ 16) : parseU16 (toString n) = some n := by
  have hdigits : (toString n).toList = Nat.toDigits 10 n := Nat.toList_repr
  have hall : (Nat.toDigits 10 n).all isDecimal = true := by
    rw [List.all_eq_true]
    intro c hc
    exact isDecimal_of_mem_toString (hdigits ▸ hc)
  have hunsigned : unsigned (Nat.toDigits 10 n) = Nat.toDigits 10 n := by
    unfold unsigned
    split
    next ds heq =>
      rw [heq, List.all_cons] at hall
      simp [isDecimal] at hall
    next => rfl
  have hvalue : decimalValue (Nat.toDigits 10 n) = n := Nat.ofDigitChars_ten_toDigits
  unfold parseU16
  rw [hdigits, hunsigned]
  dsimp only
  rw [hall, hvalue, if_neg (by simp [Nat.toDigits_ne_nil]), if_pos h]
/-! ### Reading addresses -/

/-- Up to three decimal digits, not above 255, no leading zero. -/
def readOctet (cs : List Char) : Option (List Char) :=
  let ds := cs.takeWhile isDecimal
  if ds.isEmpty || ds.length > 3 || (ds.head? == some '0' && ds.length > 1)
      || decimalValue ds > 255 then none
  else some (cs.dropWhile isDecimal)

/-- One to four hexadecimal digits. -/
def readGroup (cs : List Char) : Option (List Char) :=
  let ds := cs.takeWhile isHex
  if ds.isEmpty || ds.length > 4 then none else some (cs.dropWhile isHex)

def readChar (sep : Char) : List Char → Option (List Char)
  | [] => none
  | c :: cs => if c = sep then some cs else none

/-- The reader's text behind a separator, where something precedes it. -/
def readSeparated (sep : Char) (index : ℕ) (read : List Char → Option (List Char))
    (cs : List Char) : Option (List Char) :=
  if index = 0 then read cs else (readChar sep cs).bind read

def readIpv4 (cs : List Char) : Option (List Char) :=
  (List.range 4).foldl (fun acc i => acc.bind (readSeparated '.' i readOctet)) (some cs)

/-- Groups from number `index` on: how many there are, whether the last two are octets, and
what is left. -/
def readGroups : ℕ → ℕ → List Char → ℕ × Bool × List Char
  | 0, index, cs => (index, false, cs)
  | left + 1, index, cs =>
    match (if left = 0 then none else readSeparated ':' index readIpv4 cs) with
    | some tail => (index + 2, true, tail)
    | none =>
      match readSeparated ':' index readGroup cs with
      | some tail => readGroups left (index + 1) tail
      | none => (index, false, cs)

def isIpv4 (s : String) : Bool := readIpv4 s.toList == some []

/-- An address of the sixth. -/
def isIpv6 (s : String) : Bool :=
  let front := readGroups 8 0 s.toList
  if front.1 = 8 then front.2.2.isEmpty
  else if front.2.1 then false
  else
    match (readChar ':' front.2.2).bind (readChar ':') with
    | none => false
    | some back => (readGroups (8 - (front.1 + 1)) 0 back).2.2.isEmpty

def isIp (s : String) : Bool := isIpv4 s || isIpv6 s

example : isIpv6 "2001:db8::1" && isIpv6 "::ffff:192.0.2.1" && !isIpv6 "192.0.2.1"
    && !isIpv6 "2001:db8::1:20000x" && isIpv4 "192.0.2.1" && !isIpv4 "192.0.02.1" := by
  decide +kernel

/-! ### Addresses of the overlay -/

abbrev Ipv4Addr := BitVec 32

def Ipv4Addr.octet (addr : Ipv4Addr) (i : ℕ) : ℕ :=
  addr.toNat / 2 ^ (8 * (3 - i)) % 256

/-- Dotted decimal. -/
def Ipv4Addr.text (addr : Ipv4Addr) : String :=
  s!"{addr.octet 0}.{addr.octet 1}.{addr.octet 2}.{addr.octet 3}"

/-- A prefix has a length, the empty one among them. -/
instance instNeZeroLengths : NeZero 33 := ⟨by decide⟩

/-- A network: an address and how many of its bits are fixed. -/
structure Ipv4Net where
  addr : Ipv4Addr
  length : Fin 33
deriving DecidableEq

/-- The address is in the block. -/
def Ipv4Net.contains (net : Ipv4Net) (addr : Ipv4Addr) : Bool :=
  addr.toNat / 2 ^ (32 - net.length.val) == net.addr.toNat / 2 ^ (32 - net.length.val)

def Ipv4Net.text (net : Ipv4Net) : String := s!"{net.addr.text}/{net.length.val}"

/-- `host:port`, with an IPv6 host in brackets. -/
def hostPort (host : String) (port : ℕ) : String :=
  if isIpv6 host then s!"[{host}]:{port}" else s!"{host}:{port}"

end Address
