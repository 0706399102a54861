/-
Internet addresses by value, and the networks they are in.

The grammar is that of `Lib/Address`; its readers say what is left of a text, and what they
consumed is read here as a number.
-/
import Brocade.Lib.Address
import Brocade.Lib.Text

namespace Ip

/-- An address of either family. -/
inductive Addr where
  | v4 (bits : BitVec 32)
  | v6 (bits : BitVec 128)
deriving DecidableEq

/-! ### Reading -/

/-- The value of a digit. -/
def hexDigit (c : Char) : ℕ :=
  if Address.isDecimal c then c.toNat - '0'.toNat
  else if 'a' ≤ c then c.toNat - 'a'.toNat + 10 else c.toNat - 'A'.toNat + 10

def hexValue (ds : List Char) : ℕ := ds.foldl (fun n c => 16 * n + hexDigit c) 0

/-- The number a reader consumes, with what it leaves. -/
abbrev Reader := List Char → Option (ℕ × List Char)

def readOctet : Reader := fun cs =>
  (Address.readOctet cs).map fun rest => (Address.decimalValue (cs.takeWhile Address.isDecimal), rest)

def readGroup : Reader := fun cs =>
  (Address.readGroup cs).map fun rest => (hexValue (cs.takeWhile Address.isHex), rest)

/-- Something behind a separator. -/
def readSeparated (sep : Char) (index : ℕ) (read : Reader) : Reader := fun cs =>
  if index = 0 then read cs else (Address.readChar sep cs).bind read

/-- One octet more. -/
def nextOctet (index : ℕ) (value : ℕ) : Reader := fun cs =>
  (readSeparated '.' index readOctet cs).map fun octet => (256 * value + octet.1, octet.2)

/-- Four octets and what follows. -/
def readIpv4 : Reader := fun cs =>
  (List.range 4).foldl (fun acc index => acc.bind fun read => nextOctet index read.1 read.2)
    (some (0, cs))

/-- Groups from number `index` on, whether the last two are octets, and what is left. -/
def readGroups : ℕ → ℕ → List Char → List ℕ × Bool × List Char
  | 0, _, cs => ([], false, cs)
  | left + 1, index, cs =>
    match (if left = 0 then none else readSeparated ':' index readIpv4 cs) with
    | some (value, rest) => ([value / 65536, value % 65536], true, rest)
    | none =>
      match readSeparated ':' index readGroup cs with
      | some (value, rest) =>
        let more := readGroups left (index + 1) rest
        (value :: more.1, more.2)
      | none => ([], false, cs)

def ofGroups (groups : List ℕ) : Addr :=
  .v6 (BitVec.ofNat 128 (groups.foldl (fun value group => 65536 * value + group) 0))

/-- Eight groups, or fewer with a `::` between them. -/
def readIpv6 (cs : List Char) : Option (Addr × List Char) :=
  let front := readGroups 8 0 cs
  if front.1.length = 8 then some (ofGroups front.1, front.2.2)
  else if front.2.1 then none
  else
    ((Address.readChar ':' front.2.2).bind (Address.readChar ':')).map fun rest =>
      let back := readGroups (8 - (front.1.length + 1)) 0 rest
      let gap := List.replicate (8 - front.1.length - back.1.length) 0
      (ofGroups (front.1 ++ gap ++ back.1), back.2.2)

def parseIpv6 (s : String) : Option Addr :=
  (readIpv6 s.toList).bind fun read => if read.2.isEmpty then some read.1 else none

/-- An address and nothing else. -/
def parse (s : String) : Option Addr :=
  match readIpv4 s.toList with
  | some (value, rest) => if rest.isEmpty then some (.v4 (BitVec.ofNat 32 value)) else none
  | none => parseIpv6 s

/-- An address of the older family in its mapped form, as itself. -/
def Addr.canonical : Addr → Addr
  | .v4 bits => .v4 bits
  | .v6 bits =>
    if bits.toNat / 2 ^ 32 = 0xFFFF then .v4 (BitVec.ofNat 32 (bits.toNat % 2 ^ 32)) else .v6 bits

/-! ### Writing -/

def octets (bits : ℕ) : String :=
  ".".intercalate ([24, 16, 8, 0].map fun shift => toString (bits / 2 ^ shift % 256))

def groupsOf (bits : BitVec 128) : List ℕ :=
  (List.range 8).map fun index => bits.toNat / 65536 ^ (7 - index) % 65536

def writeGroups (groups : List ℕ) : String :=
  ":".intercalate (groups.map fun group => String.ofList (Nat.toDigits 16 group))

/-- Where the first of the longest runs of zeros starts, and how long it is. -/
def zeroRun (groups : List ℕ) : ℕ × ℕ :=
  (List.range groups.length).foldl (fun longest start =>
    let length := ((groups.drop start).takeWhile (· == 0)).length
    if longest.2 < length then (start, length) else longest) (0, 0)

/-- The canonical text: a run of zeros is left out when it is longer than one group, and an address
in mapped form keeps its octets. -/
def Addr.text : Addr → String
  | .v4 bits => octets bits.toNat
  | .v6 bits =>
    if bits.toNat / 2 ^ 32 = 0xFFFF then "::ffff:" ++ octets bits.toNat
    else
      let run := zeroRun (groupsOf bits)
      if 1 < run.2 then
        writeGroups ((groupsOf bits).take run.1) ++ "::"
          ++ writeGroups ((groupsOf bits).drop (run.1 + run.2))
      else writeGroups (groupsOf bits)

example : (parse "2001:DB8:0:0:1::2").map Addr.text = some "2001:db8::1:0:0:2"
    ∧ (parse "::FFFF:7f00:1").map Addr.text = some "::ffff:127.0.0.1"
    ∧ (parse "::").map Addr.text = some "::" := by
  decide +kernel

/-! ### Networks -/

/-- An address block. -/
structure Net where
  addr : Addr
  length : ℕ

/-- A block, as written. -/
def Net.parse? (s : String) : Option Net := do
  let parts ← Text.splitOnce? s "/"
  let addr ← parse parts.1
  let length ← Address.parseU16 parts.2
  return ⟨addr, length⟩

/-- The address is in the block. -/
def Net.contains (net : Net) : Addr → Bool
  | .v4 bits =>
    match net.addr with
    | .v4 base => bits.toNat / 2 ^ (32 - net.length) = base.toNat / 2 ^ (32 - net.length)
    | .v6 _ => false
  | .v6 bits =>
    match net.addr with
    | .v4 _ => false
    | .v6 base => bits.toNat / 2 ^ (128 - net.length) = base.toNat / 2 ^ (128 - net.length)

example : parse "::ffff:127.0.0.1" = some (.v6 0xFFFF7F000001#128)
    ∧ (parse "::ffff:127.0.0.1").map Addr.canonical = parse "127.0.0.1"
    ∧ parse " 127.0.0.1" = none ∧ parse "2001:db8::1:2" = some (.v6 0x20010DB8000000000000000000010002#128) := by
  decide +kernel

end Ip
