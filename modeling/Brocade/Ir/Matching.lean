/-
What a selector means for a connection.

A connection is known here by the answers it gives: what the runtime says of it for each entry of
a domain or address list, its port, its network, what a sniffer found.  Entries are texts of the
runtime's own syntax, a suffix `domain:example.com`, a country `geoip:cn`, a keyword as it is; a
selector is the disjunction of its entries, and `all` is the conjunction of its parts.
-/
import Brocade.Model

namespace Brocade.Ir

open Model

/-! ### Ports -/

/-- The items of a port list, each without the blanks around it. -/
def portItems (values : List String) : List String :=
  (values.flatMap fun value => Text.split value ',').map Text.trim

/-- A port item on a port; what a malformed one says is free. -/
def portItemHolds (free : String → Bool) (port : ℕ) (value : String) : Bool :=
  match Address.parseU16 value with
  | some candidate => candidate = port || (candidate = 0 && free value)
  | none =>
    match Text.splitOnce? value "-" with
    | none => free value
    | some (low, high) =>
      match Address.parseU16 (Text.trim low), Address.parseU16 (Text.trim high) with
      | some low, some high =>
        if low = 0 || high < low then free value else low ≤ port && port ≤ high
      | _, _ => free value

/-- A span is spelled by its ends. -/
def spanText (span : ℕ × ℕ) : String := s!"{span.1}-{span.2}"

theorem not_mem_toString {n : ℕ} {c : Char} (h : Address.isDecimal c = false) :
    c ∉ (toString n).toList := by
  intro hmem
  rw [Address.isDecimal_of_mem_toString hmem] at h
  cases h

theorem unbroken_toString (n : ℕ) : ∀ c ∈ (toString n).toList, Text.isWhitespace c = false := by
  intro c hc
  have hdigit := Address.isDecimal_of_mem_toString hc
  rw [Address.isDecimal, Bool.and_eq_true, decide_eq_true_eq, decide_eq_true_eq, Char.le_def,
    Char.le_def] at hdigit
  have hlow : 48 ≤ c.toNat := hdigit.1
  have hhigh : c.toNat ≤ 57 := hdigit.2
  unfold Text.isWhitespace
  simp only [Bool.or_eq_false_iff, Bool.and_eq_false_iff, decide_eq_false_iff_not, beq_eq_false_iff_ne,
    ne_eq]
  omega

theorem spanText_toList (span : ℕ × ℕ) :
    (spanText span).toList = (toString span.1).toList ++ '-' :: (toString span.2).toList := by
  simp [spanText, toString]

theorem splitOnce?_spanText (span : ℕ × ℕ) :
    Text.splitOnce? (spanText span) "-" = some (toString span.1, toString span.2) := by
  have hcut : Text.cutAt ['-'] ((toString span.1).toList ++ '-' :: (toString span.2).toList)
      = some ((toString span.1).toList, (toString span.2).toList) :=
    Text.cutAt_singleton (not_mem_toString (by decide))
  unfold Text.splitOnce?
  rw [spanText_toList, show "-".toList = ['-'] from rfl, hcut]
  simp only [Option.map_some, String.ofList_toList]

theorem parseU16_spanText (span : ℕ × ℕ) : Address.parseU16 (spanText span) = none := by
  have hminus : '-' ∈ (spanText span).toList := by
    rw [spanText_toList]
    simp
  have hnot : (Address.unsigned (spanText span).toList).all Address.isDecimal = false := by
    rw [List.all_eq_false]
    refine ⟨'-', ?_, by decide⟩
    unfold Address.unsigned
    split
    next ds heq =>
      rw [heq, List.mem_cons] at hminus
      rcases hminus with hplus | hmem
      · exact absurd hplus (by decide)
      · exact hmem
    next => exact hminus
  unfold Address.parseU16
  dsimp only
  rw [hnot]
  simp

theorem portItemHolds_spanText {free : String → Bool} {port : ℕ} {span : ℕ × ℕ}
    (hlow : 1 ≤ span.1) (hends : span.1 ≤ span.2) (hhigh : span.2 < 2 ^ 16) :
    portItemHolds free port (spanText span) = (decide (span.1 ≤ port) && decide (port ≤ span.2)) := by
  unfold portItemHolds
  rw [parseU16_spanText, splitOnce?_spanText]
  dsimp only
  rw [Text.trim_of_unbroken (unbroken_toString _), Text.trim_of_unbroken (unbroken_toString _),
    Address.parseU16_toString (by omega), Address.parseU16_toString hhigh]
  dsimp only
  rw [if_neg]
  simp
  omega

/-! ### Selectors -/

/-- A connection, by its answers. -/
structure Request where
  /-- what an entry of a domain list says of it -/
  domain : String → Bool
  /-- what an entry of an address list says of it -/
  ip : String → Bool
  port : ℕ
  /-- what a malformed port item says of it -/
  freeItem : String → Bool
  network : Network
  /-- what a protocol name says of what the sniffer found -/
  protocol : String → Bool
  sniffingFailed : Bool

namespace Request

variable (request : Request)

def portHolds (values : List String) : Bool :=
  (portItems values).any (portItemHolds request.freeItem request.port)

mutual

/-- The selector matches the connection. -/
def satisfies : DestMatch → Bool
  | .any => true
  | .sniffingFailed => request.sniffingFailed
  | .domainSuffix values => values.any fun value => request.domain s!"domain:{value}"
  | .domainKeyword values => values.any request.domain
  | .domainRegex value => request.domain s!"regexp:{value}"
  | .geosite values => values.any fun value => request.domain s!"geosite:{value}"
  | .ipCidr values => values.any request.ip
  | .geoip values => values.any fun value => request.ip s!"geoip:{value}"
  | .port values => request.portHolds values
  | .portExcept ports => 1 ≤ request.port && request.port ≤ 65535 && !ports.contains request.port
  | .network network => request.network = network
  | .protocol values => values.any request.protocol
  | .all values => satisfiesEach values

def satisfiesEach : List DestMatch → Bool
  | [] => true
  | value :: values => satisfies value && satisfiesEach values

end

theorem satisfiesEach_eq (values : List DestMatch) :
    request.satisfiesEach values = values.all request.satisfies := by
  induction values with
  | nil => rfl
  | cons value values ih => rw [satisfiesEach, List.all_cons, ih]

theorem satisfies_all (values : List DestMatch) :
    request.satisfies (.all values) = values.all request.satisfies := by
  rw [satisfies, satisfiesEach_eq]

end Request

end Brocade.Ir
