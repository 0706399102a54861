/-
Selectors as xray's conditions.

A condition has one slot of each kind.  A filled slot holds where one of its entries does, and a
condition where all of its filled slots do, so a conjunction can be lowered only where its parts
need different slots.  What cannot match at all is lowered to an entry that no domain is, in the
domain slot.
-/
import Brocade.Ir.Matching
import Brocade.Ir.Validate.App
import Brocade.Lib.Gaps

namespace Brocade.Artifacts

open Ir Model

def NEVER_MATCH_DOMAIN : String := "full:invalid.brocade.never-match"

/-- The conditions xray reads off a rule. -/
structure XrayMatchCondition where
  (domain ip : List String)
  /-- the peer's address; no selector asks for it -/
  sourceIp : List String
  (port network : Option String)
  protocol : List String
  sniffingFailed : Bool

namespace XrayMatchCondition

/-- No slot filled. -/
def empty : XrayMatchCondition := ⟨[], [], [], none, none, [], false⟩

def putNever (self : XrayMatchCondition) : XrayMatchCondition :=
  { self with domain := self.domain ++ [NEVER_MATCH_DOMAIN] }

def notBlank (value : String) : Bool := Text.trim value ≠ ""

/-- Domains, or nothing that matches. -/
def putDomains (self : XrayMatchCondition) (values : List String) : XrayMatchCondition :=
  let kept := values.filter notBlank
  if kept.isEmpty then self.putNever else { self with domain := self.domain ++ kept }

def putIps (self : XrayMatchCondition) (values : List String) : XrayMatchCondition :=
  let kept := values.filter notBlank
  if kept.isEmpty then self.putNever else { self with ip := self.ip ++ kept }

def putProtocols (self : XrayMatchCondition) (values : List String) : XrayMatchCondition :=
  let kept := values.filter notBlank
  if kept.isEmpty then self.putNever else { self with protocol := self.protocol ++ kept }

def joinPorts (values : List String) : String := String.intercalate "," values

/-- The ports that are not excluded, as spans. -/
def portSpans (ports : List ℕ) : List (ℕ × ℕ) := Gaps.spans 65535 1 (OrdMap.keySet ports)

/-- The complement, written out: there is no negation in the slot. -/
def putPortExcept (self : XrayMatchCondition) (ports : List ℕ) : XrayMatchCondition :=
  let spans := portSpans ports
  if spans.isEmpty then self.putNever
  else { self with port := some (joinPorts (spans.map spanText)) }

end XrayMatchCondition

open XrayMatchCondition

def networkName : Network → String
  | .tcp => "tcp"
  | .udp => "udp"

mutual

/-- A selector goes into the fields. -/
def putMatch : DestMatch → XrayMatchCondition → XrayMatchCondition
  | .any, condition => condition
  | .sniffingFailed, condition => { condition with sniffingFailed := true }
  | .domainSuffix values, condition =>
    condition.putDomains (values.map fun value => s!"domain:{value}")
  | .domainKeyword values, condition => condition.putDomains values
  | .domainRegex value, condition => condition.putDomains [s!"regexp:{value}"]
  | .geosite values, condition => condition.putDomains (values.map fun value => s!"geosite:{value}")
  | .ipCidr values, condition => condition.putIps values
  | .geoip values, condition => condition.putIps (values.map fun value => s!"geoip:{value}")
  | .port values, condition => { condition with port := some (joinPorts values) }
  | .portExcept ports, condition => condition.putPortExcept ports
  | .protocol values, condition => condition.putProtocols values
  | .network network, condition => { condition with network := some (networkName network) }
  | .all values, condition =>
    putEach values (if values.isEmpty then condition.putNever else condition)

def putEach : List DestMatch → XrayMatchCondition → XrayMatchCondition
  | [], condition => condition
  | value :: values, condition => putEach values (putMatch value condition)

end

mutual

/-- Take the slots a selector needs; an empty conjunction has none to take. -/
def fillMatchSlots : DestMatch → List MatchSlot → Bool × List MatchSlot
  | .any, slots => (true, slots)
  | .sniffingFailed, slots => putSlot .attribute slots
  | .domainSuffix _, slots | .domainKeyword _, slots | .domainRegex _, slots
  | .geosite _, slots => putSlot .domain slots
  | .ipCidr _, slots | .geoip _, slots => putSlot .ip slots
  | .port _, slots | .portExcept _, slots => putSlot .port slots
  | .network _, slots => putSlot .network slots
  | .protocol _, slots => putSlot .protocol slots
  | .all values, slots =>
    if !values.isEmpty && (fillEachSlot values []).1 then fillEachSlot values slots
    else (false, slots)

/-- Each takes its field. -/
def fillEachSlot : List DestMatch → List MatchSlot → Bool × List MatchSlot
  | [], slots => (true, slots)
  | value :: values, slots =>
    let put := fillMatchSlots value slots
    if put.1 then fillEachSlot values put.2 else (false, put.2)

end

def isRepresentableMatch : DestMatch → Bool
  | .all values => !values.isEmpty && (fillEachSlot values []).1
  | _ => true

/-- What a selector is lowered to. -/
def matchCondition (destMatch : DestMatch) : XrayMatchCondition :=
  if isRepresentableMatch destMatch then putMatch destMatch .empty else XrayMatchCondition.empty.putNever

/-! ### Parts -/

mutual

/-- The selectors a conjunction is made of, nested ones opened. -/
def parts : DestMatch → List DestMatch
  | .all values => partsOfEach values
  | destMatch => [destMatch]

def partsOfEach : List DestMatch → List DestMatch
  | [] => []
  | value :: values => parts value ++ partsOfEach values

end

/-- The slot a selector that is no conjunction goes to. -/
def slotOf : DestMatch → Option MatchSlot
  | .any | .all _ => none
  | .sniffingFailed => some .attribute
  | .domainSuffix _ | .domainKeyword _ | .domainRegex _ | .geosite _ => some .domain
  | .ipCidr _ | .geoip _ => some .ip
  | .port _ | .portExcept _ => some .port
  | .network _ => some .network
  | .protocol _ => some .protocol

/-- The slots a selector needs, in order. -/
def slotsOf (destMatch : DestMatch) : List MatchSlot := (parts destMatch).filterMap slotOf

variable {slots more : List MatchSlot} {destMatch : DestMatch}

theorem putSlot_eq_true {slot : MatchSlot} (h : putSlot slot slots = (true, more)) :
    slot ∉ slots ∧ more = slot :: slots := by
  unfold putSlot at h
  split at h
  next => cases h
  next hfree => exact ⟨hfree, (Prod.mk.inj h).2.symm⟩

/-- What a selector that was accepted has taken: slots of its own, each once. -/
def Took (needed slots more : List MatchSlot) : Prop :=
  needed.Nodup ∧ needed.Disjoint slots ∧ more = needed.reverse ++ slots

theorem Took.nil (slots : List MatchSlot) : Took [] slots slots :=
  ⟨List.nodup_nil, List.disjoint_nil_left _, rfl⟩

theorem took_single {slot : MatchSlot} (h : putSlot slot slots = (true, more)) :
    Took [slot] slots more := by
  obtain ⟨hfree, hmore⟩ := putSlot_eq_true h
  exact ⟨List.nodup_singleton _, by simpa using hfree, hmore⟩

theorem Took.append {first second middle : List MatchSlot} (h : Took first slots middle)
    (h' : Took second middle more) : Took (first ++ second) slots more := by
  obtain ⟨hfirst, hapart, rfl⟩ := h
  obtain ⟨hsecond, hrest, rfl⟩ := h'
  rw [List.disjoint_append_right] at hrest
  refine ⟨List.nodup_append.mpr ⟨hfirst, hsecond, ?_⟩, ?_, by simp⟩
  · intro a ha b hb hab
    exact hrest.1 hb (by rw [← hab]; simpa using ha)
  · exact List.disjoint_append_left.mpr ⟨hapart, hrest.2⟩

mutual

theorem took_of_collect : ∀ (destMatch : DestMatch) {slots more : List MatchSlot},
    collectMatchSlots destMatch slots = (true, more) → Took (slotsOf destMatch) slots more
  | .any => by
    intro h
    rw [collectMatchSlots] at h
    obtain ⟨-, rfl⟩ := Prod.mk.inj h
    exact Took.nil _
  | .sniffingFailed | .domainSuffix _ | .domainKeyword _ | .domainRegex _ | .geosite _ | .ipCidr _
  | .geoip _ | .port _ | .portExcept _ | .network _ | .protocol _ =>
    fun h => took_single (by rwa [collectMatchSlots] at h)
  | .all values => by
    intro h
    rw [collectMatchSlots] at h
    split at h
    next => exact took_of_collectEach values h
    next => cases h

theorem took_of_collectEach : ∀ (values : List DestMatch) {slots more : List MatchSlot},
    collectEachSlot values slots = (true, more) →
      Took ((partsOfEach values).filterMap slotOf) slots more
  | [], slots, more, h => by
    rw [collectEachSlot] at h
    obtain ⟨-, rfl⟩ := Prod.mk.inj h
    exact Took.nil _
  | value :: values, slots, more, h => by
    rw [collectEachSlot] at h
    split at h
    next hput =>
      have hfirst : Took (slotsOf value) slots (collectMatchSlots value slots).2 :=
        took_of_collect value (Prod.ext hput rfl)
      rw [partsOfEach, List.filterMap_append]
      exact hfirst.append (took_of_collectEach values h)
    next => cases h

end

mutual

theorem fillMatchSlots_eq : ∀ (destMatch : DestMatch), hasEmptyMatch destMatch = false →
    ∀ slots, fillMatchSlots destMatch slots = collectMatchSlots destMatch slots
  | .any | .sniffingFailed | .domainSuffix _ | .domainKeyword _ | .domainRegex _ | .geosite _
  | .ipCidr _ | .geoip _ | .port _ | .portExcept _ | .network _ | .protocol _ =>
    fun _ _ => rfl
  | .all values => by
    intro h slots
    rw [hasEmptyMatch, Bool.or_eq_false_iff] at h
    rw [fillMatchSlots, collectMatchSlots, h.1, fillEachSlot_eq values h.2,
      fillEachSlot_eq values h.2]
    rfl

theorem fillEachSlot_eq : ∀ (values : List DestMatch), anyEmptyMatch values = false →
    ∀ slots, fillEachSlot values slots = collectEachSlot values slots
  | [], _, _ => rfl
  | value :: values, h, slots => by
    rw [anyEmptyMatch, Bool.or_eq_false_iff] at h
    rw [fillEachSlot, collectEachSlot, fillMatchSlots_eq value h.1, fillEachSlot_eq values h.2]

end

theorem isRepresentable_of_accepted (hempty : hasEmptyMatch destMatch = false)
    (hslots : hasUnrepresentableAllMatch destMatch = false) :
    isRepresentableMatch destMatch = true := by
  cases destMatch with
  | all values =>
    rw [hasEmptyMatch, Bool.or_eq_false_iff] at hempty
    rw [hasUnrepresentableAllMatch, Bool.not_eq_false'] at hslots
    rw [isRepresentableMatch, fillEachSlot_eq values hempty.2, hempty.1, hslots]
    rfl
  | _ => rfl

theorem slotsOf_nodup (hslots : hasUnrepresentableAllMatch destMatch = false) :
    (slotsOf destMatch).Nodup := by
  cases destMatch with
  | all values =>
    rw [hasUnrepresentableAllMatch, Bool.not_eq_false'] at hslots
    exact (took_of_collectEach values (Prod.ext hslots rfl)).1
  | any => exact List.nodup_nil
  | _ => exact List.nodup_singleton _

theorem putMatch_part (h : parts destMatch = [destMatch]) (condition : XrayMatchCondition) :
    putMatch destMatch condition
      = (parts destMatch).foldl (fun condition part => putMatch part condition) condition := by
  rw [h, List.foldl_cons, List.foldl_nil]

mutual

theorem putMatch_eq : ∀ (destMatch : DestMatch), hasEmptyMatch destMatch = false →
    ∀ condition, putMatch destMatch condition
      = (parts destMatch).foldl (fun condition part => putMatch part condition) condition
  | .any | .sniffingFailed | .domainSuffix _ | .domainKeyword _ | .domainRegex _ | .geosite _
  | .ipCidr _ | .geoip _ | .port _ | .portExcept _ | .network _ | .protocol _ =>
    fun _ => putMatch_part rfl
  | .all values => by
    intro h condition
    rw [hasEmptyMatch, Bool.or_eq_false_iff] at h
    rw [putMatch, h.1, putEach_eq values h.2]
    rfl

theorem putEach_eq : ∀ (values : List DestMatch), anyEmptyMatch values = false →
    ∀ condition, putEach values condition
      = (partsOfEach values).foldl (fun condition part => putMatch part condition) condition
  | [], _, _ => rfl
  | value :: values, h, condition => by
    rw [anyEmptyMatch, Bool.or_eq_false_iff] at h
    rw [putEach, putMatch_eq value h.1, putEach_eq values h.2, partsOfEach, List.foldl_append]

end

end Brocade.Artifacts
