/-
What a lowered condition means, and where that is what the selector means.

Lowering is a fold over the parts of a selector.  Parts of different kinds fill different slots,
so the slots behind the domain slot hold exactly where each part's own share of them does.  The
domain slot is the exception: besides the part that asks for a domain, a `PortExcept` that keeps
every port out puts the never-match entry there.  In a disjunction that entry takes nothing away
from another one, and this is the only case where the condition says more than the selector
(`preservesMeaning_iff`).
-/
import Brocade.Artifacts.Condition

namespace Brocade.Artifacts

open Ir Model

/-- A slot without entries asks for nothing, a filled one for any of its entries. -/
def slotHolds (answer : String → Bool) (entries : List String) : Bool :=
  entries.isEmpty || entries.any answer

namespace XrayMatchCondition

variable (request : Request) (condition : XrayMatchCondition)

/-- What the slots behind the domain slot ask for. -/
def restHolds : Bool :=
  slotHolds request.ip condition.ip && condition.port.all (fun port => request.portHolds [port])
    && condition.network.all (fun network => networkName request.network = network)
    && slotHolds request.protocol condition.protocol
    && (!condition.sniffingFailed || request.sniffingFailed)

/-- The condition matches a connection. -/
def holds : Bool := slotHolds request.domain condition.domain && condition.restHolds request

end XrayMatchCondition

open XrayMatchCondition

/-- Excluded ports are sixteen bits wide. -/
def Typed (destMatch : DestMatch) : Prop :=
  ∀ ports, .portExcept ports ∈ parts destMatch → ∀ port ∈ ports, port < 2 ^ 16

/-- On every connection the condition says what the selector does; no domain is the never-match
entry. -/
def PreservesMeaning (destMatch : DestMatch) : Prop :=
  ∀ request : Request, request.domain NEVER_MATCH_DOMAIN = false →
    (matchCondition destMatch).holds request = request.satisfies destMatch

/-- The entries a domain selector is spelled with. -/
def domainTexts : DestMatch → List String
  | .domainSuffix values => values.map fun value => s!"domain:{value}"
  | .domainKeyword values => values
  | .domainRegex value => [s!"regexp:{value}"]
  | .geosite values => values.map fun value => s!"geosite:{value}"
  | _ => []

/-- A `PortExcept` that leaves no port. -/
def keepsAllOut : DestMatch → Bool
  | .portExcept ports => (portSpans ports).isEmpty
  | _ => false

/-- The entries a part adds to the domain slot. -/
def domainEntries (part : DestMatch) : List String :=
  if keepsAllOut part then [NEVER_MATCH_DOMAIN] else domainTexts part

/-- A part's share behind the domain slot. -/
def partRest (request : Request) (part : DestMatch) : Bool :=
  keepsAllOut part || !(domainTexts part).isEmpty || request.satisfies part

/-- A slot that is not filled; the others may be filled again. -/
def Free (condition : XrayMatchCondition) : MatchSlot → Prop
  | .ip => condition.ip = []
  | .port => condition.port = none
  | .network => condition.network = none
  | .protocol => condition.protocol = []
  | .domain | .attribute => True

/-- A domain part with a real entry stands beside a part that keeps every port out. -/
def Clashes (destMatch : DestMatch) : Prop :=
  (∃ ports, .portExcept ports ∈ parts destMatch ∧ ∀ port, 1 ≤ port → port ≤ 65535 → port ∈ ports)
    ∧ ∃ part ∈ parts destMatch, ∃ entry ∈ domainTexts part, entry ≠ NEVER_MATCH_DOMAIN

/-! ### Parts -/

def isAll : DestMatch → Bool
  | .all _ => true
  | _ => false

/-- A part that the checks accept. -/
def Part (part : DestMatch) : Prop := isAll part = false ∧ hasEmptyMatch part = false

theorem part_single {destMatch part : DestMatch} (hleaf : isAll destMatch = false)
    (hparts : parts destMatch = [destMatch]) (h : hasEmptyMatch destMatch = false)
    (hp : part ∈ parts destMatch) : Part part := by
  rw [hparts, List.mem_singleton] at hp
  rw [hp]
  exact ⟨hleaf, h⟩

mutual

theorem part_of_accepted : ∀ (destMatch : DestMatch), hasEmptyMatch destMatch = false →
    ∀ part ∈ parts destMatch, Part part
  | .any | .sniffingFailed | .domainSuffix _ | .domainKeyword _ | .domainRegex _ | .geosite _
  | .ipCidr _ | .geoip _ | .port _ | .portExcept _ | .network _ | .protocol _ =>
    fun h _ => part_single rfl rfl h
  | .all values => by
    intro h part hp
    rw [hasEmptyMatch, Bool.or_eq_false_iff] at h
    exact part_of_each values h.2 part hp

theorem part_of_each : ∀ (values : List DestMatch), anyEmptyMatch values = false →
    ∀ part ∈ partsOfEach values, Part part
  | [], _, _, hp => nomatch hp
  | value :: values, h, part, hp => by
    rw [anyEmptyMatch, Bool.or_eq_false_iff] at h
    rw [partsOfEach, List.mem_append] at hp
    exact hp.elim (part_of_accepted value h.1 part) (part_of_each values h.2 part)

end

theorem satisfies_single {destMatch : DestMatch} (request : Request)
    (hparts : parts destMatch = [destMatch]) :
    request.satisfies destMatch = (parts destMatch).all request.satisfies := by
  rw [hparts, List.all_cons, List.all_nil, Bool.and_true]

mutual

theorem satisfies_parts (request : Request) : ∀ destMatch : DestMatch,
    request.satisfies destMatch = (parts destMatch).all request.satisfies
  | .any | .sniffingFailed | .domainSuffix _ | .domainKeyword _ | .domainRegex _ | .geosite _
  | .ipCidr _ | .geoip _ | .port _ | .portExcept _ | .network _ | .protocol _ =>
    satisfies_single request rfl
  | .all values => by
    rw [Request.satisfies, satisfies_each request values]
    rfl

theorem satisfies_each (request : Request) : ∀ values : List DestMatch,
    request.satisfiesEach values = (partsOfEach values).all request.satisfies
  | [] => rfl
  | value :: values => by
    rw [Request.satisfiesEach, satisfies_parts request value, satisfies_each request values,
      partsOfEach, List.all_append]

end

variable {part : DestMatch} {ps : List DestMatch} {values : List String} {ports : List ℕ}

theorem slots_behind (h : ((part :: ps).filterMap slotOf).Nodup) : (ps.filterMap slotOf).Nodup
      ∧ ∀ {slot : MatchSlot}, slotOf part = some slot → slot ∉ ps.filterMap slotOf := by
  rw [List.filterMap_cons] at h
  cases hslot : slotOf part with
  | none =>
    rw [hslot] at h
    exact ⟨h, nofun⟩
  | some own =>
    rw [hslot] at h
    obtain ⟨hnot, hnodup⟩ := List.nodup_cons.mp h
    refine ⟨hnodup, fun hsame => ?_⟩
    rwa [← Option.some.inj hsame]

theorem mem_slots {slot : MatchSlot} (hp : part ∈ ps) (hslot : slotOf part = some slot) :
    slot ∈ ps.filterMap slotOf :=
  List.mem_filterMap.mpr ⟨part, hp, hslot⟩

theorem part_unique (h : (ps.filterMap slotOf).Nodup) {p q : DestMatch} {slot : MatchSlot}
    (hp : p ∈ ps) (hq : q ∈ ps) (hps : slotOf p = some slot) (hqs : slotOf q = some slot) :
    p = q := by
  induction ps with
  | nil => cases hp
  | cons part ps ih =>
    obtain ⟨hrest, hbehind⟩ := slots_behind h
    rcases List.mem_cons.mp hp with hpart | hp'
    · rcases List.mem_cons.mp hq with hqpart | hq'
      · rw [hpart, hqpart]
      · exact absurd (mem_slots hq' hqs) (hbehind (hpart ▸ hps))
    · rcases List.mem_cons.mp hq with hqpart | hq'
      · exact absurd (mem_slots hp' hps) (hbehind (hqpart ▸ hqs))
      · exact ih hrest hp' hq'

/-! ### Lists of entries -/

theorem filter_notBlank (h : values.any (Text.trim · = "") = false) :
    values.filter notBlank = values := by
  rw [List.filter_eq_self]
  intro value hv
  have hne := List.any_eq_false.mp h value hv
  rw [notBlank, decide_eq_true_eq]
  simpa using hne

theorem notBlank_tagged {tag value : String} {c : Char} (hc : c ∈ tag.toList)
    (hblank : Text.isWhitespace c = false) : notBlank (tag ++ value) = true := by
  rw [notBlank, decide_eq_true_eq]
  refine Text.trim_ne_empty ?_ hblank
  rw [String.toList_append, List.mem_append]
  exact .inl hc

theorem putDomains_of (hblank : values.filter notBlank = values) (hne : values.isEmpty = false)
    (condition : XrayMatchCondition) :
    condition.putDomains values = { condition with domain := condition.domain ++ values } := by
  simp only [putDomains, hblank]
  rw [if_neg (by rw [hne]; exact Bool.false_ne_true)]

theorem putIps_of (hblank : values.filter notBlank = values) (hne : values.isEmpty = false)
    (condition : XrayMatchCondition) :
    condition.putIps values = { condition with ip := condition.ip ++ values } := by
  simp only [putIps, hblank]
  rw [if_neg (by rw [hne]; exact Bool.false_ne_true)]

theorem putProtocols_of (hblank : values.filter notBlank = values) (hne : values.isEmpty = false)
    (condition : XrayMatchCondition) :
    condition.putProtocols values = { condition with protocol := condition.protocol ++ values } := by
  simp only [putProtocols, hblank]
  rw [if_neg (by rw [hne]; exact Bool.false_ne_true)]

/-! ### One part -/

/-- What lowering a part does to a condition. -/
structure Lowered (request : Request) (part : DestMatch) (condition next : XrayMatchCondition) :
    Prop where
  domain : next.domain = condition.domain ++ domainEntries part
  rest : (∀ slot, slotOf part = some slot → Free condition slot) →
    next.restHolds request = (condition.restHolds request && partRest request part)
  free : ∀ slot, slotOf part ≠ some slot → Free condition slot → Free next slot

section Slots

variable {request : Request} {condition : XrayMatchCondition}

theorem restHolds_ip {values : List String} (h : condition.ip = []) (hne : values.isEmpty = false) :
    ({ condition with ip := condition.ip ++ values }).restHolds request
      = (condition.restHolds request && values.any request.ip) := by
  simp only [restHolds, slotHolds, h, List.nil_append, hne, List.isEmpty_nil, Bool.true_or,
    Bool.false_or, Bool.true_and]
  ac_rfl

theorem restHolds_protocol {values : List String} (h : condition.protocol = [])
    (hne : values.isEmpty = false) :
    ({ condition with protocol := condition.protocol ++ values }).restHolds request
      = (condition.restHolds request && values.any request.protocol) := by
  simp only [restHolds, slotHolds, h, List.nil_append, hne, List.isEmpty_nil, Bool.true_or,
    Bool.false_or, Bool.and_true]
  ac_rfl

theorem restHolds_port {port : String} (h : condition.port = none) :
    ({ condition with port := some port }).restHolds request
      = (condition.restHolds request && request.portHolds [port]) := by
  simp only [restHolds, h, Option.all_some, Option.all_none, Bool.and_true]
  ac_rfl

theorem restHolds_network {network : Network} (h : condition.network = none) :
    ({ condition with network := some (networkName network) }).restHolds request
      = (condition.restHolds request && decide (request.network = network)) := by
  have hname : decide (networkName request.network = networkName network)
      = decide (request.network = network) := by
    cases request.network <;> cases network <;> rfl
  simp only [restHolds, h, Option.all_some, Option.all_none, Bool.and_true, hname]
  ac_rfl

theorem restHolds_sniffingFailed : ({ condition with sniffingFailed := true }).restHolds request
      = (condition.restHolds request && request.sniffingFailed) := by
  simp only [restHolds, Bool.not_true, Bool.false_or, Bool.and_assoc]
  cases request.sniffingFailed <;> simp

theorem lowered_domain {part : DestMatch} (hkeep : keepsAllOut part = false)
    (hne : (domainTexts part).isEmpty = false) : Lowered request part condition
      { condition with domain := condition.domain ++ domainTexts part } where
  domain := by rw [domainEntries, hkeep]; rfl
  rest _ := by
    rw [partRest, hkeep, hne]
    simp [restHolds]
  free slot _ h := by cases slot <;> exact h

theorem lowered_rest {part : DestMatch} {next : XrayMatchCondition} (hkeep : keepsAllOut part = false)
    (htexts : domainTexts part = []) (hdomain : next.domain = condition.domain)
    (hrest : (∀ slot, slotOf part = some slot → Free condition slot) →
      next.restHolds request = (condition.restHolds request && request.satisfies part))
    (hfree : ∀ slot, slotOf part ≠ some slot → Free condition slot → Free next slot) :
    Lowered request part condition next where
  domain := by
    rw [hdomain, domainEntries, hkeep, htexts]
    exact (List.append_nil _).symm
  rest h := by
    rw [partRest, hkeep, htexts]
    exact hrest h
  free := hfree

end Slots

theorem portHolds_joinPorts (request : Request) (h : values ≠ []) :
    request.portHolds [joinPorts values] = request.portHolds values := by
  have hitems : portItems [joinPorts values] = portItems values := by
    unfold portItems joinPorts
    rw [List.flatMap_cons, List.flatMap_nil, List.append_nil,
      show "," = String.singleton ',' from rfl, Text.split_intercalate h]
  unfold Request.portHolds
  rw [hitems]

theorem mem_spanText {span : ℕ × ℕ} {c : Char} (h : c ∈ (spanText span).toList) :
    c = '-' ∨ Address.isDecimal c = true := by
  rw [spanText_toList, List.mem_append, List.mem_cons] at h
  rcases h with h | h | h
  · exact .inr (Address.isDecimal_of_mem_toString h)
  · exact .inl h
  · exact .inr (Address.isDecimal_of_mem_toString h)

theorem portItems_spans (spans : List (ℕ × ℕ)) :
    portItems (spans.map spanText) = spans.map spanText := by
  have hunbroken : ∀ span : ℕ × ℕ, Text.trim (spanText span) = spanText span := by
    intro span
    refine Text.trim_of_unbroken fun c hc => ?_
    rw [spanText_toList, List.mem_append, List.mem_cons] at hc
    rcases hc with hc | rfl | hc
    · exact unbroken_toString _ c hc
    · rfl
    · exact unbroken_toString _ c hc
  have hsplit : ∀ span : ℕ × ℕ, Text.split (spanText span) ',' = [spanText span] := by
    intro span
    refine Text.split_of_not_mem fun hcomma => ?_
    rcases mem_spanText hcomma with h | h <;> exact absurd h (by decide)
  unfold portItems
  induction spans with
  | nil => rfl
  | cons span spans ih =>
    rw [List.map_cons, List.flatMap_cons, hsplit, List.singleton_append, List.map_cons, hunbroken, ih]

theorem keySet_le (h : ∀ port ∈ ports, port < 2 ^ 16) : ∀ k ∈ OrdMap.keySet ports, k ≤ 65535 := by
  intro k hk
  have hbound := h k (OrdMap.mem_keySet.mp hk)
  omega

theorem mem_portSpans (h : ∀ port ∈ ports, port < 2 ^ 16) (n : ℕ) :
    (∃ span ∈ portSpans ports, span.1 ≤ n ∧ n ≤ span.2) ↔ 1 ≤ n ∧ n ≤ 65535 ∧ n ∉ ports := by
  have hspans := Gaps.mem_spans (OrdMap.sorted_keySet ports) (keySet_le h)
    (fun k _ => (by omega : 1 ≤ k + 1)) n
  rwa [OrdMap.mem_keySet] at hspans

theorem portHolds_spans (request : Request) (h : ∀ port ∈ ports, port < 2 ^ 16) :
    request.portHolds ((portSpans ports).map spanText)
      = (decide (1 ≤ request.port) && decide (request.port ≤ 65535)
          && !ports.contains request.port) := by
  unfold Request.portHolds
  rw [portItems_spans, Bool.eq_iff_iff, List.any_map, List.any_eq_true]
  simp only [Function.comp_apply, Bool.and_eq_true, decide_eq_true_eq, Bool.not_eq_true',
    List.contains_eq_mem, decide_eq_false_iff_not, and_assoc]
  rw [← mem_portSpans h]
  refine exists_congr fun span => and_congr_right fun hspan => ?_
  obtain ⟨hlow, hends, hhigh⟩ := Gaps.span_ends (keySet_le h) (Nat.le_refl 1) span hspan
  rw [portItemHolds_spanText hlow hends (by omega), Bool.and_eq_true, decide_eq_true_eq,
    decide_eq_true_eq]

theorem keepsAllOut_iff (h : ∀ port ∈ ports, port < 2 ^ 16) :
    keepsAllOut (.portExcept ports) = true ↔ ∀ port, 1 ≤ port → port ≤ 65535 → port ∈ ports := by
  show (portSpans ports).isEmpty = true ↔ _
  rw [List.isEmpty_iff]
  constructor
  · intro hnil port hlow hhigh
    by_contra hout
    obtain ⟨span, hspan, -⟩ := (mem_portSpans h port).mpr ⟨hlow, hhigh, hout⟩
    rw [hnil] at hspan
    cases hspan
  · intro hall
    rw [List.eq_nil_iff_forall_not_mem]
    intro span hspan
    obtain ⟨hlow, hends, hhigh⟩ := Gaps.span_ends (keySet_le h) (Nat.le_refl 1) span hspan
    exact ((mem_portSpans h span.1).mp ⟨span, hspan, Nat.le_refl _, hends⟩).2.2
      (hall span.1 hlow (by omega))

section Lowering

variable {request : Request} {condition : XrayMatchCondition}

theorem lowered_domainList {part : DestMatch} (hkeep : keepsAllOut part = false)
    (hput : putMatch part condition = condition.putDomains (domainTexts part))
    (hblank : (domainTexts part).filter notBlank = domainTexts part)
    (hne : (domainTexts part).isEmpty = false) :
    Lowered request part condition (putMatch part condition) := by
  rw [hput, putDomains_of hblank hne]
  exact lowered_domain hkeep hne

theorem lowered_ipList {part : DestMatch} {values : List String} (hslot : slotOf part = some .ip)
    (hkeep : keepsAllOut part = false) (htexts : domainTexts part = [])
    (hput : putMatch part condition = condition.putIps values)
    (hblank : values.filter notBlank = values) (hne : values.isEmpty = false)
    (hmeans : request.satisfies part = values.any request.ip) :
    Lowered request part condition (putMatch part condition) := by
  rw [hput, putIps_of hblank hne]
  refine lowered_rest hkeep htexts rfl ?_ ?_
  · intro hfree
    rw [hmeans]
    exact restHolds_ip (hfree .ip hslot) hne
  · intro slot hother h
    cases slot with
    | ip => exact absurd hslot hother
    | _ => exact h

theorem lowered_port {part : DestMatch} {port : String} (hslot : slotOf part = some .port)
    (hkeep : keepsAllOut part = false) (htexts : domainTexts part = [])
    (hmeans : request.satisfies part = request.portHolds [port]) :
    Lowered request part condition { condition with port := some port } := by
  refine lowered_rest hkeep htexts rfl ?_ ?_
  · intro hfree
    rw [hmeans]
    exact restHolds_port (hfree .port hslot)
  · intro slot hother h
    cases slot with
    | port => exact absurd hslot hother
    | _ => exact h

theorem filter_tagged {tag : String} {c : Char} {values : List String} (hc : c ∈ tag.toList)
    (hblank : Text.isWhitespace c = false) :
    (values.map fun value => tag ++ value).filter notBlank = values.map fun value => tag ++ value := by
  rw [List.filter_eq_self]
  intro entry hentry
  obtain ⟨value, -, rfl⟩ := List.mem_map.mp hentry
  exact notBlank_tagged hc hblank

/-- **Lowering a part fills its own slot, and the domain slot with what it adds there.** -/
theorem lowered_putMatch {part : DestMatch} (hpart : Part part) (htyped : ∀ ports,
    part = .portExcept ports → ∀ port ∈ ports, port < 2 ^ 16) :
    Lowered request part condition (putMatch part condition) := by
  obtain ⟨hleaf, haccepted⟩ := hpart
  cases part with
  | any =>
    refine lowered_rest rfl rfl rfl (fun _ => ?_) fun _ _ h => h
    exact (Bool.and_true _).symm
  | sniffingFailed =>
    refine lowered_rest rfl rfl rfl (fun _ => restHolds_sniffingFailed) ?_
    intro slot _ h
    cases slot <;> exact h
  | domainSuffix values =>
    rw [hasEmptyMatch, Bool.or_eq_false_iff] at haccepted
    exact lowered_domainList rfl rfl (filter_tagged (c := 'd') (by decide) rfl)
      (by simpa [domainTexts] using haccepted.2)
  | domainKeyword values =>
    rw [hasEmptyMatch, Bool.or_eq_false_iff] at haccepted
    exact lowered_domainList rfl rfl (filter_notBlank haccepted.1) haccepted.2
  | domainRegex value =>
    have htexts : domainTexts (.domainRegex value) = [value].map fun value => "regexp:" ++ value :=
      rfl
    refine lowered_domainList rfl rfl ?_ rfl
    rw [htexts]
    exact filter_tagged (c := 'r') (by decide) rfl
  | geosite values =>
    rw [hasEmptyMatch, Bool.or_eq_false_iff] at haccepted
    exact lowered_domainList rfl rfl (filter_tagged (c := 'g') (by decide) rfl)
      (by simpa [domainTexts] using haccepted.2)
  | ipCidr values =>
    rw [hasEmptyMatch, Bool.or_eq_false_iff] at haccepted
    exact lowered_ipList rfl rfl rfl rfl (filter_notBlank haccepted.1) haccepted.2 rfl
  | geoip values =>
    rw [hasEmptyMatch, Bool.or_eq_false_iff] at haccepted
    refine lowered_ipList rfl rfl rfl rfl (filter_tagged (c := 'g') (by decide) rfl)
      (by simpa using haccepted.2) ?_
    rw [List.any_map]
    rfl
  | port values =>
    rw [hasEmptyMatch, Bool.or_eq_false_iff] at haccepted
    refine lowered_port rfl rfl rfl ?_
    rw [portHolds_joinPorts]
    · rfl
    · intro hnil
      rw [hnil] at haccepted
      exact absurd haccepted.2 (by decide)
  | portExcept ports =>
    show Lowered request _ condition (condition.putPortExcept ports)
    unfold XrayMatchCondition.putPortExcept
    dsimp only
    by_cases hnone : (portSpans ports).isEmpty = true
    · rw [if_pos hnone]
      refine ⟨?_, ?_, ?_⟩
      · rw [domainEntries, show keepsAllOut (.portExcept ports) = true from hnone]
        rfl
      · intro _
        rw [partRest, show keepsAllOut (.portExcept ports) = true from hnone]
        exact (Bool.and_true _).symm
      · intro slot _ h
        cases slot <;> exact h
    · rw [if_neg hnone]
      refine lowered_port rfl (by simpa [keepsAllOut] using hnone) rfl ?_
      rw [portHolds_joinPorts, portHolds_spans request (htyped ports rfl)]
      · rfl
      · intro hnil
        rw [List.map_eq_nil_iff] at hnil
        exact hnone (by rw [hnil]; rfl)
  | network network =>
    refine lowered_rest rfl rfl rfl (fun hfree => restHolds_network (hfree .network rfl)) ?_
    intro slot hother h
    cases slot with
    | network => exact absurd rfl hother
    | _ => exact h
  | protocol values =>
    rw [hasEmptyMatch, Bool.or_eq_false_iff] at haccepted
    show Lowered request _ condition (condition.putProtocols values)
    rw [putProtocols_of (filter_notBlank haccepted.1) haccepted.2]
    refine lowered_rest rfl rfl rfl (fun hfree => ?_) ?_
    · exact restHolds_protocol (hfree .protocol rfl) haccepted.2
    · intro slot hother h
      cases slot with
      | protocol => exact absurd rfl hother
      | _ => exact h
  | all values => cases hleaf

end Lowering

/-! ### All parts -/

section Parts

variable {request : Request}

theorem lowered_parts : ∀ (ps : List DestMatch), (∀ part ∈ ps, Part part) →
    (∀ ports, .portExcept ports ∈ ps → ∀ port ∈ ports, port < 2 ^ 16) →
    (ps.filterMap slotOf).Nodup → ∀ condition : XrayMatchCondition,
    (∀ slot ∈ ps.filterMap slotOf, Free condition slot) →
      (ps.foldl (fun condition part => putMatch part condition) condition).holds request
        = (slotHolds request.domain (condition.domain ++ ps.flatMap domainEntries)
          && (condition.restHolds request && ps.all (partRest request)))
  | [], _, _, _, condition, _ => by
    simp [XrayMatchCondition.holds]
  | part :: ps, hparts, htyped, hslots, condition, hfree => by
    have hlow : Lowered request part condition (putMatch part condition) :=
      lowered_putMatch (hparts part List.mem_cons_self)
        fun ports heq => htyped ports (heq ▸ List.mem_cons_self)
    have hown : ∀ slot, slotOf part = some slot → Free condition slot :=
      fun slot hslot => hfree slot (mem_slots List.mem_cons_self hslot)
    obtain ⟨hrest, hbehind⟩ := slots_behind hslots
    have hnext : ∀ slot ∈ ps.filterMap slotOf, Free (putMatch part condition) slot := by
      intro slot hslot
      obtain ⟨p, hp, hps⟩ := List.mem_filterMap.mp hslot
      exact hlow.free slot (fun hsame => hbehind hsame hslot)
        (hfree slot (mem_slots (List.mem_cons_of_mem _ hp) hps))
    rw [List.foldl_cons, lowered_parts ps (fun p hp => hparts p (List.mem_cons_of_mem _ hp))
      (fun ports hp => htyped ports (List.mem_cons_of_mem _ hp)) hrest _ hnext]
    rw [hlow.domain, hlow.rest hown, List.flatMap_cons, List.all_cons, List.append_assoc,
      Bool.and_assoc]

theorem matchCondition_holds {destMatch : DestMatch} (htyped : Typed destMatch)
    (hempty : hasEmptyMatch destMatch = false) (hslots : hasUnrepresentableAllMatch destMatch = false) :
    (matchCondition destMatch).holds request
      = (slotHolds request.domain ((parts destMatch).flatMap domainEntries)
        && (parts destMatch).all (partRest request)) := by
  rw [matchCondition, if_pos (isRepresentable_of_accepted hempty hslots), putMatch_eq _ hempty,
    lowered_parts (parts destMatch) (part_of_accepted destMatch hempty) htyped (slotsOf_nodup hslots)]
  · rfl
  · intro slot _
    cases slot <;> first | rfl | trivial

theorem satisfies_texts {part : DestMatch} (h : domainTexts part ≠ []) :
    request.satisfies part = (domainTexts part).any request.domain := by
  cases part with
  | domainSuffix values => exact List.any_map.symm
  | domainKeyword values => rfl
  | domainRegex value => exact (Bool.or_false _).symm
  | geosite values => exact List.any_map.symm
  | _ => exact absurd rfl h

theorem keepsAllOut_eq {part : DestMatch} (h : keepsAllOut part = true) :
    ∃ ports, part = .portExcept ports := by
  cases part with
  | portExcept ports => exact ⟨ports, rfl⟩
  | _ => cases h

theorem satisfies_keepsAllOut {part : DestMatch} (h : keepsAllOut part = true)
    (htyped : ∀ ports, part = .portExcept ports → ∀ port ∈ ports, port < 2 ^ 16) :
    request.satisfies part = false := by
  obtain ⟨ports, rfl⟩ := keepsAllOut_eq h
  have hall := (keepsAllOut_iff (htyped ports rfl)).mp h
  show (decide (1 ≤ request.port) && decide (request.port ≤ 65535)
    && !ports.contains request.port) = false
  by_cases hlow : 1 ≤ request.port
  · by_cases hhigh : request.port ≤ 65535
    · have hin := hall request.port hlow hhigh
      simp [hin]
    · simp [hhigh]
  · simp [hlow]

theorem satisfies_part {part : DestMatch} (hnever : request.domain NEVER_MATCH_DOMAIN = false)
    (htyped : ∀ ports, part = .portExcept ports → ∀ port ∈ ports, port < 2 ^ 16) :
    request.satisfies part
      = (slotHolds request.domain (domainEntries part) && partRest request part) := by
  cases hkeep : keepsAllOut part with
  | true =>
    rw [satisfies_keepsAllOut hkeep htyped, domainEntries, hkeep]
    simp [slotHolds, hnever]
  | false =>
    rw [domainEntries, partRest, hkeep]
    cases htexts : domainTexts part with
    | nil => simp [slotHolds]
    | cons entry entries =>
      rw [satisfies_texts (by rw [htexts]; exact List.cons_ne_nil _ _), htexts]
      simp [slotHolds]

theorem slotOf_entries {part : DestMatch} (hkeep : keepsAllOut part = false)
    (h : domainEntries part ≠ []) : slotOf part = some .domain := by
  rw [domainEntries, hkeep] at h
  cases part <;> first | rfl | exact absurd rfl h

/-- Without a part that keeps every port out, at most one part adds to the domain slot. -/
theorem slotHolds_flatMap : ∀ {ps : List DestMatch}, (ps.filterMap slotOf).Nodup →
    (∀ part ∈ ps, keepsAllOut part = false) → slotHolds request.domain (ps.flatMap domainEntries)
        = ps.all fun part => slotHolds request.domain (domainEntries part)
  | [], _, _ => rfl
  | part :: ps, hslots, hkeep => by
    obtain ⟨hrest, hbehind⟩ := slots_behind hslots
    have hother : ∀ p ∈ ps, keepsAllOut p = false := fun p hp => hkeep p (List.mem_cons_of_mem _ hp)
    rw [List.flatMap_cons, List.all_cons]
    cases hentries : domainEntries part with
    | nil => rw [List.nil_append, slotHolds_flatMap hrest hother]; rfl
    | cons entry entries =>
      -- the slot is this part's
      have hslot : slotOf part = some .domain := slotOf_entries (hkeep part List.mem_cons_self)
        (by rw [hentries]; exact List.cons_ne_nil _ _)
      have hnone : ∀ p ∈ ps, domainEntries p = [] := by
        intro p hp
        by_contra hne
        exact hbehind hslot (mem_slots hp (slotOf_entries (hother p hp) hne))
      have hflat : ps.flatMap domainEntries = [] := List.flatMap_eq_nil_iff.mpr hnone
      have hall : (ps.all fun p => slotHolds request.domain (domainEntries p)) = true := by
        rw [List.all_eq_true]
        intro p hp
        rw [hnone p hp]
        rfl
      rw [hflat, List.append_nil, hall, Bool.and_true]

end Parts

/-! ### Where the meaning is kept -/

/-- The connection that answers yes to everything but the never-match entry, on no port. -/
def anyDomain (network : Network) : Request where
  domain entry := entry ≠ NEVER_MATCH_DOMAIN
  ip _ := true
  port := 0
  freeItem _ := true
  network := network
  protocol _ := true
  sniffingFailed := true

theorem any_of_not_isEmpty {answer : String → Bool} (h : values.isEmpty = false)
    (hyes : ∀ value, answer value = true) : values.any answer = true := by
  cases values with
  | nil => cases h
  | cons value values => rw [List.any_cons, hyes, Bool.true_or]

/-- It meets every part's share behind the domain slot, where ports are asked for by a part that
keeps all of them out. -/
theorem partRest_anyDomain {network : Network} (hpart : Part part)
    (hport : slotOf part = some .port → keepsAllOut part = true)
    (hnetwork : ∀ wanted, part = .network wanted → network = wanted) :
    partRest (anyDomain network) part = true := by
  obtain ⟨hleaf, haccepted⟩ := hpart
  have hyes : (anyDomain network).satisfies part = true → partRest (anyDomain network) part = true := by
    intro h
    rw [partRest, h, Bool.or_true]
  have htext : (domainTexts part).isEmpty = false → partRest (anyDomain network) part = true := by
    intro h
    rw [partRest, h]
    simp
  cases part with
  | any => exact hyes rfl
  | sniffingFailed => exact hyes rfl
  | domainSuffix values | geosite values =>
    rw [hasEmptyMatch, Bool.or_eq_false_iff] at haccepted
    exact htext (by simpa [domainTexts] using haccepted.2)
  | domainKeyword values =>
    rw [hasEmptyMatch, Bool.or_eq_false_iff] at haccepted
    exact htext haccepted.2
  | domainRegex value => exact htext rfl
  | ipCidr values | geoip values | protocol values =>
    rw [hasEmptyMatch, Bool.or_eq_false_iff] at haccepted
    exact hyes (any_of_not_isEmpty haccepted.2 fun _ => rfl)
  | port values => cases hport rfl
  | portExcept ports =>
    rw [partRest, hport rfl]
    rfl
  | network wanted => exact hyes (decide_eq_true (hnetwork wanted rfl))
  | all values => cases hleaf

section Meaning

variable {destMatch : DestMatch}

theorem typed_part (htyped : Typed destMatch) {part : DestMatch} (hp : part ∈ parts destMatch) :
    ∀ ports, part = .portExcept ports → ∀ port ∈ ports, port < 2 ^ 16 :=
  fun ports heq => htyped ports (heq ▸ hp)

theorem preserves_of_not_clashes (htyped : Typed destMatch) (hempty : hasEmptyMatch destMatch = false)
    (hslots : hasUnrepresentableAllMatch destMatch = false) (hclash : ¬ Clashes destMatch) :
    PreservesMeaning destMatch := by
  intro request hnever
  rw [matchCondition_holds htyped hempty hslots, satisfies_parts]
  by_cases hkeep : ∃ part ∈ parts destMatch, keepsAllOut part = true
  · -- a part that keeps every port out: neither side matches
    obtain ⟨out, hout, hkeepout⟩ := hkeep
    have hsatisfies : (parts destMatch).all request.satisfies = false := by
      rw [List.all_eq_false]
      refine ⟨out, hout, ?_⟩
      rw [satisfies_keepsAllOut hkeepout (typed_part htyped hout)]
      exact Bool.false_ne_true
    have hmarker : ∀ entry ∈ (parts destMatch).flatMap domainEntries, entry = NEVER_MATCH_DOMAIN := by
      intro entry hentry
      obtain ⟨part, hp, hentry⟩ := List.mem_flatMap.mp hentry
      by_contra hne
      rw [domainEntries] at hentry
      split at hentry
      · exact hne (List.mem_singleton.mp hentry)
      · refine hclash ⟨?_, part, hp, entry, hentry, hne⟩
        obtain ⟨ports, rfl⟩ := keepsAllOut_eq hkeepout
        exact ⟨ports, hout, (keepsAllOut_iff (htyped ports hout)).mp hkeepout⟩
    have hfilled : NEVER_MATCH_DOMAIN ∈ (parts destMatch).flatMap domainEntries := by
      refine List.mem_flatMap.mpr ⟨out, hout, ?_⟩
      rw [domainEntries, hkeepout]
      exact List.mem_singleton.mpr rfl
    have hslot : slotHolds request.domain ((parts destMatch).flatMap domainEntries) = false := by
      rw [slotHolds, Bool.or_eq_false_iff, List.isEmpty_eq_false_iff, List.any_eq_false]
      refine ⟨List.ne_nil_of_mem hfilled, fun entry hentry => ?_⟩
      rw [hmarker entry hentry, hnever]
      exact Bool.false_ne_true
    rw [hslot, hsatisfies, Bool.false_and]
  · -- at most one part adds to the domain slot
    have hnone : ∀ part ∈ parts destMatch, keepsAllOut part = false := by
      intro part hp
      by_contra hkept
      exact hkeep ⟨part, hp, by simpa using hkept⟩
    have hmeans : ∀ part ∈ parts destMatch, request.satisfies part
        = (slotHolds request.domain (domainEntries part) && partRest request part) :=
      fun part hp => satisfies_part hnever (typed_part htyped hp)
    rw [slotHolds_flatMap (slotsOf_nodup hslots) hnone, Bool.eq_iff_iff, Bool.and_eq_true,
      List.all_eq_true, List.all_eq_true, List.all_eq_true, ← forall₂_and]
    refine forall₂_congr fun part hp => ?_
    rw [hmeans part hp, Bool.and_eq_true]

theorem not_preserves_of_clashes (htyped : Typed destMatch) (hempty : hasEmptyMatch destMatch = false)
    (hslots : hasUnrepresentableAllMatch destMatch = false) (hclash : Clashes destMatch) :
    ¬ PreservesMeaning destMatch := by
  obtain ⟨⟨ports, hports, hall⟩, part, hp, entry, hentry, hne⟩ := hclash
  have hkeep : keepsAllOut (.portExcept ports) = true := (keepsAllOut_iff (htyped ports hports)).mpr hall
  intro hpreserves
  -- the one network the selector may ask for
  obtain ⟨network, hnetwork⟩ : ∃ network : Network,
      ∀ wanted, .network wanted ∈ parts destMatch → network = wanted := by
    by_cases hasks : ∃ wanted, .network wanted ∈ parts destMatch
    · obtain ⟨wanted, hwanted⟩ := hasks
      refine ⟨wanted, fun other hother => ?_⟩
      exact DestMatch.network.inj (part_unique (slotsOf_nodup hslots) hwanted hother rfl rfl)
    · exact ⟨.tcp, fun wanted hwanted => absurd ⟨wanted, hwanted⟩ hasks⟩
  have hmatch := hpreserves (anyDomain network) (by simp [anyDomain])
  have hselector : (anyDomain network).satisfies destMatch = false := by
    rw [satisfies_parts, List.all_eq_false]
    refine ⟨.portExcept ports, hports, ?_⟩
    rw [satisfies_keepsAllOut hkeep (typed_part htyped hports)]
    exact Bool.false_ne_true
  have hcondition : (matchCondition destMatch).holds (anyDomain network) = true := by
    rw [matchCondition_holds htyped hempty hslots, Bool.and_eq_true]
    constructor
    · have hkept : keepsAllOut part = false := by
        cases part <;> first | rfl | exact nomatch hentry
      rw [slotHolds, Bool.or_eq_true, List.any_eq_true]
      refine .inr ⟨entry, List.mem_flatMap.mpr ⟨part, hp, ?_⟩, by simpa [anyDomain] using hne⟩
      rw [domainEntries, hkept]
      exact hentry
    · rw [List.all_eq_true]
      intro other hother
      refine partRest_anyDomain (part_of_accepted destMatch hempty other hother) ?_ ?_
      · intro hslot
        rw [part_unique (slotsOf_nodup hslots) hother hports hslot rfl]
        exact hkeep
      · exact fun wanted heq => hnetwork wanted (heq ▸ hother)
  rw [hselector, hcondition] at hmatch
  cases hmatch

/-- **Lowering keeps the meaning of what the checks accept, unless the never-match entry of a part
that keeps every port out lands beside a real entry of the domain slot.** -/
theorem preservesMeaning_iff (htyped : Typed destMatch) (hempty : hasEmptyMatch destMatch = false)
    (hslots : hasUnrepresentableAllMatch destMatch = false) :
    PreservesMeaning destMatch ↔ ¬ Clashes destMatch := by
  constructor
  · exact fun hpreserves hclash => not_preserves_of_clashes htyped hempty hslots hclash hpreserves
  · exact preserves_of_not_clashes htyped hempty hslots

end Meaning

/-- A suffix beside all ports but one. -/
theorem preservesMeaning_but_one :
    PreservesMeaning (.all [.domainSuffix ["example.com"], .portExcept [443]])
      ↔ ¬ Clashes (.all [.domainSuffix ["example.com"], .portExcept [443]]) := by
  refine preservesMeaning_iff ?_ (by decide +kernel) (by decide +kernel)
  intro ports hports port hport
  simp [parts, partsOfEach] at hports
  subst hports
  simp at hport
  omega

/-- A suffix beside a part that keeps every port out. -/
def suffixOnNoPort : DestMatch :=
  .all [.domainSuffix ["example.com"], .portExcept (List.range' 1 65535)]

/-- The checks accept it, and its condition matches the suffix. -/
theorem not_preservesMeaning_no_port : Typed suffixOnNoPort ∧ hasEmptyMatch suffixOnNoPort = false
    ∧ hasUnrepresentableAllMatch suffixOnNoPort = false ∧ ¬ PreservesMeaning suffixOnNoPort := by
  have hports : ∀ port, port ∈ List.range' 1 65535 ↔ 1 ≤ port ∧ port ≤ 65535 := by
    intro port
    rw [List.mem_range'_1]
    omega
  have htyped : Typed suffixOnNoPort := by
    intro ports hmem port hport
    simp [suffixOnNoPort, parts, partsOfEach] at hmem
    subst hmem
    have hrange := (hports port).mp hport
    omega
  have hempty : hasEmptyMatch suffixOnNoPort = false := by
    have hsome : (List.range' 1 65535).isEmpty = false := rfl
    simp only [suffixOnNoPort, hasEmptyMatch, anyEmptyMatch, hsome]
    decide +kernel
  refine ⟨htyped, hempty, rfl, not_preserves_of_clashes htyped hempty rfl ?_⟩
  refine ⟨⟨List.range' 1 65535, by simp [suffixOnNoPort, parts, partsOfEach], ?_⟩,
    .domainSuffix ["example.com"], by simp [suffixOnNoPort, parts, partsOfEach],
    "domain:example.com", List.mem_singleton.mpr rfl, by decide⟩
  exact fun port hlow hhigh => (hports port).mpr ⟨hlow, hhigh⟩

end Brocade.Artifacts
