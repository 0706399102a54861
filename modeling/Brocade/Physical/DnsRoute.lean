/-
The way out of a machine's resolver: what the checks count, and what the plan can use.

The checks count the outbounds of all landing rules of a machine by their source address alone.
The plan gives a rule whose domains have a resolver of their own an outbound of its own, and only
counts the rest.  So every outbound the plan counts is counted by the checks, and the two disagree
where all of them, or all but one, belong to rules with a resolver (`dnsRoute_agrees_iff`).
-/
import Brocade.Lib.Ip
import Brocade.Physical.Egress

namespace Brocade.Physical

open Ir Model

/-! ### Landing rules -/

/-- The machine has a resolver for exactly the domains of the rule. -/
def hasResolver (node : AppNode) (rule : Rule) : Bool :=
  rule.destMatch.canonicalEgressDnsSelector.any fun selector =>
    node.egressDns.any fun policy => policy.selector.canonicalEgressDnsSelector = some selector

/-- A rule lands traffic on the machine from the source address. -/
def LandsFrom (apps : List AppIr) (nodeId : String) (rule : Rule) (sendThrough : Option String) : Prop :=
  ∃ app ∈ apps, rule ∈ rulesOn app nodeId ∧ rule.action = .egress sendThrough

/-- Source addresses are addresses, as text. -/
def SourcesTyped (apps : List AppIr) : Prop :=
  ∀ nodeId rule source, LandsFrom apps nodeId rule (some source) → (Ip.parse source).isSome = true

/-- The checks report that the resolver has no unique way out. -/
def ReportsAmbiguous (apps : List AppIr) (nodeId : String) : Prop :=
  ∃ diagnostic ∈ validateAppSetDns apps,
    diagnostic.code = "dns.route-ambiguous" ∧ diagnostic.location = nodeId

/-! ### Names -/

theorem parse_dns (rest : String) : Ip.parse ("dns:" ++ rest) = none := by
  unfold Ip.parse Ip.parseIpv6
  rw [String.toList_append, show "dns:".toList = ['d', 'n', 's', ':'] from rfl]
  rfl

theorem egressTag_toList (source : Option String) : (egressTag source).toList
    = "out:egress".toList ++ source.elim [] fun value => ':' :: value.toList := by
  cases source <;> simp [egressTag, toString]

theorem customEgressTag_toList (digest : List UInt8 → String) (sendThrough : Option String)
    (resolution : EgressDnsResolution) : (customEgressTag digest sendThrough resolution).toList
      = "out:egress".toList
        ++ ':' :: ("dns:" ++ customDnsIdentity digest sendThrough resolution).toList := by
  simp [customEgressTag, toString]

theorem egressTag_injective {a b : Option String} (h : egressTag a = egressTag b) : a = b := by
  have hlist := congrArg String.toList h
  rw [egressTag_toList, egressTag_toList, List.append_cancel_left_eq] at hlist
  cases a with
  | none =>
    cases b with
    | none => rfl
    | some value => cases hlist
  | some value =>
    cases b with
    | none => cases hlist
    | some other => rw [String.toList_injective (List.cons.inj hlist).2]

theorem customEgressTag_ne {digest : List UInt8 → String} {sendThrough source : Option String}
    {resolution : EgressDnsResolution} (htyped : ∀ value, source = some value →
      (Ip.parse value).isSome = true) :
    customEgressTag digest sendThrough resolution ≠ egressTag source := by
  intro htag
  have hlist := congrArg String.toList htag
  rw [customEgressTag_toList, egressTag_toList, List.append_cancel_left_eq] at hlist
  cases source with
  | none => cases hlist
  | some value =>
    have hvalue := String.toList_injective (List.cons.inj hlist).2
    have haddress := htyped value rfl
    rw [← hvalue, parse_dns] at haddress
    cases haddress

/-! ### What the plan counts -/

section Plan

variable {digest : List UInt8 → String} {checks : Checks} {doc : ModelSnapshot} {nodeId : String}
  {node : AppNode}

variable {app : AppIr} {apps : List AppIr} {tag : String}

theorem find?_node (happ : app ∈ (compile checks doc).apps) (id : String) :
    app.nodes.find? (·.id = id)
      = (sortById (·.id) ((doc.nodes.filter fun node => !node.retired).map (compileNode doc))).find?
        (·.id = id) := by
  obtain ⟨view, -, rfl⟩ := mem_compile_apps happ
  rfl

theorem find?_scoped (id : String) :
    (scopeNodeApp (compile checks doc).apps id app).nodes.find? (·.id = id)
      = app.nodes.find? (·.id = id) := by
  show (app.nodes.filter (·.id = id)).find? (·.id = id) = _
  rw [List.find?_filter]
  congr 1
  funext other
  simp

theorem find?_of_xrayNode
    (hnode : xrayNode (scopeNodeApps (compile checks doc).apps nodeId) nodeId = some node) :
    node.id = nodeId ∧ (∀ app ∈ (compile checks doc).apps, app.nodes.find? (·.id = nodeId) = some node)
      ∧ ((compile checks doc).apps.flatMap (·.nodes)).find? (·.id = nodeId) = some node := by
  obtain ⟨part, hpart, hfound⟩ : ∃ part ∈ scopeNodeApps (compile checks doc).apps nodeId,
      part.nodes.find? (·.id = nodeId) = some node := by
    rw [xrayNode, List.find?_flatMap] at hnode
    obtain ⟨part, hmem, hfound⟩ := List.exists_of_findSome?_eq_some hnode
    rw [sortedApps, List.mem_insertionSort] at hmem
    exact ⟨part, hmem, hfound⟩
  obtain ⟨owner, howner, rfl⟩ := List.mem_map.mp hpart
  rw [find?_scoped, find?_node howner] at hfound
  have hall : ∀ app ∈ (compile checks doc).apps, app.nodes.find? (·.id = nodeId) = some node := by
    intro app happ
    rw [find?_node happ]
    exact hfound
  refine ⟨by simpa using List.find?_some hfound, hall, ?_⟩
  rw [List.find?_flatMap]
  obtain ⟨first, rest, happs⟩ := List.exists_cons_of_ne_nil (List.ne_nil_of_mem howner)
  rw [happs, List.findSome?_cons, hall first (by rw [happs]; exact List.mem_cons_self)]

variable (hnode : xrayNode (scopeNodeApps (compile checks doc).apps nodeId) nodeId = some node)

include hnode

theorem egressDnsResolution_isNone (happ : app ∈ (compile checks doc).apps) (rule : Rule) :
    egressDnsResolution (scopeNodeApp (compile checks doc).apps nodeId app) nodeId
      rule.destMatch = none ↔ hasResolver node rule = false := by
  obtain ⟨-, hall, -⟩ := find?_of_xrayNode hnode
  unfold egressDnsResolution hasResolver
  rw [find?_scoped, hall app happ]
  cases rule.destMatch.canonicalEgressDnsSelector with
  | none => simp
  | some selector => simp

omit hnode in
theorem rulesOn_part (apps : List AppIr) (app : AppIr) :
    rulesOn (scopeNodeApp apps nodeId app) nodeId = rulesOn app nodeId := by
  show ((app.steps.filter (·.node = nodeId)).filter (·.node = nodeId)).flatMap (·.rules) = _
  rw [List.filter_filter, rulesOn]
  simp only [Bool.and_self]

theorem mem_candidates {outbound : XrayEgressOutboundPlan} (hplain : outbound.domainStrategy = none) :
    outbound ∈ egressCandidates digest (scopeNodeApps (compile checks doc).apps nodeId) nodeId
        node.egressDns
      ↔ ∃ rule, LandsFrom (compile checks doc).apps nodeId rule outbound.sendThrough
        ∧ hasResolver node rule = false ∧ egressTag outbound.sendThrough = outbound.tag := by
  simp only [egressCandidates, List.mem_append, List.mem_flatMap, List.mem_filterMap, sortedApps,
    List.mem_insertionSort, scopeNodeApps, List.mem_map]
  constructor
  · rintro (⟨_, ⟨app, happ, rfl⟩, rule, hrule, hout⟩ | ⟨policy, -, hpolicy⟩)
    · rw [rulesOn_part] at hrule
      unfold egressOutbound at hout
      split at hout
      next sendThrough haction =>
        split at hout
        next resolution hresolution =>
          rw [← Option.some.inj hout] at hplain
          cases hplain
        next hnone =>
          rw [← Option.some.inj hout]
          exact ⟨rule, ⟨app, happ, hrule, haction⟩,
            (egressDnsResolution_isNone hnode happ rule).mp hnone, rfl⟩
      next => cases hout
    · unfold policyOutbound at hpolicy
      obtain ⟨_, -, rfl⟩ := Option.map_eq_some_iff.mp hpolicy
      cases hplain
  · rintro ⟨rule, ⟨app, happ, hrule, haction⟩, hresolver, htag⟩
    refine .inl ⟨_, ⟨app, happ, rfl⟩, rule, by rwa [rulesOn_part], ?_⟩
    unfold egressOutbound
    rw [haction]
    dsimp only
    rw [(egressDnsResolution_isNone hnode happ rule).mpr hresolver, htag, ← hplain]

omit hnode in
theorem candidate_tag {policies : List NodeEgressDnsPolicy} {outbound : XrayEgressOutboundPlan}
    (h : outbound ∈ egressCandidates digest apps nodeId policies)
    (hresolver : outbound.domainStrategy ≠ none) :
    ∃ sendThrough resolution, outbound.tag = customEgressTag digest sendThrough resolution := by
  simp only [egressCandidates, List.mem_append, List.mem_flatMap, List.mem_filterMap] at h
  rcases h with ⟨app, -, rule, -, hout⟩ | ⟨policy, -, hpolicy⟩
  · unfold egressOutbound at hout
    split at hout
    next sendThrough _ =>
      split at hout
      next resolution _ =>
        rw [← Option.some.inj hout]
        exact ⟨sendThrough, resolution, rfl⟩
      next =>
        rw [← Option.some.inj hout] at hresolver
        exact absurd rfl hresolver
    next => cases hout
  · unfold policyOutbound at hpolicy
    obtain ⟨_, -, rfl⟩ := Option.map_eq_some_iff.mp hpolicy
    exact ⟨none, policy.resolution, rfl⟩

theorem mem_ordinaryTags (htyped : SourcesTyped (compile checks doc).apps) :
    tag ∈ ordinaryTags (xrayEgressOutbounds digest (scopeNodeApps (compile checks doc).apps nodeId)
        nodeId node.egressDns)
      ↔ ∃ rule sendThrough, LandsFrom (compile checks doc).apps nodeId rule sendThrough
        ∧ hasResolver node rule = false ∧ egressTag sendThrough = tag := by
  unfold ordinaryTags xrayEgressOutbounds
  rw [OrdMap.mem_keySet, List.mem_map]
  constructor
  · rintro ⟨outbound, houtbound, rfl⟩
    obtain ⟨hmem, hplain⟩ := List.mem_filter.mp houtbound
    rw [OrdMap.mem_ofFirst] at hmem
    obtain ⟨rule, hrule⟩ := (mem_candidates hnode (by simpa using hplain)).mp
      (List.mem_of_find?_eq_some hmem)
    exact ⟨rule, outbound.sendThrough, hrule⟩
  · rintro ⟨rule, sendThrough, hlands, hresolver, rfl⟩
    -- whatever comes first under the name has no resolver either
    have hmem : (⟨egressTag sendThrough, sendThrough, none⟩ : XrayEgressOutboundPlan)
        ∈ egressCandidates digest (scopeNodeApps (compile checks doc).apps nodeId) nodeId
          node.egressDns := (mem_candidates hnode rfl).mpr ⟨rule, hlands, hresolver, rfl⟩
    have hsome : ((egressCandidates digest (scopeNodeApps (compile checks doc).apps nodeId) nodeId
        node.egressDns).find? fun outbound => outbound.tag = egressTag sendThrough).isSome = true :=
      List.find?_isSome.mpr ⟨_, hmem, by simp⟩
    obtain ⟨first, hfirst⟩ := Option.isSome_iff_exists.mp hsome
    have htag : first.tag = egressTag sendThrough := by simpa using List.find?_some hfirst
    refine ⟨first, List.mem_filter.mpr ⟨OrdMap.mem_ofFirst.mpr (htag ▸ hfirst), ?_⟩, htag⟩
    by_contra hstrategy
    obtain ⟨source, resolution, hcustom⟩ := candidate_tag (List.mem_of_find?_eq_some hfirst)
      (by simpa using hstrategy)
    exact customEgressTag_ne (fun value hvalue => htyped nodeId rule value (hvalue ▸ hlands))
      (hcustom.symm.trans htag)

omit hnode in
theorem mem_egressTags :
    tag ∈ egressTags apps nodeId ↔ ∃ rule sendThrough, LandsFrom apps nodeId rule sendThrough
      ∧ egressTag sendThrough = tag := by
  unfold egressTags LandsFrom rulesOn
  simp only [OrdMap.mem_keySet, List.mem_filterMap, List.mem_flatMap, List.mem_filter]
  constructor
  · rintro ⟨rule, ⟨step, ⟨⟨app, happ, hstep⟩, hat⟩, hrule⟩, htag⟩
    cases haction : rule.action with
    | egress sendThrough =>
      rw [haction] at htag
      exact ⟨rule, sendThrough, ⟨app, happ, ⟨step, ⟨hstep, hat⟩, hrule⟩, haction⟩,
        Option.some.inj htag⟩
    | _ =>
      rw [haction] at htag
      cases htag
  · rintro ⟨rule, sendThrough, ⟨app, happ, ⟨step, ⟨hstep, hat⟩, hrule⟩, haction⟩, rfl⟩
    exact ⟨rule, ⟨step, ⟨⟨app, happ, hstep⟩, hat⟩, hrule⟩, by rw [haction]⟩

/-! ### Agreement -/

omit hnode in
theorem validateNodeDns_location {other : AppNode} {diagnostic : Diagnostic}
    (h : diagnostic ∈ validateNodeDns apps other) : diagnostic.location = other.id := by
  unfold validateNodeDns at h
  split_ifs at h
  · unfold warnIf at h
    split_ifs at h
    · rw [List.mem_singleton.mp h]
      rfl
    · cases h
  · cases h
  · split at h
    · rw [List.mem_singleton.mp h]
      rfl
    · cases h
    · rw [List.mem_singleton.mp h]
      rfl

omit hnode in
theorem validateNodeDns_ambiguous (hneeds : node.dns.needsRoute = true)
    (hstrategy : node.domainStrategy ≠ .asIs) :
    (∃ diagnostic ∈ validateNodeDns apps node, diagnostic.code = "dns.route-ambiguous")
      ↔ 2 ≤ (egressTags apps node.id).length := by
  unfold validateNodeDns
  rw [if_neg hstrategy, hneeds, if_neg (by decide)]
  split
  next hlength =>
    rw [hlength]
    simp [Diagnostic.info]
  next hlength =>
    rw [hlength]
    simp
  next hzero hone =>
    constructor
    · intro _
      have hne : (egressTags apps node.id).length ≠ 0 := fun h => hzero h
      have hne' : (egressTags apps node.id).length ≠ 1 := fun h => hone h
      omega
    · exact fun _ => ⟨_, List.mem_singleton.mpr rfl, rfl⟩

theorem reportsAmbiguous_iff (hneeds : node.dns.needsRoute = true)
    (hstrategy : node.domainStrategy ≠ .asIs) : ReportsAmbiguous (compile checks doc).apps nodeId
      ↔ 2 ≤ (egressTags (compile checks doc).apps nodeId).length := by
  obtain ⟨rfl, -, hfound⟩ := find?_of_xrayNode hnode
  rw [← validateNodeDns_ambiguous hneeds hstrategy]
  unfold ReportsAmbiguous validateAppSetDns
  constructor
  · rintro ⟨diagnostic, hmem, hcode, hat⟩
    obtain ⟨id, -, hmem⟩ := List.mem_flatMap.mp hmem
    obtain ⟨other, hother, hmem⟩ := List.mem_flatMap.mp hmem
    rw [Option.mem_toList] at hother
    have hid : other.id = id := by simpa using List.find?_some hother
    have hsame : id = node.id := by rw [← hid, ← validateNodeDns_location hmem, hat]
    rw [hsame, hfound] at hother
    exact ⟨diagnostic, Option.some.inj hother ▸ hmem, hcode⟩
  · rintro ⟨diagnostic, hmem, hcode⟩
    refine ⟨diagnostic, List.mem_flatMap.mpr ⟨node.id, ?_, ?_⟩, hcode, validateNodeDns_location hmem⟩
    · rw [OrdMap.mem_keySet]
      exact List.mem_map_of_mem (List.mem_of_find?_eq_some hfound)
    · rw [hfound]
      exact List.mem_flatMap.mpr ⟨node, List.mem_singleton.mpr rfl, hmem⟩

omit hnode in
theorem two_le_length {α : Type} {as : List α} (h : as.Nodup) :
    2 ≤ as.length ↔ ∃ a ∈ as, ∃ b ∈ as, a ≠ b := by
  constructor
  · intro hlength
    match as, hlength with
    | a :: b :: rest, _ =>
      refine ⟨a, by simp, b, by simp, ?_⟩
      rintro rfl
      simp at h
  · rintro ⟨a, ha, b, hb, hab⟩
    match as with
    | [] => cases ha
    | [c] =>
      rw [List.mem_singleton] at ha hb
      exact absurd (ha.trans hb.symm) hab
    | c :: d :: rest => simp

variable (digest checks doc node) in
/-- What the checks promise of the resolver's way out, the plan keeps: there is one where it is
needed, and two or more are reported exactly where the plan finds as many. -/
def DnsRouteAgrees : Prop :=
  let apps := (compile checks doc).apps
  let outbounds := xrayEgressOutbounds digest (scopeNodeApps apps node.id) node.id node.egressDns
  ((compile checks doc).ensurePublishable = true →
    (∃ rule sendThrough, LandsFrom apps node.id rule sendThrough) →
      ∃ tag, nodeDnsRoute node.dns outbounds = some tag ∧ ∃ outbound ∈ outbounds, outbound.tag = tag)
  ∧ (ReportsAmbiguous apps node.id ↔ 2 ≤ (ordinaryTags outbounds).length)

variable (checks doc node) in
/-- Rules without a resolver stand for all landing rules of the machine: there is one where there
is any, and there are two source addresses among them where there are among all. -/
def PlainRulesStand : Prop :=
  let apps := (compile checks doc).apps
  ((compile checks doc).ensurePublishable = true →
    (∃ rule sendThrough, LandsFrom apps node.id rule sendThrough) →
      ∃ rule sendThrough, LandsFrom apps node.id rule sendThrough ∧ hasResolver node rule = false)
  ∧ ((∃ rule source rule' source', LandsFrom apps node.id rule source
        ∧ LandsFrom apps node.id rule' source' ∧ source ≠ source') →
      ∃ rule source rule' source', (LandsFrom apps node.id rule source ∧ hasResolver node rule = false)
        ∧ (LandsFrom apps node.id rule' source' ∧ hasResolver node rule' = false) ∧ source ≠ source')

omit hnode in
theorem two_tags {tags : List String} (h : tags.Nodup) {P : Rule → Option String → Prop}
    (hmem : ∀ tag, tag ∈ tags ↔ ∃ rule source, P rule source ∧ egressTag source = tag) :
    2 ≤ tags.length ↔ ∃ rule source rule' source', P rule source ∧ P rule' source'
      ∧ source ≠ source' := by
  rw [two_le_length h]
  constructor
  · rintro ⟨tag, htag, tag', htag', hne⟩
    obtain ⟨rule, source, hp, rfl⟩ := (hmem tag).mp htag
    obtain ⟨rule', source', hp', rfl⟩ := (hmem tag').mp htag'
    exact ⟨rule, source, rule', source', hp, hp', fun hsame => hne (hsame ▸ rfl)⟩
  · rintro ⟨rule, source, rule', source', hp, hp', hne⟩
    exact ⟨_, (hmem _).mpr ⟨rule, source, hp, rfl⟩, _, (hmem _).mpr ⟨rule', source', hp', rfl⟩,
      fun hsame => hne (egressTag_injective hsame)⟩

omit hnode in
theorem nodeDnsRoute_eq_some {outbounds : List XrayEgressOutboundPlan}
    (hneeds : node.dns.needsRoute = true) :
    nodeDnsRoute node.dns outbounds = some tag ↔ ordinaryTags outbounds = [tag] := by
  unfold nodeDnsRoute
  rw [hneeds, if_neg (by decide)]
  split
  next route hroute => simp [hroute]
  next hnone =>
    constructor
    · exact nofun
    · exact fun h => absurd h (hnone tag)

omit hnode in
theorem emitted_of_ordinary {outbounds : List XrayEgressOutboundPlan}
    (h : tag ∈ ordinaryTags outbounds) : ∃ outbound ∈ outbounds, outbound.tag = tag := by
  obtain ⟨outbound, hmem, htag⟩ := List.mem_map.mp (OrdMap.mem_keySet.mp h)
  exact ⟨outbound, List.mem_of_mem_filter hmem, htag⟩

omit hnode in
theorem not_reportsAmbiguous (h : (compile checks doc).ensurePublishable = true) :
    ¬ ReportsAmbiguous (compile checks doc).apps nodeId := by
  rintro ⟨diagnostic, hmem, hcode, -⟩
  have hclean : Clean (validateAppSetDns (compile checks doc).apps) := by
    have hall := clean_of_publishable h
    simp only [compile, finishCompile, validateAppSet, clean_append] at hall ⊢
    exact hall.2.1.1.2
  refine hclean diagnostic hmem ?_
  unfold validateAppSetDns at hmem
  obtain ⟨id, -, hmem⟩ := List.mem_flatMap.mp hmem
  obtain ⟨other, -, hmem⟩ := List.mem_flatMap.mp hmem
  unfold validateNodeDns at hmem
  split_ifs at hmem
  · unfold warnIf at hmem
    split_ifs at hmem
    · rw [List.mem_singleton.mp hmem] at hcode
      exact absurd hcode (by simp [Diagnostic.warn])
    · cases hmem
  · cases hmem
  · split at hmem
    · rw [List.mem_singleton.mp hmem] at hcode
      exact absurd hcode (by simp [Diagnostic.info])
    · cases hmem
    · rw [List.mem_singleton.mp hmem]
      rfl

/-- **The checks and the plan agree on the resolver's way out exactly where the rules without a
resolver of their own stand for all landing rules.** -/
theorem dnsRoute_agrees_iff (htyped : SourcesTyped (compile checks doc).apps)
    (hneeds : node.dns.needsRoute = true) (hstrategy : node.domainStrategy ≠ .asIs) :
    DnsRouteAgrees digest checks doc node ↔ PlainRulesStand checks doc node := by
  obtain ⟨rfl, -, -⟩ := find?_of_xrayNode hnode
  have hall : 2 ≤ (egressTags (compile checks doc).apps node.id).length
      ↔ ∃ rule source rule' source', LandsFrom (compile checks doc).apps node.id rule source
        ∧ LandsFrom (compile checks doc).apps node.id rule' source' ∧ source ≠ source' :=
    two_tags (OrdMap.nodup_keySet _) fun tag => mem_egressTags
  have hmem : ∀ tag, tag ∈ ordinaryTags (xrayEgressOutbounds digest
      (scopeNodeApps (compile checks doc).apps node.id) node.id node.egressDns)
      ↔ ∃ rule source, (LandsFrom (compile checks doc).apps node.id rule source
        ∧ hasResolver node rule = false) ∧ egressTag source = tag := by
    intro tag
    rw [mem_ordinaryTags hnode htyped]
    simp only [and_assoc]
  have hreport := reportsAmbiguous_iff hnode hneeds hstrategy
  unfold DnsRouteAgrees PlainRulesStand
  dsimp only
  generalize xrayEgressOutbounds digest (scopeNodeApps (compile checks doc).apps node.id) node.id
    node.egressDns = outbounds at hmem ⊢
  have hplain : 2 ≤ (ordinaryTags outbounds).length
      ↔ ∃ rule source rule' source', (LandsFrom (compile checks doc).apps node.id rule source
          ∧ hasResolver node rule = false) ∧ (LandsFrom (compile checks doc).apps node.id rule' source'
          ∧ hasResolver node rule' = false) ∧ source ≠ source' :=
    two_tags (OrdMap.nodup_keySet _) hmem
  rw [hreport, hall, hplain]
  constructor
  · rintro ⟨hroute, hcount⟩
    refine ⟨fun hpublish hlands => ?_, hcount.mp⟩
    obtain ⟨tag, htag, -⟩ := hroute hpublish hlands
    rw [nodeDnsRoute_eq_some hneeds] at htag
    obtain ⟨rule, source, hrule, -⟩ := (hmem tag).mp (by rw [htag]; exact List.mem_singleton.mpr rfl)
    exact ⟨rule, source, hrule⟩
  · rintro ⟨hsome, htwo⟩
    refine ⟨fun hpublish hlands => ?_, htwo, ?_⟩
    · obtain ⟨rule, source, hrule⟩ := hsome hpublish hlands
      have hin := (hmem (egressTag source)).mpr ⟨rule, source, hrule, rfl⟩
      -- a second outbound would be one of all landing rules, and be reported
      have hone : ¬ 2 ≤ (ordinaryTags outbounds).length := by
        intro hlength
        obtain ⟨r, s, r', s', hr, hr', hne⟩ := hplain.mp hlength
        exact not_reportsAmbiguous hpublish
          (hreport.mpr (hall.mpr ⟨r, s, r', s', hr.1, hr'.1, hne⟩))
      have hsingle : ordinaryTags outbounds = [egressTag source] := by
        have hone : (ordinaryTags outbounds).length = 1 := by
          have hpos := List.length_pos_of_mem hin
          omega
        obtain ⟨tag, htag⟩ := List.length_eq_one_iff.mp hone
        rw [htag] at hin ⊢
        rw [List.mem_singleton.mp hin]
      exact ⟨egressTag source, (nodeDnsRoute_eq_some hneeds).mpr hsingle, emitted_of_ordinary hin⟩
    · rintro ⟨r, s, r', s', hr, hr', hne⟩
      exact ⟨r, s, r', s', hr.1, hr'.1, hne⟩

end Plan

/-- Every source address of a rule is an address. -/
def sourcesChecked (apps : List AppIr) : Bool :=
  apps.all fun app => app.steps.all fun step => step.rules.all fun rule =>
    match rule.action with
    | .egress (some source) => (Ip.parse source).isSome
    | _ => true

theorem typed_of_checked {apps : List AppIr} (h : sourcesChecked apps = true) : SourcesTyped apps := by
  rintro nodeId rule source ⟨app, happ, hrule, haction⟩
  obtain ⟨step, hstep, hrule⟩ := List.mem_flatMap.mp hrule
  have hchecked := List.all_eq_true.mp (List.all_eq_true.mp (List.all_eq_true.mp h app happ) step
    (List.mem_of_mem_filter hstep)) rule hrule
  rwa [haction] at hchecked

/-- A machine with resolvers and one policy, that lands the traffic of one suffix only. -/
def suffixSnapshot (suffix : String) : ModelSnapshot :=
  { plainSnapshot
      [{ plainNode "a" "192.0.2.1" with dns := .servers ["192.0.2.53"] }]
      [plainApp "web" [⟨"c", "acme", "c", none⟩] [plainIngress "door" "c" "a"]
        [⟨"c", "a", none, none, [⟨.domainSuffix ["example.com"], .egress none⟩, ⟨.any, .block⟩]⟩]] with
    nodeEgressDns := [⟨"a", 0, .domainSuffix [suffix], ⟨["192.0.2.54"], 53, .udp, .useIp, .stop⟩⟩] }

def suffixNode (suffix : String) : Option AppNode :=
  xrayNode (scopeNodeApps (compile silentChecks (suffixSnapshot suffix)).apps "a") "a"

/-- The policy is for another suffix. -/
theorem dnsRoute_agrees_other_suffix : ∃ node, suffixNode "example.org" = some node
    ∧ (DnsRouteAgrees (fun _ => "") silentChecks (suffixSnapshot "example.org") node
      ↔ PlainRulesStand silentChecks (suffixSnapshot "example.org") node) := by
  have hsome : (suffixNode "example.org").any (fun node =>
      node.dns.needsRoute && decide (node.domainStrategy ≠ .asIs)) = true := by decide +kernel
  obtain ⟨node, hnode, hneeds⟩ := (Option.any_eq_true _ _).mp hsome
  rw [Bool.and_eq_true, decide_eq_true_eq] at hneeds
  exact ⟨node, hnode, dnsRoute_agrees_iff hnode (typed_of_checked (by decide +kernel)) hneeds.1
    hneeds.2⟩

/-- The policy is for the suffix that lands: nothing is reported, and there is no way out. -/
theorem dnsRoute_missing :
    (compile silentChecks (suffixSnapshot "example.com")).ensurePublishable = true
      ∧ ∃ node, suffixNode "example.com" = some node ∧ node.dns.needsRoute = true
        ∧ node.domainStrategy ≠ .asIs
        ∧ ¬ DnsRouteAgrees (fun _ => "") silentChecks (suffixSnapshot "example.com") node := by
  have hpublish : (compile silentChecks (suffixSnapshot "example.com")).ensurePublishable = true := by
    decide +kernel
  have hsome : (suffixNode "example.com").any (fun node =>
      node.id = "a" && node.dns.needsRoute && decide (node.domainStrategy ≠ .asIs)
        && (nodeDnsRoute node.dns (xrayEgressOutbounds (fun _ => "")
          (scopeNodeApps (compile silentChecks (suffixSnapshot "example.com")).apps node.id) node.id
          node.egressDns)).isNone) = true := by decide +kernel
  have hlands : (compile silentChecks (suffixSnapshot "example.com")).apps.any (fun app =>
      (rulesOn app "a").any fun rule => decide (rule.action = .egress none)) = true := by decide +kernel
  obtain ⟨node, hnode, hchecked⟩ := (Option.any_eq_true _ _).mp hsome
  simp only [Bool.and_eq_true, decide_eq_true_eq] at hchecked
  obtain ⟨⟨⟨hid, hneeds⟩, hstrategy⟩, hnone⟩ := hchecked
  obtain ⟨app, happ, hrules⟩ := List.any_eq_true.mp hlands
  obtain ⟨rule, hrule, haction⟩ := List.any_eq_true.mp hrules
  refine ⟨hpublish, node, hnode, hneeds, hstrategy, fun hagrees => ?_⟩
  obtain ⟨tag, htag, -⟩ := hagrees.1 hpublish
    ⟨rule, none, app, happ, by rw [hid]; exact hrule, of_decide_eq_true haction⟩
  rw [htag] at hnone
  cases hnone

end Brocade.Physical
