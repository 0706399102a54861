/-
Where the diagnostics of a table go, beside where its users go.

A family's table is the users' table with other ends, so it decides by the same rule for every
connection.  The resolver's table is read by a query that is not TLS itself: its conditions are
those that are left once the request is known to be TLS over TCP, with the rules that exclude
that dropped.  A protocol list takes what xray's sniffer found by its beginning, while the
rewriting looks for the whole name, so a rule that names a beginning of `tls` only is dropped
although it takes the request.  Short of such a rule coming first, the tables agree
(`diagnostics_mirror_iff`).
-/
import Brocade.Ir.Matching
import Brocade.Lib.FirstMatch
import Brocade.Physical.Routes

namespace Brocade.Physical

open Ir Model

/-! ### Requests -/

/-- What xray's matcher says of a protocol name where the sniffer found TLS: names are taken as
beginnings, empty ones not at all. -/
def takesTls (name : String) : Bool := name ≠ "" && name.toList.isPrefixOf "tls".toList

/-- The HTTPS request to the same host and port. -/
def httpsOf (request : Request) : Request :=
  { request with network := .tcp, protocol := takesTls, sniffingFailed := false }

mutual

/-- A part of the condition names a beginning of `tls` and not all of it. -/
def namesTlsInPart : DestMatch → Bool
  | .protocol names => names.any takesTls && !names.any (· = "tls")
  | .all values => eachNamesTlsInPart values
  | _ => false

def eachNamesTlsInPart : List DestMatch → Bool
  | [] => false
  | value :: values => namesTlsInPart value || eachNamesTlsInPart values

end

theorem satisfies_kept (request : Request) (values : List DestMatch) :
    request.satisfies (if (values.filter fun value => !value.isAny).isEmpty then .any
        else .all (values.filter fun value => !value.isAny))
      = values.all request.satisfies := by
  have hkept : (values.filter fun value => !value.isAny).all request.satisfies
      = values.all request.satisfies := by
    induction values with
    | nil => rfl
    | cons value values ih =>
      rw [List.filter_cons, List.all_cons, ← ih]
      cases value <;> rfl
  split_ifs with h
  · rw [List.isEmpty_iff] at h
    rw [← hkept, h]
    rfl
  · rw [Request.satisfies_all, hkept]

mutual

/-- What is left of a condition asks for no more than the condition does of the HTTPS request, and
for no less where protocols are named in full. -/
theorem httpsDnsProbeMatch_satisfies (request : Request) : ∀ destMatch : DestMatch,
    (httpsDnsProbeMatch destMatch).any request.satisfies
      = ((httpsOf request).satisfies destMatch && !namesTlsInPart destMatch)
  | .any => rfl
  | .sniffingFailed => rfl
  | .domainSuffix _ => (Bool.and_true _).symm
  | .domainKeyword _ => (Bool.and_true _).symm
  | .domainRegex _ => (Bool.and_true _).symm
  | .geosite _ => (Bool.and_true _).symm
  | .ipCidr _ => (Bool.and_true _).symm
  | .geoip _ => (Bool.and_true _).symm
  | .port _ => (Bool.and_true _).symm
  | .portExcept _ => (Bool.and_true _).symm
  | .network .tcp => rfl
  | .network .udp => rfl
  | .protocol names => by
    have hwhole : names.any (fun name => decide (name = "tls")) = true → names.any takesTls = true := by
      intro h
      obtain ⟨name, hname, htls⟩ := List.any_eq_true.mp h
      rw [of_decide_eq_true htls] at hname
      exact List.any_eq_true.mpr ⟨"tls", hname, by decide⟩
    show (if names.any (fun name => decide (name = "tls")) then some DestMatch.any else none).any _
      = (names.any takesTls && !(names.any takesTls && !names.any fun name => decide (name = "tls")))
    cases h : names.any fun name => decide (name = "tls") with
    | true =>
      rw [hwhole h]
      rfl
    | false => cases names.any takesTls <;> rfl
  | .all values => by
    have heach := httpsDnsProbeEach_satisfies request values
    rw [httpsDnsProbeMatch, Request.satisfies, namesTlsInPart, ← heach, Option.any_map]
    congr 1
    funext left
    exact satisfies_kept request left

theorem httpsDnsProbeEach_satisfies (request : Request) : ∀ values : List DestMatch,
    (httpsDnsProbeEach values).any (fun left => left.all request.satisfies)
      = ((httpsOf request).satisfiesEach values && !eachNamesTlsInPart values)
  | [] => rfl
  | value :: values => by
    have hvalue := httpsDnsProbeMatch_satisfies request value
    have hvalues := httpsDnsProbeEach_satisfies request values
    rw [httpsDnsProbeEach, Request.satisfiesEach, eachNamesTlsInPart, Bool.not_or,
      show ∀ a b c d : Bool, (a && b && (c && d)) = (a && c && (b && d)) by decide, ← hvalue,
      ← hvalues]
    cases httpsDnsProbeMatch value with
    | none => rfl
    | some first =>
      cases httpsDnsProbeEach values with
      | none => simp
      | some rest => simp

end

/-! ### Tables -/

/-- The hop of an edge. -/
def edgeHop (app : AppIr) (chain node : String) (forward : ForwardActionRef) : Option Hop :=
  app.hops.find? (isEdge chain node forward)

def isShadowsocks : HopDialWire → Bool
  | .shadowsocks2022 _ _ => true
  | _ => false

/-- Dialed from here, and not over Shadowsocks. -/
def isPlainForward (app : AppIr) (chain node : String) (rule : Rule) : Bool :=
  (rule.action.forwardRef chain).any fun forward =>
    !forward.dial.isReverse && (edgeHop app chain node forward).any (!isShadowsocks ·.security)

section Mirror

-- the first six bytes of the SHA-256 of a message, as hexadecimal digits
variable (digest : List UInt8 → String)

/-- Where a family's diagnostics are to go for a rule. -/
def familyExit (app : AppIr) (step : Ir.Step) (nodeId : String) (family : IpFamily) (rule : Rule) :
    String :=
  let own := probeFamilyTag (actionTag digest app step.chain step.node rule) family
  match rule.action with
  | .block => "out:block"
  | .egress _ => own
  | .proxy _ => "out:probe-family-unsupported"
  | .forward _ _ _ | .reuseListener _ _ _ =>
    if isPlainForward app step.chain nodeId rule then own else "out:probe-family-unsupported"

/-- A family's table decides by the users' rule, and leads to its counterpart in the family. -/
def FamilyMirrors (app : AppIr) (step : Ir.Step) (nodeId : String) (request : Request)
    (family : IpFamily) : Prop :=
  ∀ i rule, step.rules.findIdx? (fun rule => request.satisfies rule.destMatch) = some i →
    step.rules[i]? = some rule → ∃ plan, (probeRules digest app step nodeId (some family)).findIdx?
        (fun plan => request.satisfies plan.destMatch) = some i
      ∧ (probeRules digest app step nodeId (some family))[i]? = some plan
      ∧ plan.outboundTag = familyExit digest app step nodeId family rule

/-- The resolver's table decides by the entry of the rule that takes the HTTPS request. -/
def ResolverMirrors (app : AppIr) (step : Ir.Step) (nodeId : String) (request : Request) : Prop :=
  (probeRules digest app step nodeId none).find? (fun plan => request.satisfies plan.destMatch)
    = match step.rules.find? fun rule => (httpsOf request).satisfies rule.destMatch with
      | some rule => probeRule digest app step nodeId none rule
      | none => some (probeRest app step nodeId none)

variable {digest} {app : AppIr} {step : Ir.Step} {nodeId : String} {request : Request}

theorem edgeKey_of_isEdge {chain node : String} {forward : ForwardActionRef} {hop : Hop}
    (h : isEdge chain node forward hop = true) :
    Hop.edgeKey hop = [chain, node, forward.targetChain, forward.targetNode] := by
  simp only [isEdge, Bool.and_eq_true, decide_eq_true_eq] at h
  obtain ⟨⟨⟨hchain, hsource⟩, htargetChain⟩, htarget⟩ := h
  rw [Hop.edgeKey, hchain, hsource, htargetChain, htarget]

theorem supportedForward_eq (hunique : ∀ hop ∈ app.hops, ∀ other ∈ app.hops,
      Hop.edgeKey hop = Hop.edgeKey other → hop = other) (rule : Rule) :
    supportedForward app step nodeId rule = isPlainForward app step.chain nodeId rule := by
  unfold supportedForward isPlainForward
  congr 1
  funext forward
  congr 1
  rw [Bool.eq_iff_iff, List.any_eq_true, Option.any_eq_true]
  constructor
  · rintro ⟨hop, hhop, hplain⟩
    obtain ⟨hedge, hsecurity⟩ := Bool.and_eq_true_iff.mp hplain
    refine ⟨hop, ?_, ?_⟩
    · cases hfind : edgeHop app step.chain nodeId forward with
      | none => exact absurd hedge (by simpa using List.find?_eq_none.mp hfind hop hhop)
      | some first =>
        have hends := (edgeKey_of_isEdge (List.find?_some hfind)).trans
          (edgeKey_of_isEdge hedge).symm
        rw [hunique first (List.mem_of_find?_eq_some hfind) hop hhop hends]
    · cases hwire : hop.security <;> simp [hwire, isShadowsocks] at hsecurity ⊢
  · rintro ⟨hop, hfind, hsecurity⟩
    refine ⟨hop, List.mem_of_find?_eq_some hfind, Bool.and_eq_true_iff.mpr ⟨List.find?_some hfind, ?_⟩⟩
    cases hwire : hop.security <;> simp [hwire, isShadowsocks] at hsecurity ⊢

theorem probeRules_eq {family : Option IpFamily}
    (h : (probeUsers app step nodeId family).isEmpty = false) :
    probeRules digest app step nodeId family
      = step.rules.filterMap (probeRule digest app step nodeId family)
        ++ [probeRest app step nodeId family] := by
  rw [probeRules, h]
  rfl

theorem probeOutbound_family (hunique : ∀ hop ∈ app.hops, ∀ other ∈ app.hops,
      Hop.edgeKey hop = Hop.edgeKey other → hop = other) (family : IpFamily) (rule : Rule) :
    probeOutbound digest app step nodeId (some family) rule
      = familyExit digest app step nodeId family rule := by
  unfold probeOutbound familyExit
  rw [supportedForward_eq hunique]
  cases haction : rule.action with
  | block => simp [actionTag, haction, Action.forwardRef]
  | egress sendThrough => rfl
  | proxy outbound => simp [isPlainForward, haction, Action.forwardRef]
  | forward target dial pool => rfl
  | reuseListener listener dial pool => rfl

/-- **A family's table mirrors the users' table.** -/
theorem family_mirrors (hunique : ∀ hop ∈ app.hops, ∀ other ∈ app.hops,
      Hop.edgeKey hop = Hop.edgeKey other → hop = other) (family : IpFamily)
    (h : (probeUsers app step nodeId (some family)).isEmpty = false) :
    FamilyMirrors digest app step nodeId request family := by
  intro i rule hfirst hrule
  have hmap : step.rules.filterMap (probeRule digest app step nodeId (some family))
      = step.rules.map fun rule => ⟨.users (probeUsers app step nodeId (some family)), rule.destMatch,
        [], probeOutbound digest app step nodeId (some family) rule⟩ := by
    rw [← List.filterMap_eq_map]
    rfl
  have hlength : i < step.rules.length := (List.findIdx?_eq_some_iff_getElem.mp hfirst).1
  refine ⟨⟨.users (probeUsers app step nodeId (some family)), rule.destMatch, [],
    probeOutbound digest app step nodeId (some family) rule⟩, ?_, ?_, ?_⟩
  · have hentry : (step.rules.map fun rule => (⟨.users (probeUsers app step nodeId (some family)),
        rule.destMatch, [], probeOutbound digest app step nodeId (some family) rule⟩ :
          XrayRoutingRulePlan)).findIdx? (fun plan => request.satisfies plan.destMatch) = some i := by
      rw [List.findIdx?_map]
      exact hfirst
    rw [probeRules_eq h, hmap, List.findIdx?_append, hentry]
    rfl
  · rw [probeRules_eq h, hmap, List.getElem?_append_left (by rw [List.length_map]; exact hlength),
      List.getElem?_map, hrule]
    rfl
  · exact probeOutbound_family hunique family rule

/-- **The resolver's table mirrors the users' table exactly where no rule that names a beginning of
`tls` only is the first to take the HTTPS request.** -/
theorem resolver_mirrors_iff (h : (probeUsers app step nodeId none).isEmpty = false) :
    ResolverMirrors digest app step nodeId request ↔
      ∀ rule, step.rules.find? (fun rule => (httpsOf request).satisfies rule.destMatch) = some rule →
        namesTlsInPart rule.destMatch = false := by
  have hrewritten : ∀ rule : Rule, (probeRule digest app step nodeId none rule).any
      (fun plan => request.satisfies plan.destMatch)
        = ((httpsOf request).satisfies rule.destMatch && !namesTlsInPart rule.destMatch) := by
    intro rule
    rw [← httpsDnsProbeMatch_satisfies]
    show Option.any _ (Option.map _ (httpsDnsProbeMatch rule.destMatch)) = _
    rw [Option.any_map]
  unfold ResolverMirrors
  constructor
  · intro hmirrors rule hfirst
    rw [hfirst] at hmirrors
    -- the entry the table decides by takes the query
    obtain ⟨plan, hplan⟩ : ∃ plan, probeRule digest app step nodeId none rule = some plan := by
      rw [probeRules_eq h, FirstMatch.find?_rewritten _ _ rfl] at hmirrors
      exact ⟨_, hmirrors.symm⟩
    rw [show (match some rule with
      | some rule => probeRule digest app step nodeId none rule
      | none => some (probeRest app step nodeId none)) = some plan from hplan] at hmirrors
    have htakes := hrewritten rule
    rw [hplan, Option.any_some, List.find?_some hmirrors] at htakes
    have hkept := (Bool.and_eq_true_iff.mp htakes.symm).2
    simpa using hkept
  · intro hnames
    have hsame : step.rules.find? (fun rule => (probeRule digest app step nodeId none rule).any
          fun plan => request.satisfies plan.destMatch)
        = step.rules.find? fun rule => (httpsOf request).satisfies rule.destMatch := by
      refine FirstMatch.find?_narrowed ?_ ?_
      · intro rule _ hrule
        rw [hrewritten] at hrule
        exact (Bool.and_eq_true_iff.mp hrule).1
      · intro rule hfirst
        rw [hrewritten, hnames rule hfirst, List.find?_some hfirst]
        rfl
    rw [probeRules_eq h, FirstMatch.find?_rewritten _ _ rfl, hsame]
    cases hfirst : step.rules.find? fun rule => (httpsOf request).satisfies rule.destMatch with
    | none => rfl
    | some rule =>
      have htakes : (probeRule digest app step nodeId none rule).isSome = true := by
        have hmade := hrewritten rule
        rw [hnames rule hfirst, List.find?_some hfirst] at hmade
        obtain ⟨plan, hplan, -⟩ := Option.any_eq_true _ _ |>.mp hmade
        rw [hplan]
        rfl
      obtain ⟨plan, hplan⟩ := Option.isSome_iff_exists.mp htakes
      simp [hplan]

variable (digest app step nodeId request) in
/-- The diagnostics of a table leave where its users do. -/
def DiagnosticsMirror : Prop :=
  (∀ family, FamilyMirrors digest app step nodeId request family)
    ∧ ResolverMirrors digest app step nodeId request

theorem probeUsers_ne_nil (h : (entrySelectors app step nodeId).isEmpty = false)
    (family : Option IpFamily) : (probeUsers app step nodeId family).isEmpty = false := by
  unfold entrySelectors at h
  unfold probeUsers
  cases haccept : step.accept with
  | some accept => rfl
  | none =>
    rw [haccept] at h
    cases hhere : app.ingresses.filter fun ingress =>
        ingress.chain = step.chain && ingress.node = nodeId with
    | nil => simp [hhere] at h
    | cons ingress rest => rfl

theorem infix_flatMap {α β : Type} {f : α → List β} {as : List α} {a : α} (h : a ∈ as) :
    f a <:+: as.flatMap f :=
  List.infix_of_mem_flatten (List.mem_map_of_mem h)

theorem probeRules_emitted {sys : SystemIr} {apps : List AppIr} (happ : app ∈ apps)
    (hstep : step ∈ app.steps) (hat : step.node = nodeId)
    (h : (entrySelectors app step nodeId).isEmpty = false) (family : Option IpFamily) :
    probeRules digest app step nodeId family <:+: xrayRoutingRules digest sys apps nodeId := by
  have hfamily : family ∈ [some IpFamily.v4, some .v6, none] := by
    cases family with
    | none => simp
    | some family => cases family <;> simp
  have hstepRules : probeRules digest app step nodeId family <:+: stepRules digest app nodeId step := by
    unfold stepRules
    dsimp only
    rw [h]
    exact (infix_flatMap hfamily).trans (List.prefix_append _ _).isInfix
  have happRules : stepRules digest app nodeId step
      <:+: (app.steps.filter (·.node = nodeId)).flatMap (stepRules digest app nodeId) :=
    infix_flatMap (List.mem_filter.mpr ⟨hstep, by simpa using hat⟩)
  have hsorted : app ∈ sortedApps apps := by
    rw [sortedApps, List.mem_insertionSort]
    exact happ
  exact (hstepRules.trans happRules).trans
    ((infix_flatMap (f := fun app => (app.steps.filter (·.node = nodeId)).flatMap
      (stepRules digest app nodeId)) hsorted).trans (List.suffix_append _ _).isInfix)

/-- **The diagnostics of a table of a compiled project stand in the machine's table, and they leave
where the table's users do exactly if no rule that names a beginning of `tls` only is the first to
take the HTTPS request.** -/
theorem diagnostics_mirror_iff {checks : Checks} {doc : ModelSnapshot}
    (happ : app ∈ scopeNodeApps (compile checks doc).apps nodeId) (hstep : step ∈ app.steps)
    (hentered : (entrySelectors app step nodeId).isEmpty = false) :
    (∀ family, probeRules digest app step nodeId family
      <:+: xrayRoutingRules digest (compile checks doc).system
        (scopeNodeApps (compile checks doc).apps nodeId) nodeId)
    ∧ (DiagnosticsMirror digest app step nodeId request ↔
      ∀ rule, step.rules.find? (fun rule => (httpsOf request).satisfies rule.destMatch) = some rule →
        namesTlsInPart rule.destMatch = false) := by
  have hscoped := happ
  obtain ⟨whole, hwhole, rfl⟩ := List.mem_map.mp hscoped
  obtain ⟨view, -, hview⟩ := mem_compile_apps hwhole
  have hunique : ∀ hop ∈ (scopeNodeApp (compile checks doc).apps nodeId whole).hops,
      ∀ other ∈ (scopeNodeApp (compile checks doc).apps nodeId whole).hops,
        Hop.edgeKey hop = Hop.edgeKey other → hop = other := by
    intro hop hhop other hother
    have hmem := List.mem_of_mem_filter hhop
    have hmem' := List.mem_of_mem_filter hother
    rw [hview] at hmem hmem'
    exact hop_unique hmem hmem'
  have hat : step.node = nodeId := by simpa using (List.mem_filter.mp hstep).2
  refine ⟨probeRules_emitted happ hstep hat hentered, ?_⟩
  unfold DiagnosticsMirror
  rw [resolver_mirrors_iff (probeUsers_ne_nil hentered none)]
  constructor
  · exact fun h => h.2
  · exact fun h => ⟨fun family => family_mirrors hunique family (probeUsers_ne_nil hentered _), h⟩

end Mirror

/-- A machine whose one table refuses what the sniffer names so. -/
def sniffedSnapshot (name : String) : ModelSnapshot :=
  plainSnapshot [plainNode "a" "192.0.2.1"]
    [plainApp "web" [⟨"c", "acme", "c", none⟩] [plainIngress "door" "c" "a"]
      [⟨"c", "a", none, none, [⟨.protocol [name], .block⟩, ⟨.any, .egress none⟩]⟩]]

/-- A query about a host that no entry names. -/
def plainRequest : Request := ⟨fun _ => false, fun _ => false, 443, fun _ => false, .udp, fun _ => false,
  false⟩

/-- A table that reads the name. -/
def sniffedTable (name : String) (app : AppIr) (step : Ir.Step) : Bool :=
  !(entrySelectors app step "a").isEmpty
    && step.rules == [⟨.protocol [name], .block⟩, ⟨.any, .egress none⟩]

theorem exists_sniffedTable (name : String) (h : (scopeNodeApps
      (compile silentChecks (sniffedSnapshot name)).apps "a").any
        (fun app => app.steps.any (sniffedTable name app)) = true) :
    ∃ app ∈ scopeNodeApps (compile silentChecks (sniffedSnapshot name)).apps "a", ∃ step ∈ app.steps,
      (entrySelectors app step "a").isEmpty = false
        ∧ step.rules = [⟨.protocol [name], .block⟩, ⟨.any, .egress none⟩] := by
  obtain ⟨app, happ, hsteps⟩ := List.any_eq_true.mp h
  obtain ⟨step, hstep, htable⟩ := List.any_eq_true.mp hsteps
  rw [sniffedTable, Bool.and_eq_true, Bool.not_eq_true', beq_iff_eq] at htable
  exact ⟨app, happ, step, hstep, htable⟩

theorem diagnostics_mirror_whole_name :
    ∃ app ∈ scopeNodeApps (compile silentChecks (sniffedSnapshot "tls")).apps "a",
      ∃ step ∈ app.steps, (∀ family, probeRules (fun _ => "") app step "a" family
          <:+: xrayRoutingRules (fun _ => "") (compile silentChecks (sniffedSnapshot "tls")).system
            (scopeNodeApps (compile silentChecks (sniffedSnapshot "tls")).apps "a") "a")
        ∧ (DiagnosticsMirror (fun _ => "") app step "a" plainRequest ↔
          ∀ rule, step.rules.find? (fun rule => (httpsOf plainRequest).satisfies rule.destMatch)
            = some rule → namesTlsInPart rule.destMatch = false) := by
  obtain ⟨app, happ, step, hstep, hentered, -⟩ := exists_sniffedTable "tls" (by decide +kernel)
  exact ⟨app, happ, step, hstep, diagnostics_mirror_iff happ hstep hentered⟩

/-- The refusal names a beginning of `tls`: it takes the users' HTTPS, and the resolver's diagnostics
leave by the outbound behind it. -/
theorem diagnostics_astray : (compile silentChecks (sniffedSnapshot "tl")).ensurePublishable = true
      ∧ ∃ app ∈ scopeNodeApps (compile silentChecks (sniffedSnapshot "tl")).apps "a",
        ∃ step ∈ app.steps, (entrySelectors app step "a").isEmpty = false
          ∧ ¬ DiagnosticsMirror (fun _ => "") app step "a" plainRequest := by
  obtain ⟨app, happ, step, hstep, hentered, hrules⟩ := exists_sniffedTable "tl" (by decide +kernel)
  refine ⟨by decide +kernel, app, happ, step, hstep, hentered, fun hmirror => ?_⟩
  have hnames := (resolver_mirrors_iff (probeUsers_ne_nil hentered none)).mp hmirror.2
    ⟨.protocol ["tl"], .block⟩ (by rw [hrules]; rfl)
  exact absurd hnames (by decide)

end Brocade.Physical
