/-
Which pass reports a repeated identifier.

A diagnostic carries the code of the check that found it.  `id.dup` is the code of the passes that
count identifiers and of no other, so a compilation is free of it exactly where those lists of
identifiers have no repetition (`noIdDup_compile`).
-/
import Brocade.Ir.Compile

namespace Brocade.Ir

open Model

@[simp] theorem Diagnostic.error_code (code location message : String) :
    (Diagnostic.error code location message).code = code := rfl

@[simp] theorem Diagnostic.warn_code (code location message : String) :
    (Diagnostic.warn code location message).code = code := rfl

@[simp] theorem Diagnostic.info_code (code location message : String) :
    (Diagnostic.info code location message).code = code := rfl

/-- No identifier is reported as repeated. -/
def NoIdDup (ds : List Diagnostic) : Prop := ∀ d ∈ ds, d.code ≠ "id.dup"

@[simp] theorem noIdDup_nil : NoIdDup [] := by simp [NoIdDup]

@[simp] theorem noIdDup_cons {d : Diagnostic} {ds : List Diagnostic} :
    NoIdDup (d :: ds) ↔ d.code ≠ "id.dup" ∧ NoIdDup ds := by
  simp [NoIdDup]

@[simp] theorem noIdDup_append {ds es : List Diagnostic} :
    NoIdDup (ds ++ es) ↔ NoIdDup ds ∧ NoIdDup es :=
  List.forall_mem_append

@[simp] theorem noIdDup_flatMap {α : Type} {as : List α} {f : α → List Diagnostic} :
    NoIdDup (as.flatMap f) ↔ ∀ a ∈ as, NoIdDup (f a) := by
  simp only [NoIdDup, List.mem_flatMap]
  constructor
  · intro h a ha d hd
    exact h d ⟨a, ha, hd⟩
  · rintro h d ⟨a, ha, hd⟩
    exact h a ha d hd

@[simp] theorem noIdDup_map {α : Type} {as : List α} {f : α → Diagnostic} :
    NoIdDup (as.map f) ↔ ∀ a ∈ as, (f a).code ≠ "id.dup" := by
  simp [NoIdDup]

variable {code location : String}

@[simp] theorem noIdDup_errorIf {bad : Bool} {message : String} :
    NoIdDup (errorIf bad code location message) ↔ bad = true → code ≠ "id.dup" := by
  cases bad <;> simp [errorIf]

@[simp] theorem noIdDup_warnIf {bad : Bool} {message : String} :
    NoIdDup (warnIf bad code location message) ↔ bad = true → code ≠ "id.dup" := by
  cases bad <;> simp [warnIf]

theorem noIdDup_uniqueBy {values : List String} :
    NoIdDup (uniqueBy "id.dup" location [] values) ↔ values.Nodup := by
  have hgo : ∀ (values seen : List String), NoIdDup (uniqueBy "id.dup" location seen values)
        ↔ values.Nodup ∧ ∀ value ∈ values, value ∉ seen := by
    intro values
    induction values with
    | nil => simp [uniqueBy]
    | cons value values ih =>
      intro seen
      unfold uniqueBy
      by_cases hseen : value ∈ seen
      · simp [hseen]
      · rw [if_neg hseen, ih, List.nodup_cons]
        constructor
        · rintro ⟨hnodup, hfresh⟩
          refine ⟨⟨fun hmem => ?_, hnodup⟩, fun v hv => ?_⟩
          · exact hfresh value hmem (by simp)
          · rcases List.mem_cons.mp hv with rfl | hv
            · exact hseen
            · exact fun hmem => hfresh v hv (List.mem_append_left _ hmem)
        · rintro ⟨⟨hnew, hnodup⟩, hfresh⟩
          refine ⟨hnodup, fun v hv hmem => ?_⟩
          rcases List.mem_append.mp hmem with hmem | hmem
          · exact hfresh v (List.mem_cons_of_mem _ hv) hmem
          · rw [List.mem_singleton.mp hmem] at hv
            exact hnew hv
  rw [hgo]
  simp

theorem noIdDup_uniqueBy_other (hcode : code ≠ "id.dup") (seen values : List String) :
    NoIdDup (uniqueBy code location seen values) := by
  induction values generalizing seen with
  | nil => simp [uniqueBy]
  | cons value values ih =>
    unfold uniqueBy
    split
    · exact noIdDup_cons.mpr ⟨hcode, ih _⟩
    · exact ih _

theorem noIdDup_clashes {κ : Type} [DecidableEq κ] {report : κ → String → String → Diagnostic}
    (hreport : ∀ key previous what, (report key previous what).code ≠ "id.dup")
    (held claims : List (κ × String)) : NoIdDup (clashes report held claims) := by
  induction claims generalizing held with
  | nil => simp [clashes]
  | cons claim claims ih =>
    refine noIdDup_append.mpr ⟨?_, ih _⟩
    cases held.lookup claim.1 with
    | none => simp
    | some previous => simp [hreport]

theorem noIdDup_crossClashes {κ : Type} [DecidableEq κ] {report : κ → String → String → Diagnostic}
    (hreport : ∀ key previous what, (report key previous what).code ≠ "id.dup")
    (held claims : List (κ × ℕ × String)) : NoIdDup (crossClashes report held claims) := by
  induction claims generalizing held with
  | nil => simp [crossClashes]
  | cons claim claims ih =>
    obtain ⟨key, owner, what⟩ := claim
    unfold crossClashes
    split
    · exact ih _
    · refine noIdDup_append.mpr ⟨?_, ih _⟩
      split
      · simp [hreport]
      · simp

/-! ### Before anything compiles -/

/-- The checks of the documents report under codes of their own. -/
structure Checks.OwnCodes (checks : Checks) : Prop where
  realityClient : ∀ value, NoIdDup (checks.realityClient value)
  xhttp : ∀ ingress xhttp, NoIdDup (checks.xhttp ingress xhttp)
  hysteria2 : ∀ ingress hysteria2, NoIdDup (checks.hysteria2 ingress hysteria2)
  anytls : ∀ ingress anytls, NoIdDup (checks.anytls ingress anytls)
  reality : ∀ ingress settings identity anytls,
    NoIdDup (checks.reality ingress settings identity anytls)
  externalOutbound : ∀ outbound, NoIdDup (checks.externalOutbound outbound)
  externalFront : ∀ front outbound, NoIdDup (checks.externalFront front outbound)
  frontRoutes : ∀ sys app front, NoIdDup (checks.frontRoutes sys app front)

section
variable {checks : Checks}

theorem noIdDup_validateHopMux (mux : HopMux) (location : String) :
    NoIdDup (validateHopMux mux location) := by
  simp [validateHopMux]

theorem noIdDup_validateDisabledLinks (nodeIds : List String) (seen : List (String × String))
    (links : List DisabledWireGuardLink) : NoIdDup (validateDisabledLinks nodeIds seen links) := by
  induction links generalizing seen with
  | nil => simp [validateDisabledLinks]
  | cons link links ih =>
    unfold validateDisabledLinks
    dsimp only
    split
    · simp [ih]
    · simp [ih]

theorem noIdDup_validateSettings (hchecks : checks.OwnCodes) (doc : ModelSnapshot) :
    NoIdDup (validateSettings checks doc) := by
  simp [validateSettings, noIdDup_validateHopMux, noIdDup_validateDisabledLinks,
    hchecks.realityClient]

theorem noIdDup_validateDnsPolicy (doc : ModelSnapshot) (policy : NodeEgressDnsPolicy) :
    NoIdDup (validateDnsPolicy doc policy) := by
  simp [validateDnsPolicy]

theorem noIdDup_validateModelSnapshot (hchecks : checks.OwnCodes) (doc : ModelSnapshot) :
    NoIdDup (validateModelSnapshot checks doc) ↔ (doc.nodes.map (·.id)).Nodup
      ∧ (doc.apps.map (·.id)).Nodup ∧ ((doc.apps.flatMap (·.chains)).map (·.id)).Nodup := by
  simp only [validateModelSnapshot, noIdDup_append, noIdDup_uniqueBy]
  have hother : ∀ {code location : String} (values : List String), code ≠ "id.dup" →
      NoIdDup (uniqueBy code location [] values) :=
    fun values hcode => noIdDup_uniqueBy_other hcode [] values
  have huuid := @noIdDup_clashes String _
    (fun _ previous owner => .error "user.uuid-dup" owner s!"用户 uuid 与 {previous} 重复")
    (fun _ _ _ => by simp) [] (doc.users.map fun user => (user.uuid, s!"{user.tenant}/{user.id}"))
  simp only [noIdDup_validateSettings hchecks, huuid, noIdDup_flatMap, noIdDup_warnIf,
    noIdDup_errorIf, noIdDup_validateDnsPolicy, validateSlug]
  simp [hother, and_assoc]

theorem noIdDup_validateOverlay (cidr : Address.Ipv4Net)
    (held claims : List (Address.Ipv4Addr × String)) :
    NoIdDup (validateOverlay cidr held claims) := by
  induction claims generalizing held with
  | nil => simp [validateOverlay]
  | cons claim claims ih =>
    obtain ⟨addr, node⟩ := claim
    unfold validateOverlay
    cases held.lookup addr <;> simp [ih]

theorem noIdDup_validateSystem (sys : SystemIr) :
    NoIdDup (validateSystem sys) ↔ (sys.nodes.map (·.id)).Nodup ∧ (sys.links.map (·.id)).Nodup := by
  simp [validateSystem, noIdDup_uniqueBy, noIdDup_validateOverlay]

theorem noIdDup_compileSystem (doc : ModelSnapshot) : NoIdDup (compileSystem doc).2 := by
  have hwrap : ∀ a b, NoIdDup (linkWrap doc a b).2 := by
    intro a b
    unfold linkWrap
    split
    · split
      · simp
      · dsimp only
        split
        · simp
        · simp
    · simp
  have hlink : ∀ a b, NoIdDup (linkBetween doc a b).2 := by
    intro a b
    unfold linkBetween
    dsimp only
    split
    · simp
    · split
      · simp [hwrap]
      · simp [hwrap]
  unfold compileSystem
  dsimp only
  refine noIdDup_append.mpr ⟨?_, ?_⟩
  · refine noIdDup_flatMap.mpr ?_
    intro made hmade
    obtain ⟨pair, -, rfl⟩ := List.mem_map.mp hmade
    exact hlink _ _
  · split
    · simp
    · simp

/-! ### Routing -/

theorem noIdDup_chainRootDiagnostics (app : AppView) : NoIdDup (chainRootDiagnostics app) := by
  unfold chainRootDiagnostics
  refine noIdDup_flatMap.mpr ?_
  intro chain _
  dsimp only
  split
  · simp
  · simp

theorem noIdDup_mergeStepField {T : Type} [DecidableEq T] {values : List (Option T)}
    {code location fieldName : String} (hcode : code ≠ "id.dup") :
    NoIdDup (mergeStepField values code location fieldName).2 := by
  unfold mergeStepField
  split
  · simp
  · split
    · simp
    · simp [hcode]

theorem noIdDup_compileTable (input : RoutingChainInput) (root : String) (node : Node)
    (nodeId : String) : NoIdDup (compileTable input root node nodeId).diagnostics := by
  have hdefault : ∀ rules, NoIdDup (appendDefaultRule node input.chain nodeId rules).2.2 := by
    intro rules
    unfold appendDefaultRule terminalDefault
    split
    · simp
    · split
      · simp
      · simp
  refine noIdDup_append.mpr ⟨noIdDup_append.mpr ⟨?_, ?_⟩, hdefault _⟩
  · exact noIdDup_mergeStepField (by simp)
  · exact noIdDup_mergeStepField (by simp)

theorem noIdDup_chainLoop (input : RoutingChainInput) (root : String) :
    NoIdDup (chainLoop input root).diagnostics := by
  refine Worklist.drain_keeps (P := fun st : ChainLoop => NoIdDup st.diagnostics) ?_
    (by simp)
  intro nodeId st hst
  unfold visitMember
  split
  · exact hst
  split
  · simp [hst]
  · simp [hst, noIdDup_compileTable]

theorem noIdDup_compileChainSteps (input : RoutingChainInput) :
    NoIdDup (compileChainSteps input).2 := by
  unfold compileChainSteps
  split
  · simp
  · dsimp only
    have hdead : ∀ primary result, NoIdDup (deadChain input primary result) := by
      intro primary result
      unfold deadChain
      dsimp only
      split
      · simp
      · simp
    simp [noIdDup_chainLoop, unreachableWarnings, hdead]

theorem noIdDup_compileGrants (doc : ModelSnapshot) (app : AppView) (live : List Ingress) :
    NoIdDup (compileGrants doc app live).2 := by
  have hone : ∀ seen grant, NoIdDup (compileGrant doc app live seen grant).2 := by
    intro seen grant
    unfold compileGrant
    dsimp only
    split
    · simp
    split
    · simp
    split
    · simp
    split
    · simp
    · simp
  have hfold : ∀ (grants : List Model.Grant) (acc : List String × List Grant × List Diagnostic),
      NoIdDup acc.2.2 → NoIdDup (grants.foldl (fun acc grant =>
        let compiled := compileGrant doc app live acc.1 grant
        let seen := compiled.1.toList.map fun grant =>
          s!"{userKey grant.tenant grant.user}|{grant.ingress}"
        (acc.1 ++ seen, acc.2.1 ++ compiled.1.toList, acc.2.2 ++ compiled.2)) acc).2.2 := by
    intro grants
    induction grants with
    | nil => exact fun acc hacc => hacc
    | cons grant grants ih =>
      intro acc hacc
      exact ih _ (noIdDup_append.mpr ⟨hacc, hone _ _⟩)
  exact hfold app.grants ([], [], []) noIdDup_nil

theorem noIdDup_compileApp (doc : ModelSnapshot) (app : AppView)
    (listenerRoots : List (String × String)) : NoIdDup (compileApp doc app listenerRoots).2 := by
  simp [compileApp, compileAppWith, noIdDup_chainRootDiagnostics, noIdDup_compileGrants,
    RoutingChainInput.compile, noIdDup_compileChainSteps]

/-! ### Hops -/

/-- What is reported in place of a value is not a repeated identifier. -/
def OtherCode {α : Type} (resolved : Resolved α) : Prop :=
  ∀ d, resolved = .error d → d.code ≠ "id.dup"

@[simp] theorem otherCode_ok {α : Type} (value : α) : OtherCode (.ok value : Resolved α) :=
  fun _ h => by cases h

@[simp] theorem otherCode_error {α : Type} {d : Diagnostic} :
    OtherCode (.error d : Resolved α) ↔ d.code ≠ "id.dup" := by
  constructor
  · exact fun h => h d rfl
  · intro h e he
    rw [← Except.error.inj he]
    exact h

theorem otherCode_refuseNat (location target host : String) (node : Option AppNode) :
    OtherCode (refuseNat location target host node) := by
  unfold refuseNat
  split
  · simp
  · simp

theorem otherCode_dialTarget (location source target : String) (dial : RelayDialRef) (hopIn : HopIn)
    (ends : HopEndpoints) : OtherCode (dialTarget location source target dial hopIn ends) := by
  have hoverlay : OtherCode (dialOverlay location source target hopIn ends) := by
    unfold dialOverlay
    split
    · simp
    · split
      · simp
      · split
        · simp
        · simp
  have haddr : ∀ raw, OtherCode (dialAddr location target raw hopIn ends) := by
    intro raw
    unfold dialAddr
    split
    next d hd =>
      unfold parseAddr at hd
      split at hd
      · cases hd
      · rw [← Except.error.inj hd]
        simp
    next =>
      split
      next d hd => exact otherCode_error.mpr (otherCode_refuseNat _ _ _ _ d hd)
      next =>
        split
        · simp
        · simp
  have hpublic : ∀ family, OtherCode (dialPublic location target family hopIn ends) := by
    intro family
    unfold dialPublic
    split
    · simp
    · split
      · simp
      · simp
  have hlistener : ∀ raw, OtherCode (dialListenerAddr location target raw hopIn ends) := by
    intro raw
    unfold dialListenerAddr
    split
    next d hd =>
      unfold parseListenerHost at hd
      split at hd
      · cases hd
      · rw [← Except.error.inj hd]
        simp
    next =>
      split
      next d hd => exact otherCode_error.mpr (otherCode_refuseNat _ _ _ _ d hd)
      next => simp
  have hreverse : ∀ family, OtherCode (dialReverse location source target family hopIn ends) := by
    intro family
    unfold dialReverse
    split
    · simp
    · split
      · simp
      · simp
  unfold dialTarget
  split
  · exact hoverlay
  · exact hoverlay
  · exact haddr _
  · exact hreverse _
  · exact hpublic _
  · exact hlistener _

theorem otherCode_entryOf (targetSteps : List Step) (step : Step) (forward : ForwardActionRef) :
    OtherCode (entryOf targetSteps step forward) := by
  unfold entryOf
  dsimp only
  split
  · split
    · simp
    · simp
  split
  · simp
  split
  · simp
  · simp

theorem noIdDup_compileHops (app : AppIr) (targetSteps : List Step) (sys : SystemIr) :
    NoIdDup (compileHopsWithTargets app targetSteps sys).2 := by
  have hadd : ∀ (table : HopTable) (edge : Step × ForwardActionRef), NoIdDup table.2 →
      NoIdDup (addHop app targetSteps sys table edge).2 := by
    intro table edge htable
    unfold addHop
    split
    next d hd => simp [htable, otherCode_entryOf _ _ _ d hd]
    next =>
      split
      · exact htable
      · split
        next d hd =>
          have hcode : d.code ≠ "id.dup" := by
            unfold resolveEdge at hd
            split at hd
            · cases hd
            · exact otherCode_dialTarget _ _ _ _ _ _ d hd
          simp [htable, hcode]
        next => exact htable
  have hfold : ∀ (edges : List (Step × ForwardActionRef)) (table : HopTable), NoIdDup table.2 →
      NoIdDup (edges.foldl (addHop app targetSteps sys) table).2 := by
    intro edges
    induction edges with
    | nil => exact fun table htable => htable
    | cons edge edges ih => exact fun table htable => ih _ (hadd table edge htable)
  exact hfold _ _ noIdDup_nil

/-! ### One project -/

theorem noIdDup_validateUniqueIds (app : AppIr) :
    NoIdDup (validateUniqueIds app) ↔ (app.nodes.map (·.id)).Nodup ∧ (app.chains.map (·.id)).Nodup
      ∧ (app.ingresses.map (·.id)).Nodup ∧ (app.fronts.map (·.id)).Nodup
      ∧ (app.steps.map (·.id)).Nodup ∧ (app.grants.map (·.id)).Nodup := by
  have hother : ∀ {code location : String} (values : List String), code ≠ "id.dup" →
      NoIdDup (uniqueBy code location [] values) :=
    fun values hcode => noIdDup_uniqueBy_other hcode [] values
  simp [validateUniqueIds, noIdDup_uniqueBy, hother]

theorem noIdDup_validateSlugs (app : AppIr) : NoIdDup (validateSlugs app) := by
  simp [validateSlugs, validateSlug, validateTenantSlugs]

theorem noIdDup_validateIngress (hchecks : checks.OwnCodes) (app : AppIr) (ingress : Ingress) :
    NoIdDup (validateIngress checks app ingress) := by
  have hencryption : ∀ encryption, NoIdDup (validateVlessEncryption checks ingress encryption) := by
    intro encryption
    simp [validateVlessEncryption]
  have hmtproto : ∀ settings, NoIdDup (validateMtProto app ingress settings) := by
    intro settings
    unfold validateMtProto
    refine noIdDup_append.mpr ⟨by simp, ?_⟩
    cases app.nodes.find? (·.id = ingress.node) with
    | none => simp
    | some node =>
      rw [Option.bind_some]
      cases mtprotoFault node with
      | none => simp
      | some reason => simp
  have hprojection : ∀ protocol v4 v6, NoIdDup (validateProjectionPair ingress protocol v4 v6) := by
    intro protocol v4 v6
    simp [validateProjectionPair]
  unfold validateIngress
  simp only [noIdDup_append, noIdDup_flatMap]
  refine ⟨⟨⟨⟨⟨⟨⟨?_, ?_⟩, ?_⟩, ?_⟩, ?_⟩, ?_⟩, ?_⟩, ?_⟩
  · exact fun xhttp _ => hchecks.xhttp ingress xhttp
  · exact fun encryption _ => hencryption encryption
  · exact fun hysteria2 _ => hchecks.hysteria2 ingress hysteria2
  · exact fun anytls _ => hchecks.anytls ingress anytls
  · exact fun settings _ => hmtproto settings
  · simp [validateIngressCertificate]
  · simp [validateIngressGuard]
  · split
    · simp
    · simp [validateProjection, hprojection]

theorem noIdDup_validatePorts (sys : SystemIr) (app : AppIr) : NoIdDup (validatePorts sys app) := by
  refine noIdDup_flatMap.mpr ?_
  intro node _
  exact noIdDup_clashes (fun _ _ _ => by simp [portClash]) _ _

theorem noIdDup_validateLabels (app : AppIr) : NoIdDup (validateLabels app) := by
  refine noIdDup_flatMap.mpr ?_
  intro node _
  exact noIdDup_clashes (fun _ _ _ => by simp [labelClash]) _ _

theorem noIdDup_forwardConflicts (step : Step)
    (held : List ((String × String) × RelayDialRef × HopPool))
    (forwards : List ForwardActionRef) : NoIdDup (forwardConflicts step held forwards) := by
  induction forwards generalizing held with
  | nil => simp [forwardConflicts]
  | cons forward forwards ih =>
    unfold forwardConflicts
    simp only [noIdDup_append, noIdDup_errorIf, noIdDup_flatMap, ih]
    refine ⟨⟨⟨by simp, ?_⟩, by simp⟩, trivial⟩
    split
    · exact noIdDup_validateHopMux _ _
    · simp

theorem noIdDup_validateSteps (sys : SystemIr) (app : AppIr) : NoIdDup (validateSteps sys app) := by
  refine noIdDup_flatMap.mpr ?_
  intro step _
  unfold validateStep
  refine noIdDup_append.mpr ⟨noIdDup_forwardConflicts _ _ _, ?_⟩
  split
  · simp
  · simp [validateSniffingFallback, validateRule]

theorem noIdDup_validateExternalOutbounds (hchecks : checks.OwnCodes) (app : AppIr) :
    NoIdDup (validateExternalOutbounds checks app) := by
  have hrule : ∀ step outbound, NoIdDup (validateProxyRule app step outbound) := by
    intro step outbound
    unfold validateProxyRule
    dsimp only
    split
    · simp
    · refine noIdDup_append.mpr ⟨?_, by simp⟩
      split
      · simp
      · simp
  simp only [validateExternalOutbounds, noIdDup_append, noIdDup_flatMap]
  exact ⟨fun outbound _ => hchecks.externalOutbound outbound,
    fun step _ outbound _ => hrule step outbound⟩

theorem noIdDup_validateListenerEdges {before : ListenerEdge → List Diagnostic}
    (hbefore : ∀ edge, NoIdDup (before edge)) (cyclic : ListenerEdge → Bool) (message : String)
    (reported : List String) (edges : List ListenerEdge) :
    NoIdDup (validateListenerEdges before cyclic message reported edges) := by
  induction edges generalizing reported with
  | nil => simp [validateListenerEdges]
  | cons edge edges ih => simp [validateListenerEdges, hbefore, ih]

theorem noIdDup_validateTopology (app : AppIr) : NoIdDup (validateTopology app) := by
  refine noIdDup_append.mpr ⟨?_, noIdDup_validateListenerEdges (fun _ => noIdDup_nil) _ _ _ _⟩
  simp [validateChainTopology]

theorem noIdDup_validateFronts (hchecks : checks.OwnCodes) (sys : SystemIr) (app : AppIr) :
    NoIdDup (validateFronts checks sys app) := by
  have hvia : ∀ front via, NoIdDup (validateVia app front via) := by
    intro front via
    unfold validateVia
    split
    · simp
    · simp
  have hexternal : ∀ front via, NoIdDup (validateExternalVia checks app front via) := by
    intro front via
    unfold validateExternalVia
    split
    · simp
    · refine noIdDup_append.mpr ⟨noIdDup_append.mpr ⟨by simp, ?_⟩, hchecks.externalFront _ _⟩
      split
      · simp
      · simp
      · simp
  simp [validateFronts, hvia, hexternal, hchecks.frontRoutes]

theorem noIdDup_validateReality (hchecks : checks.OwnCodes) (app : AppIr) :
    NoIdDup (validateReality checks app) := by
  simp [validateReality, hchecks.reality]

theorem noIdDup_validateHopSecurity (app : AppIr) : NoIdDup (validateHopSecurity app) := by
  refine noIdDup_flatMap.mpr ?_
  intro hop _
  dsimp only
  split
  · simp
  · split
    · simp
    · simp
    · simp
    · simp

theorem noIdDup_validateTenants (app : AppIr) : NoIdDup (validateTenants app) := by
  simp [validateTenants, validateChainScope]

theorem noIdDup_validateDns (app : AppIr) : NoIdDup (validateDns app) := by
  refine noIdDup_flatMap.mpr ?_
  intro node _
  split
  · simp
  · simp

theorem noIdDup_validateApp (hchecks : checks.OwnCodes) (sys : SystemIr) (app : AppIr) :
    NoIdDup (validateApp checks sys app) ↔ (app.nodes.map (·.id)).Nodup
      ∧ (app.chains.map (·.id)).Nodup ∧ (app.ingresses.map (·.id)).Nodup
      ∧ (app.fronts.map (·.id)).Nodup ∧ (app.steps.map (·.id)).Nodup
      ∧ (app.grants.map (·.id)).Nodup := by
  have hingresses : NoIdDup (validateChainIngresses checks app) := by
    simp [validateChainIngresses, noIdDup_validateIngress hchecks]
  have hreverse : NoIdDup (validateReverseNeedsVless app) := by
    simp [validateReverseNeedsVless]
  simp only [validateApp, noIdDup_append, noIdDup_validateUniqueIds, noIdDup_validateSlugs,
    hingresses, noIdDup_validatePorts, noIdDup_validateLabels, noIdDup_validateSteps,
    noIdDup_validateExternalOutbounds hchecks, noIdDup_validateTopology,
    noIdDup_validateFronts hchecks, noIdDup_validateReality hchecks, noIdDup_validateHopSecurity,
    hreverse, noIdDup_validateTenants, noIdDup_validateDns, and_true]

/-! ### All projects -/

theorem noIdDup_validateAppSet (apps : List AppIr) : NoIdDup (validateAppSet checks apps) := by
  have hdns : NoIdDup (validateAppSetDns apps) := by
    simp only [validateAppSetDns, noIdDup_flatMap]
    intro id _ node _
    unfold validateNodeDns
    split
    · simp
    split
    · simp
    split
    · simp
    · simp
    · simp
  have hscope : ∀ edge, NoIdDup (crossScope apps edge) := by
    intro edge
    simp [crossScope]
  have hnames : ∀ location held names, NoIdDup (subscriptionFaults location held names) := by
    intro location held names
    induction names generalizing held with
    | nil => simp [subscriptionFaults]
    | cons name names ih =>
      obtain ⟨name, owner⟩ := name
      unfold subscriptionFaults
      cases held.lookup name <;> simp [ih]
  simp only [validateAppSet, noIdDup_append]
  refine ⟨⟨⟨⟨?_, ?_⟩, hdns⟩, ?_⟩, ?_⟩
  · exact noIdDup_crossClashes (fun _ _ _ => by simp [portClash]) _ _
  · exact noIdDup_crossClashes (fun _ _ _ => by simp [labelClash]) _ _
  · exact noIdDup_validateListenerEdges hscope _ _ _ _
  · simp [validateSubscriptionNames, hnames]

end

end Brocade.Ir
