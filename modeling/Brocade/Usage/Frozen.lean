/-
Whose counters a machine's labels are.

A generation freezes, for one reporting machine, what every label of the model stands for
there: a user's grant at an ingress of the machine, a relay hop it carries, or something
another machine accounts for.  A relay hop is carried by its own machine and by every
reverse portal that pulls from it.
-/
import Brocade.Model
import Brocade.Usage.Record

namespace Brocade.Usage

open Model

/-- An account of a frozen listener. -/
structure GrantClient where
  (email uuid : String)
  flow : Option String
  level : ℕ

/-- A frozen listener. -/
structure GrantInbound where
  tag : String
  clients : List GrantClient

/-- The grants a release wants on a machine. -/
inductive DesiredGrants where
  | present (inbounds : List GrantInbound)
  | disabled (reason : String)
  | unmanaged (reason : String)

/-- The labels a release authorizes; `none` where there is no release to say. -/
def allowedUsers (desiredGrants : Option DesiredGrants) : Option (List String) :=
  desiredGrants.map fun grants => match grants with
    | .present inbounds => inbounds.flatMap fun inbound => inbound.clients.map GrantClient.email
    | .disabled _ | .unmanaged _ => []

/-- The binding of a grant on the reporting machine. -/
def grantBinding (app : AppView) (reporterNode : String) (grant : Grant) : FrozenBinding :=
  if app.ingresses.any fun ingress =>
      decide (ingress.id = grant.ingress) && decide (ingress.node = reporterNode) then
    .user grant.tenant grant.user grant.ingress app.id
      ((app.ingresses.find? fun ingress => ingress.id = grant.ingress).map Ingress.chain)
      .establishBaseline
  else .foreign

/-- Whether the reporting machine carries a step's relay traffic: the step is its own, or one
of its tables on the chain pulls from the step's machine. -/
def carriedHere (app : AppView) (reporterNode : String) (step : Step) : Bool :=
  decide (step.node = reporterNode) || app.steps.any fun portal =>
    decide (portal.node = reporterNode) && decide (portal.chain = step.chain)
      && portal.rules.any fun rule => match rule.action with
        | .forward target (.reverse _) _ => decide (target = step.node)
        | _ => false

/-- The binding of a relay hop on the reporting machine. -/
def hopBinding (app : AppView) (reporterNode : String) (step : Step) (chain : Chain) :
    FrozenBinding :=
  if carriedHere app reporterNode step then .chainHop chain.tenant app.id chain.id step.node
  else .foreign

/-- The bindings a project contributes, in order; a later one replaces an earlier one. -/
def appBindings (app : AppView) (reporterNode : String) (allowed : Option (List String)) :
    List (String × FrozenBinding) :=
  (app.grants.filterMap fun grant =>
    let label := grantLabel grant.user grant.tenant grant.ingress
    if allowed.any fun labels => decide (label ∉ labels) then none
    else some (label, grantBinding app reporterNode grant)) ++
  app.steps.filterMap fun step => do
    let accept ← step.accept
    let chain ← app.chains.find? fun chain => chain.id = step.chain
    return (accept.label, hopBinding app reporterNode step chain)

/-- Who a machine's labels belong to. -/
def frozenBindings (snapshot : ModelSnapshot) (reporterNode : String)
    (desiredGrants : Option DesiredGrants) : OrdMap String FrozenBinding :=
  (snapshot.apps.flatMap fun app =>
    appBindings app reporterNode (allowedUsers desiredGrants)).foldl
      (fun bindings entry => bindings.insert entry.1 entry.2) .empty

/-! ### The binding of one hop -/

/-- In the model the label is the accept label of one relay hop only. -/
structure SoleHop (snapshot : ModelSnapshot) (hop : ChainHopMapping) : Prop where
  noGrant : ∀ app ∈ snapshot.apps, ∀ grant ∈ app.grants,
    grantLabel grant.user grant.tenant grant.ingress ≠ hop.label
  oneHop : ∀ app ∈ snapshot.apps, ∀ step ∈ app.steps, ∀ accept, step.accept = some accept →
    accept.label = hop.label → ∀ chain ∈ app.chains, chain.id = step.chain →
      step.node = hop.nodeId ∧ app.id = hop.appId ∧ chain.id = hop.chainId ∧
        chain.tenant = hop.tenantId

/-- What the label stands for on a machine: the hop if it is carried there. -/
def HopOrForeign (hop : ChainHopMapping) (binding : FrozenBinding) : Prop :=
  binding = .foreign ∨ binding = .chainHop hop.tenantId hop.appId hop.chainId hop.nodeId

theorem foldl_insert_get? {entries : List (String × FrozenBinding)}
    {bindings : OrdMap String FrozenBinding} {label : String} {P : FrozenBinding → Prop}
    (hentries : ∀ entry ∈ entries, entry.1 = label → P entry.2)
    (hbindings : ∀ binding, bindings.get? label = some binding → P binding) :
    ∀ binding, (entries.foldl (fun bindings entry => bindings.insert entry.1 entry.2)
      bindings).get? label = some binding → P binding := by
  induction entries generalizing bindings with
  | nil => exact hbindings
  | cons entry rest ih =>
    refine ih (fun e he => hentries e (List.mem_cons_of_mem _ he)) fun binding hget => ?_
    rw [OrdMap.get?_insert] at hget
    split at hget
    · rename_i hlabel
      cases hget
      exact hentries entry List.mem_cons_self hlabel.symm
    · exact hbindings binding hget

/-- A sole hop's label stands for the hop on every machine, or for nothing of the machine. -/
theorem frozenBindings_soleHop {snapshot : ModelSnapshot} {hop : ChainHopMapping}
    (h : SoleHop snapshot hop) (reporterNode : String) (desiredGrants : Option DesiredGrants) :
    ∀ binding, (frozenBindings snapshot reporterNode desiredGrants).get? hop.label = some binding →
      HopOrForeign hop binding := by
  refine foldl_insert_get? (fun entry hentry hlabel => ?_) nofun
  obtain ⟨app, happ, hentry⟩ := List.mem_flatMap.mp hentry
  rcases List.mem_append.mp hentry with hgrant | hstep
  · obtain ⟨grant, hmem, hsome⟩ := List.mem_filterMap.mp hgrant
    simp only [Option.ite_none_left_eq_some, Option.some.injEq] at hsome
    obtain ⟨-, rfl⟩ := hsome
    exact absurd hlabel (h.noGrant app happ grant hmem)
  · obtain ⟨step, hmem, hsome⟩ := List.mem_filterMap.mp hstep
    simp only [Option.bind_eq_bind, Option.bind_eq_some_iff, Option.pure_def,
      Option.some.injEq] at hsome
    obtain ⟨accept, haccept, chain, hchain, rfl⟩ := hsome
    have hid : chain.id = step.chain := by simpa using List.find?_some hchain
    obtain ⟨hnode, happId, hchainId, htenant⟩ := h.oneHop app happ step hmem accept haccept hlabel
      chain (List.mem_of_find?_eq_some hchain) hid
    unfold hopBinding
    split
    · exact Or.inr (by rw [hnode, happId, hchainId, htenant])
    · exact Or.inl rfl

end Brocade.Usage
