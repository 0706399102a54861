/-
From a compiled machine to what it should have.

Rendering an artifact is a function of the projection and of nothing else, so a projection
is kept here as the texts it renders to.  The account lists are projected in full: that a
delivered list answers for itself when it is read back rests on how its tags and flows come
about (`managed_desiredState`).
-/
import Brocade.Physical.Grants
import Brocade.Release.State
import Mathlib.Data.Prod.Lex

namespace Brocade.Release

open Ir Model Physical

/-- The texts a machine's network and listeners render to, where it has any. -/
structure Projections where
  (wireguard phantun : SystemIr → String → Option String)
  xray : SystemIr → List AppIr → AppNode → String
  hy2PortHops : List AppIr → String → Option String
  /-- the identity derived from a key and a name -/
  probeUuid : String → String → String

/-- The files of one machine. -/
structure NodePlan where
  nodeId : String
  (wireguard phantun xray : Option String)
  grantSync : GrantSyncPlan
  hy2PortHops : Option String

/-- The files of a machine. -/
def projectNode (projections : Projections) (sys : SystemIr) (apps : List AppIr)
    (nodeId : String) : NodePlan where
  nodeId := nodeId
  wireguard := projections.wireguard sys nodeId
  phantun := projections.phantun sys nodeId
  xray := (xrayNode apps nodeId).map (projections.xray sys apps)
  grantSync := grantSyncPlan projections.probeUuid apps nodeId
  hy2PortHops := projections.hy2PortHops apps nodeId

/-- What a publishable compilation holds for one machine. -/
def nodePlan (projections : Projections) (output : CompileOutput) (nodeId : String) : NodePlan :=
  projectNode projections output.system (scopeNodeApps output.apps nodeId) nodeId

/-! ### Account lists -/

def grantClient (client : GrantClientPlan) : GrantClient where
  email := client.label
  uuid := client.uuid
  flow := client.flow
  level := 0

/-- The order accounts are sorted in: every field, in turn. -/
def GrantClient.key (client : GrantClient) : String ×ₗ String ×ₗ List String ×ₗ ℕ :=
  toLex (client.email, toLex (client.uuid, toLex (client.flow.toList, client.level)))

/-- The order of listeners. -/
def GrantInbound.key (inbound : GrantInbound) :
    String ×ₗ List (String ×ₗ String ×ₗ List String ×ₗ ℕ) :=
  toLex (inbound.tag, inbound.clients.map GrantClient.key)

/-- A listener, as desired. -/
def grantInbound (update : GrantInboundUpdatePlan) : GrantInbound where
  tag := update.inboundTag
  clients := (update.clients.map grantClient).insertionSort fun a b => a.key ≤ b.key

/-- The listeners, in order. -/
def grantInbounds (updates : List GrantInboundUpdatePlan) : List GrantInbound :=
  (updates.map grantInbound).insertionSort fun a b => a.key ≤ b.key

/-! ### The desired state -/

variable (host : Host)

def desiredPresent (content : String) : DesiredArtifact :=
  .present content (host.sha256Hex content)

/-- Asked for where the plan has it, asked to be gone where not. -/
def desiredArtifact (content : Option String) (reason : String) : DesiredArtifact :=
  match content with
  | some content => desiredPresent host content
  | none => .disabled reason

def desiredPhantun (plan : NodePlan) : DesiredArtifact :=
  desiredArtifact host plan.phantun s!"{plan.nodeId} 这一版不需要 phantun"

/-- The overlay it is to have. -/
def desiredWireguard (plan : NodePlan) : DesiredArtifact :=
  desiredArtifact host plan.wireguard s!"{plan.nodeId} is not in the WireGuard overlay"

/-- The xray it is to have. -/
def desiredXray (plan : NodePlan) : DesiredArtifact :=
  desiredArtifact host plan.xray s!"{plan.nodeId} has no xray workload in this revision"

def desiredHy2PortHop (plan : NodePlan) : DesiredArtifact :=
  desiredArtifact host plan.hy2PortHops s!"{plan.nodeId} 这一版没有端口跳转"

/-- The accounts it is to have. -/
def desiredGrants (plan : Option GrantSyncPlan) : DesiredGrants :=
  match plan with
  | none => .disabled "xray is disabled on this node"
  | some plan => .present (grantInbounds plan.updates)

/-- All it is to have. -/
def desiredState (plan : NodePlan) : NodeDesiredState where
  phantun := desiredPhantun host plan
  wireguard := desiredWireguard host plan
  xray := desiredXray host plan
  hy2PortHop := desiredHy2PortHop host plan
  grants := desiredGrants (plan.xray.map fun _ => plan.grantSync)

/-! ### What a desired state is -/

/-- Every listener has its own tag, and a tag fixes the flow of its accounts. -/
structure WellTagged (inbounds : List GrantInbound) : Prop where
  nodup : (inbounds.map (·.tag)).Nodup
  flow : ∀ inbound ∈ inbounds, ∃ flow, ∀ client ∈ inbound.clients, client.flow = flow

/-- What a machine is asked to be: every artifact there or gone, and account lists exactly
where there is an xray. -/
structure Managed (desired : NodeDesiredState) : Prop where
  artifact : ∀ artifact reason, desired.artifact artifact ≠ .unmanaged reason
  grants : (∃ content sha256 inbounds, desired.xray = .present content sha256
      ∧ desired.grants = .present inbounds ∧ WellTagged inbounds)
    ∨ ∃ reason reason', desired.xray = .disabled reason ∧ desired.grants = .disabled reason'

theorem desiredArtifact_ne_unmanaged (content : Option String) (reason reason' : String) :
    desiredArtifact host content reason ≠ .unmanaged reason' := by
  cases content <;> simp [desiredArtifact, desiredPresent]

theorem wellTagged_grantInbounds {probeUuid : String → String → String} {apps : List AppIr}
    (h : Named apps) (nodeId : String) :
    WellTagged (grantInbounds (grantSyncPlan probeUuid apps nodeId).updates) where
  nodup := by
    refine ((List.perm_insertionSort _ _).map _).nodup_iff.mpr ?_
    rw [List.map_map]
    exact grantSyncPlan_nodup h
  flow inbound hinbound := by
    rw [grantInbounds, List.mem_insertionSort] at hinbound
    obtain ⟨update, hupdate, rfl⟩ := List.mem_map.mp hinbound
    obtain ⟨flow, hflow⟩ := grantSyncPlan_flow hupdate
    refine ⟨flow, fun client hclient => ?_⟩
    rw [grantInbound, List.mem_insertionSort] at hclient
    obtain ⟨plan, hplan, rfl⟩ := List.mem_map.mp hclient
    exact hflow plan hplan

/-- **What a publishable snapshot asks of a machine is all managed, and tagged apart.** -/
theorem managed_desiredState {checks : Checks} {doc : ModelSnapshot}
    (h : (compile checks doc).ensurePublishable = true) (projections : Projections)
    (nodeId : String) :
    Managed (desiredState host (nodePlan projections (compile checks doc) nodeId)) where
  artifact := by
    intro artifact reason
    cases artifact <;> exact desiredArtifact_ne_unmanaged host _ _ _
  grants := by
    have hnamed := (named_of_publishable h).scope nodeId
    let plan := nodePlan projections (compile checks doc) nodeId
    show (∃ content sha256 inbounds, desiredXray host plan = .present content sha256
        ∧ desiredGrants (plan.xray.map fun _ => plan.grantSync) = .present inbounds
        ∧ WellTagged inbounds)
      ∨ ∃ reason reason', desiredXray host plan = .disabled reason
        ∧ desiredGrants (plan.xray.map fun _ => plan.grantSync) = .disabled reason'
    unfold desiredXray
    cases plan.xray with
    | none => exact .inr ⟨_, _, rfl, rfl⟩
    | some content => exact .inl ⟨_, _, _, rfl, rfl, wellTagged_grantInbounds hnamed nodeId⟩

end Brocade.Release
