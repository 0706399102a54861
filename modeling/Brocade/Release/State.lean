/-
What a machine should have, what it is known to have, and what a release does about it.

Four artifacts land on a machine as files, and the account lists go into the running xray
over its API.  An artifact is asked for, asked to be gone, or left alone; what a machine is
known to hold is one of those, unknown, or dirty after a round that did not come back clean.
-/
import Brocade.Ir.Diagnostic
import Brocade.Lib.Json

namespace Brocade.Release

/-! ### Artifacts and accounts -/

/-- A file a machine is to have. -/
inductive DesiredArtifact where
  | present (content sha256 : String)
  | disabled (reason : String)
  | unmanaged (reason : String)
deriving DecidableEq

/-- An account, as desired. -/
structure GrantClient where
  (email uuid : String)
  flow : Option String
  level : ℕ
deriving DecidableEq

/-- A listener's accounts, as desired. -/
structure GrantInbound where
  tag : String
  clients : List GrantClient
deriving DecidableEq

/-- The accounts a machine is to have. -/
inductive DesiredGrants where
  | present (inbounds : List GrantInbound)
  | disabled (reason : String)
  | unmanaged (reason : String)
deriving DecidableEq

/-- An account read back from a machine; the level is not reported. -/
structure ObservedClient where
  (email uuid : String)
  flow : Option String
deriving DecidableEq

/-- A listener's accounts, as observed. -/
structure ObservedInbound where
  tag : String
  clients : List ObservedClient
deriving DecidableEq

/-- The file a machine has. -/
inductive AppliedArtifactState where
  | present (sha256 : String)
  | disabled
  | unmanaged
  | unknown
  | dirty (reason : String)
deriving DecidableEq

/-- The accounts a machine has. -/
inductive AppliedGrantsState where
  | present (inbounds : List ObservedInbound)
  | disabled
  | unmanaged
  | unknown
  | dirty (reason : String)
deriving DecidableEq

/-- What a machine is to be. -/
structure NodeDesiredState where
  (phantun wireguard xray hy2PortHop : DesiredArtifact)
  grants : DesiredGrants
deriving DecidableEq

/-- What a machine is known to be. -/
structure NodeAppliedState where
  nodeId : String
  (phantun hy2PortHop wireguard xray : AppliedArtifactState)
  grants : AppliedGrantsState
  /-- the config the machine is running, where that is proven -/
  runningXray : Option String

/-- Nothing is known of the machine. -/
def NodeAppliedState.unknown (nodeId : String) : NodeAppliedState where
  nodeId := nodeId
  phantun := .unknown
  hy2PortHop := .unknown
  wireguard := .unknown
  xray := .unknown
  grants := .unknown
  runningXray := none

/-- The four things a configuration deployment writes to a machine. -/
inductive ConfigArtifact where
  | phantun
  | hy2PortHop
  | wireGuard
  | xray
deriving DecidableEq

namespace ConfigArtifact

def ALL : List ConfigArtifact := [.phantun, .hy2PortHop, .wireGuard, .xray]

/-- The name of a file. -/
def field : ConfigArtifact → String
  | .phantun => "phantun"
  | .hy2PortHop => "hy2_port_hop"
  | .wireGuard => "wireguard"
  | .xray => "xray"

@[simp] theorem mem_ALL (artifact : ConfigArtifact) : artifact ∈ ALL := by
  cases artifact <;> simp [ALL]

end ConfigArtifact

/-- The artifact of a kind in a desired state. -/
def NodeDesiredState.artifact (desired : NodeDesiredState) : ConfigArtifact → DesiredArtifact
  | .phantun => desired.phantun
  | .hy2PortHop => desired.hy2PortHop
  | .wireGuard => desired.wireguard
  | .xray => desired.xray

/-- Change every artifact according to its kind. -/
def NodeDesiredState.mapArtifacts (desired : NodeDesiredState)
    (f : ConfigArtifact → DesiredArtifact → DesiredArtifact) : NodeDesiredState :=
  { desired with
    phantun := f .phantun desired.phantun
    hy2PortHop := f .hy2PortHop desired.hy2PortHop
    wireguard := f .wireGuard desired.wireguard
    xray := f .xray desired.xray }

@[simp] theorem NodeDesiredState.artifact_mapArtifacts (desired : NodeDesiredState)
    (f : ConfigArtifact → DesiredArtifact → DesiredArtifact) (artifact : ConfigArtifact) :
    (desired.mapArtifacts f).artifact artifact = f artifact (desired.artifact artifact) := by
  cases artifact <;> rfl

@[simp] theorem NodeDesiredState.grants_mapArtifacts (desired : NodeDesiredState)
    (f : ConfigArtifact → DesiredArtifact → DesiredArtifact) :
    (desired.mapArtifacts f).grants = desired.grants := rfl

/-- The state of a file. -/
def NodeAppliedState.artifact (applied : NodeAppliedState) : ConfigArtifact → AppliedArtifactState
  | .phantun => applied.phantun
  | .hy2PortHop => applied.hy2PortHop
  | .wireGuard => applied.wireguard
  | .xray => applied.xray

/-! ### Actions -/

/-- What a release does to a machine. -/
inductive PlannedAction where
  | applyPhantun
  | applyHy2PortHop
  | applyWireGuard
  | applyXray
  | syncVpngate
  | syncGrants
  | disablePhantun
  | disableHy2PortHop
  | disableWireGuard
  | disableXray
deriving DecidableEq

namespace PlannedAction

/-- The place of an action in the order actions are sorted in. -/
def rank : PlannedAction → ℕ
  | .applyPhantun => 0
  | .applyHy2PortHop => 1
  | .applyWireGuard => 2
  | .applyXray => 3
  | .syncVpngate => 4
  | .syncGrants => 5
  | .disablePhantun => 6
  | .disableHy2PortHop => 7
  | .disableWireGuard => 8
  | .disableXray => 9

/-- The artifact an action moves. -/
def artifact : PlannedAction → Option ConfigArtifact
  | .applyPhantun | .disablePhantun => some .phantun
  | .applyHy2PortHop | .disableHy2PortHop => some .hy2PortHop
  | .applyWireGuard | .disableWireGuard => some .wireGuard
  | .applyXray | .disableXray => some .xray
  | .syncVpngate | .syncGrants => none

def sortActions (actions : List PlannedAction) : List PlannedAction :=
  actions.insertionSort fun a b => a.rank ≤ b.rank

@[simp] theorem mem_sortActions {actions : List PlannedAction} {action : PlannedAction} :
    action ∈ sortActions actions ↔ action ∈ actions := List.mem_insertionSort _

@[simp] theorem sortActions_eq_nil {actions : List PlannedAction} :
    sortActions actions = [] ↔ actions = [] := by
  rw [List.eq_nil_iff_forall_not_mem, List.eq_nil_iff_forall_not_mem]
  simp

end PlannedAction

/-! ### Plans -/

/-- Whether a target is to do anything. -/
inductive PlannedTargetStatus where
  | pending
  | deferred
  | skipped
deriving DecidableEq

/-- A machine of a release. -/
structure PlannedTarget where
  nodeId : String
  status : PlannedTargetStatus
  wave : ℕ
  disruptive : Bool
  prerequisites : List String
  actions : List PlannedAction
  desired : NodeDesiredState
deriving DecidableEq

/-- An xray change is among the actions. -/
def PlannedTarget.managesXray (target : PlannedTarget) : Bool :=
  target.actions.any fun action => action = .applyXray || action = .disableXray

/-- The counts of a plan. -/
structure PlanSummary where
  (totalTargets changedTargets skippedTargets deferredTargets disruptiveTargets maxWave : ℕ)

/-- A warning of a plan. -/
structure PlanDiagnostic where
  (code location message : String)

/-- A plan of a release. -/
structure DeploymentPlan where
  revision : ℕ
  targets : List PlannedTarget
  summary : PlanSummary
  warnings : List PlanDiagnostic
  baseRevisionId : Option ℤ

/-- What a deployment brings. -/
inductive DeploymentKind where
  | config
  | grants
deriving DecidableEq

/-! ### What lies outside -/

/-- Digests, and documents as texts. -/
structure Host where
  sha256Hex : String → String
  parse : String → Option Json.Value
  render : Json.Value → String

end Brocade.Release
