/-
In which order machines change.

A tag of the form `out:ROUTE~LISTENER>PEER` dials a listener of another machine.  Comparing
the references a machine's proven running config makes with those its desired config makes
says which machine has to change first: a new caller waits for the listener, a listener that
goes waits for its callers, and an endpoint that changes takes both machines at once.

Machines are then numbered in waves.  A wave takes what waits for nothing that remains; the
first wave that applies an xray takes one machine only, a disruptive disable goes alone, and
machines that wait for each other in a circle go together.
-/
import Brocade.Lib.Scc
import Brocade.Lib.Text
import Brocade.Lib.Waves
import Brocade.Release.State

namespace Brocade.Release

/-! ### References -/

/-- What names a reference: its route, the machine that makes it, the listener, and the
machine the listener is on. -/
abbrev ReferenceId := String × String × String × String

/-- The reference an outbound's tag spells, if it crosses machines. -/
def referenceOf (sourceNode tag : String) : Option ReferenceId := do
  let rest ← Text.stripPrefix? "out:" tag
  let atPeer ← Text.splitOnce? rest ">"
  let atListener ← Text.splitOnce? atPeer.1 "~"
  if Text.endsWith atListener.2 "@local" || atPeer.2 = "" then none
  else some (atListener.1, sourceNode, atListener.2, atPeer.2)

/-- One outbound's reference with its text. -/
def outboundReference (host : Host) (sourceNode : String) (outbound : Json.Value) :
    Option (ReferenceId × String) :=
  ((outbound.get? "tag").bind (·.asStr?)).bind fun tag =>
    (referenceOf sourceNode tag).map fun identity => (identity, host.render outbound)

/-- The listeners a config dials. -/
def listenerReferencePairs (host : Host) (xray sourceNode : String) :
    List (ReferenceId × String) :=
  match ((host.parse xray).bind (·.get? "outbounds")).bind (·.asArr?) with
  | none => []
  | some outbounds => outbounds.filterMap (outboundReference host sourceNode)

/-- The references of a proven running config. -/
def runningListenerReferencePairs (host : Host) (state : NodeAppliedState) :
    List (ReferenceId × String) :=
  match state.runningXray with
  | none => []
  | some running => listenerReferencePairs host running state.nodeId

/-- Those that it is to dial. -/
def desiredListenerReferencePairs (host : Host) (target : PlannedTarget) :
    List (ReferenceId × String) :=
  match target.desired.xray with
  | .present content _ => listenerReferencePairs host content target.nodeId
  | .disabled _ | .unmanaged _ => []

/-- The machines whose xray changes. -/
def changingXray (targets : List PlannedTarget) : List String :=
  (targets.filter fun target => target.status = .pending && target.managesXray).map (·.nodeId)

/-- Which machine waits for which, dependent first. -/
def listenerRequires (host : Host) (targets : List PlannedTarget)
    (applied : List NodeAppliedState) : List (String × String) :=
  let current := targets.flatMap (desiredListenerReferencePairs host)
  let running := applied.flatMap (runningListenerReferencePairs host)
  let bothChange := fun identity : ReferenceId =>
    decide (identity.2.1 ∈ changingXray targets) && decide (identity.2.2.2 ∈ changingXray targets)
  let added := (current.map Prod.fst).filter fun identity =>
    (OrdMap.lastOf identity running).isNone && bothChange identity
  let removed := (running.map Prod.fst).filter fun identity =>
    (OrdMap.lastOf identity current).isNone && bothChange identity
  let changed := (current.map Prod.fst).filter fun identity =>
    (OrdMap.lastOf identity running).isSome
      && decide (OrdMap.lastOf identity current ≠ OrdMap.lastOf identity running)
      && bothChange identity
  (added.map fun identity => (identity.2.1, identity.2.2.2))
    ++ (removed.map fun identity => (identity.2.2.2, identity.2.1))
    ++ changed.flatMap fun identity =>
      [(identity.2.1, identity.2.2.2), (identity.2.2.2, identity.2.1)]

/-- Where a machine is in the plan; the last place where it is in several. -/
def byNode (targets : List PlannedTarget) (nodeId : String) : Option ℕ :=
  OrdMap.lastOf nodeId (targets.zipIdx.map fun target => (target.1.nodeId, target.2))

/-- Who waits for whom. -/
def assignListenerReferencePrerequisites (host : Host) (targets : List PlannedTarget)
    (applied : List NodeAppliedState) : List PlannedTarget :=
  let required := listenerRequires host targets applied
  targets.zipIdx.map fun target =>
    { target.1 with
      prerequisites := OrdMap.keySet ((required.filter fun edge =>
        byNode targets edge.1 = some target.2).map Prod.snd) }

/-! ### Waves -/

/-- An xray is applied and none is disabled. -/
def PlannedTarget.appliesXray (target : PlannedTarget) : Bool :=
  decide (.applyXray ∈ target.actions) && decide (.disableXray ∉ target.actions)

/-- A disable that costs connections. -/
def PlannedTarget.highRisk (target : PlannedTarget) : Bool :=
  target.disruptive
    && (decide (.disableWireGuard ∈ target.actions) || decide (.disableXray ∈ target.actions))

def PlannedTarget.ordered (target : PlannedTarget) : Bool := target.appliesXray || target.highRisk

/-- The places of the machines that are given a wave. -/
def orderedTargets (targets : List PlannedTarget) : List ℕ :=
  (targets.zipIdx.filter fun target => target.1.ordered).map Prod.snd

/-- The places a machine waits for. -/
def incoming (targets : List PlannedTarget) (index : ℕ) : List ℕ :=
  (targets[index]?.toList.flatMap fun target =>
    target.prerequisites.filterMap (byNode targets)).filter fun prerequisite =>
      prerequisite ∈ orderedTargets targets

/-- The places that wait for a machine, of those that remain. -/
def outgoing (targets : List PlannedTarget) (remaining : List ℕ) (index : ℕ) : List ℕ :=
  if index ∈ remaining then remaining.filter fun node => index ∈ incoming targets node else []

/-- Machines in a circle, nobody before them. -/
def sourceDependencyComponent (targets : List PlannedTarget) (remaining : List ℕ) : List ℕ :=
  Scc.sourceComponent (outgoing targets remaining) (incoming targets) remaining

/-- What the next wave takes. -/
def selectWave (targets : List PlannedTarget) (canary : Bool) (remaining : List ℕ) : List ℕ :=
  let ready := remaining.filter fun index =>
    (incoming targets index).all fun prerequisite => prerequisite ∉ remaining
  let regular := ready.filter fun index => !targets[index]?.any (·.highRisk)
  if ready.isEmpty then sourceDependencyComponent targets remaining
  else if regular.isEmpty then ready.take 1
  else if canary then regular.take 1
  else regular

/-- The canary is over once a wave applies an xray. -/
def canaryAfter (targets : List PlannedTarget) (canary : Bool) (selected : List ℕ) : Bool :=
  canary && !selected.any fun index => targets[index]?.any (·.appliesXray)

/-- The wave of each place. -/
def waveNumbers (targets : List PlannedTarget) : List (ℕ × ℕ) :=
  Waves.schedule (selectWave targets) (canaryAfter targets) (orderedTargets targets).length 1 true
    (orderedTargets targets)

/-- The targets with their waves. -/
def assignWaves (targets : List PlannedTarget) : List PlannedTarget :=
  targets.zipIdx.map fun target =>
    { target.1 with wave := ((waveNumbers targets).lookup target.2).getD 0 }

/-- The counts of the targets. -/
def summarizeTargets (targets : List PlannedTarget) : PlanSummary where
  totalTargets := targets.length
  changedTargets := targets.length - (targets.filter (·.status = .skipped)).length
  skippedTargets := (targets.filter (·.status = .skipped)).length
  deferredTargets := (targets.filter (·.status = .deferred)).length
  disruptiveTargets := (targets.filter (·.disruptive)).length
  maxWave := (targets.map (·.wave)).foldl max 0

/-! ### What numbering keeps -/

variable {targets : List PlannedTarget}

theorem mem_assignWaves {target : PlannedTarget} (h : target ∈ assignWaves targets) :
    ∃ before ∈ targets, target = { before with wave := target.wave } := by
  obtain ⟨⟨before, index⟩, hmem, rfl⟩ := List.mem_map.mp h
  exact ⟨before, (List.mem_zipIdx' hmem).2 ▸ List.getElem_mem _, rfl⟩

theorem exists_assignWaves {before : PlannedTarget} (h : before ∈ targets) :
    ∃ wave, { before with wave := wave } ∈ assignWaves targets := by
  obtain ⟨index, hlt, rfl⟩ := List.getElem_of_mem h
  exact ⟨_, List.mem_map.mpr ⟨(targets[index], index), List.mem_zipIdx_iff_getElem?.mpr
    (List.getElem?_eq_getElem hlt), rfl⟩⟩

theorem exists_prerequisites (host : Host) (applied : List NodeAppliedState)
    {before : PlannedTarget} (h : before ∈ targets) :
    ∃ prerequisites, { before with prerequisites := prerequisites }
      ∈ assignListenerReferencePrerequisites host targets applied := by
  obtain ⟨index, hlt, rfl⟩ := List.getElem_of_mem h
  exact ⟨_, List.mem_map.mpr ⟨(targets[index], index), List.mem_zipIdx_iff_getElem?.mpr
    (List.getElem?_eq_getElem hlt), rfl⟩⟩

theorem mem_prerequisites {host : Host} {applied : List NodeAppliedState} {target : PlannedTarget}
    (h : target ∈ assignListenerReferencePrerequisites host targets applied) :
    ∃ before ∈ targets, target = { before with prerequisites := target.prerequisites } := by
  obtain ⟨⟨before, index⟩, hmem, rfl⟩ := List.mem_map.mp h
  exact ⟨before, (List.mem_zipIdx' hmem).2 ▸ List.getElem_mem _, rfl⟩

end Brocade.Release
