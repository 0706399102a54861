/-
Plans: what every machine should have against what it is known to hold, and a plan narrowed
to a release of one kind.

A release of one kind must leave the rest alone: an artifact no action moves goes out
unmanaged, and so do the accounts of a machine whose xray keeps running.  What is true of a
plan is true machine by machine, and narrowing decides from a machine's own actions, so the
results here are about one target each.
-/
import Brocade.Release.Actions
import Brocade.Release.Waves

namespace Brocade.Release

open Ir Model

/-! ### Planning -/

/-- What is known of a machine; the last record where there are several. -/
def appliedByNode (applied : List NodeAppliedState) (nodeId : String) : Option NodeAppliedState :=
  OrdMap.lastOf nodeId (applied.map fun state => (state.nodeId, state))

def statusOf (actions : List PlannedAction) : PlannedTargetStatus :=
  if actions.isEmpty then .skipped else .pending

/-- A target with its actions, before it is given a wave. -/
def targetOf (host : Host) (nodeId : String) (desired : NodeDesiredState)
    (applied : Option NodeAppliedState) (actions : List PlannedAction) : PlannedTarget where
  nodeId := nodeId
  status := statusOf actions
  wave := 0
  disruptive := actions.any fun action => isDisruptive host action applied desired
  prerequisites := []
  actions := actions
  desired := desired

/-- The target of one machine; `none` where choosing its actions is held unreachable. -/
def plannedTarget (host : Host) (applied : List NodeAppliedState)
    (entry : String × NodeDesiredState) : Option PlannedTarget :=
  (plannedActions entry.2 (appliedByNode applied entry.1)).map
    (targetOf host entry.1 entry.2 (appliedByNode applied entry.1))

/-- The plan of a release. -/
def planDesiredDeployment (host : Host) (revision : ℕ) (desired : List (String × NodeDesiredState))
    (applied : List NodeAppliedState) (warnings : List PlanDiagnostic) : Option DeploymentPlan := do
  let planned ← desired.mapM (plannedTarget host applied)
  let targets := assignWaves (sortById (·.nodeId) planned)
  return { revision, targets, summary := summarizeTargets targets, warnings, baseRevisionId := none }

/-- A retired machine is sent all four disables as long as one of them is not observed. -/
def retireTarget (host : Host) (applied : List NodeAppliedState) (target : PlannedTarget) :
    PlannedTarget :=
  let known := appliedByNode applied target.nodeId
  let actions := retirementActions target.desired known
  { target with
    actions := actions
    disruptive := actions.any fun action => isDisruptive host action known target.desired
    status := statusOf actions }

/-- The warnings of a compilation. -/
def planWarnings (output : CompileOutput) : List PlanDiagnostic :=
  (output.diagnostics.filter (·.level = .warn)).map fun diagnostic =>
    ⟨diagnostic.code, diagnostic.location, diagnostic.message⟩

/-- What a snapshot asks of each of its machines. -/
def desiredStates (host : Host) (projections : Projections) (output : CompileOutput)
    (doc : ModelSnapshot) : List (String × NodeDesiredState) :=
  (OrdMap.keySet (doc.nodes.map (·.id))).map fun nodeId =>
    (nodeId, desiredState host (nodePlan projections output nodeId))

/-- The targets of a plan with the retired machines settled: sent away as long as they owe
something, and left out after that. -/
def settleRetired (host : Host) (doc : ModelSnapshot) (applied : List NodeAppliedState)
    (targets : List PlannedTarget) : List PlannedTarget :=
  let retired := retiredNodes doc
  (targets.map fun target =>
      if target.nodeId ∈ retired then retireTarget host applied target else target).filter
    fun target => decide (target.nodeId ∉ retired) || target.status = .pending

/-- **The plan of a release.**  An error where the snapshot must not be published, and no
value where choosing an action is held unreachable. -/
def planDeployment (checks : Checks) (projections : Projections) (host : Host)
    (doc : ModelSnapshot) (applied : List NodeAppliedState) :
    Except (List Diagnostic) (Option DeploymentPlan) :=
  let output := compile checks doc
  if output.ensurePublishable then
    .ok ((planDesiredDeployment host doc.revision (desiredStates host projections output doc)
      applied (planWarnings output)).map fun plan =>
        let kept := settleRetired host doc applied plan.targets
        let targets := assignWaves (assignListenerReferencePrerequisites host kept applied)
        { plan with targets, summary := summarizeTargets targets })
  else .error output.diagnostics

/-! ### Narrowing -/

/-- Whether a machine's accounts can be synchronised on their own now. -/
def canSyncGrantsNow (target : PlannedTarget) : Bool :=
  target.status = .pending && decide (.syncGrants ∈ target.actions) && !target.managesXray

def untouched (reason : String) : DesiredArtifact := .unmanaged reason

/-- The artifacts some action moves. -/
def movedArtifacts (actions : List PlannedAction) : List ConfigArtifact :=
  actions.filterMap (·.artifact)

/-- Leave alone what no action moves, and the accounts of an xray that keeps running. -/
def narrowConfigDesired (target : PlannedTarget) : PlannedTarget :=
  let managesXray := target.managesXray
  let moved := movedArtifacts target.actions
  let desired := target.desired.mapArtifacts fun artifact desired =>
    if artifact ∈ moved then desired else untouched s!"这一单不动 {artifact.field}"
  let actions := if managesXray then target.actions else target.actions.filter (· ≠ .syncGrants)
  let grants := if managesXray then desired.grants
    else .unmanaged "配置单未重启 xray，不改运行态权限"
  { target with
    actions := actions
    desired := { desired with grants := grants }
    status := if actions.isEmpty then .skipped else target.status
    disruptive := if actions.isEmpty then false else target.disruptive }

/-- Only the accounts are kept. -/
def narrowGrantsDesired (target : PlannedTarget) : PlannedTarget :=
  { target with
    prerequisites := []
    wave := 0
    desired := { target.desired with
      phantun := untouched "权限单不碰 phantun"
      hy2PortHop := untouched "权限单不碰端口跳转"
      wireguard := untouched "权限单不碰 wireguard"
      xray := untouched "权限单不重启 xray" } }

/-- Only what the kind brings is kept. -/
def narrowToKind (plan : DeploymentPlan) (kind : DeploymentKind) : DeploymentPlan :=
  let targets := match kind with
    | .config => assignWaves (plan.targets.map narrowConfigDesired)
    | .grants => (plan.targets.filter canSyncGrantsNow).map narrowGrantsDesired
  { plan with targets, summary := summarizeTargets targets }

/-! ### What a plan holds -/

section Plan

variable {host : Host} {applied : List NodeAppliedState}

theorem plannedTarget_spec (host : Host) (applied : List NodeAppliedState)
    {entry : String × NodeDesiredState} (h : Managed entry.2) :
    ∃ actions, plannedActions entry.2 (appliedByNode applied entry.1) = some actions
      ∧ plannedTarget host applied entry
        = some (targetOf host entry.1 entry.2 (appliedByNode applied entry.1) actions) := by
  obtain ⟨actions, hactions, -⟩ := plannedActions_spec h (appliedByNode applied entry.1)
  exact ⟨actions, hactions, by rw [plannedTarget, hactions]; rfl⟩

/-- What a plan made from desired states is. -/
structure PlannedOf (host : Host) (desired : List (String × NodeDesiredState))
    (applied : List NodeAppliedState) (targets : List PlannedTarget) : Prop where
  sound : ∀ target ∈ targets, ∃ entry ∈ desired, ∃ actions wave,
    plannedActions entry.2 (appliedByNode applied entry.1) = some actions
    ∧ target = { targetOf host entry.1 entry.2 (appliedByNode applied entry.1) actions with
        wave := wave }
  covers : ∀ entry ∈ desired, ∃ target ∈ targets, target.nodeId = entry.1

/-- **Choosing actions never meets the unreachable branch**, and what comes out is one
target for each machine. -/
theorem planDesiredDeployment_spec (host : Host) (applied : List NodeAppliedState)
    {desired : List (String × NodeDesiredState)} (revision : ℕ) (warnings : List PlanDiagnostic) (h : ∀ entry ∈ desired, Managed entry.2) :
    ∃ plan, planDesiredDeployment host revision desired applied warnings = some plan
      ∧ PlannedOf host desired applied plan.targets := by
  obtain ⟨planned, hplanned, hmem, hall⟩ : ∃ planned,
      desired.mapM (plannedTarget host applied) = some planned
        ∧ (∀ target ∈ planned, ∃ entry ∈ desired, plannedTarget host applied entry = some target)
        ∧ ∀ entry ∈ desired, ∃ target ∈ planned, target.nodeId = entry.1 := by
    induction desired with
    | nil => exact ⟨[], rfl, fun _ h => absurd h List.not_mem_nil,
        fun _ h => absurd h List.not_mem_nil⟩
    | cons entry desired ih =>
      obtain ⟨planned, hplanned, hmem, hall⟩ :=
        ih fun e he => h e (List.mem_cons_of_mem entry he)
      obtain ⟨actions, -, htarget⟩ := plannedTarget_spec host applied
        (h entry List.mem_cons_self)
      refine ⟨_ :: planned, by rw [List.mapM_cons, htarget, hplanned]; rfl, fun target ht => ?_,
        fun e he => ?_⟩
      · rcases List.mem_cons.mp ht with rfl | ht
        · exact ⟨entry, List.mem_cons_self, htarget⟩
        · obtain ⟨e, he, hte⟩ := hmem target ht
          exact ⟨e, List.mem_cons_of_mem entry he, hte⟩
      · rcases List.mem_cons.mp he with rfl | he
        · exact ⟨_, List.mem_cons_self, rfl⟩
        · obtain ⟨target, ht, hname⟩ := hall e he
          exact ⟨target, List.mem_cons_of_mem _ ht, hname⟩
  refine ⟨_, by rw [planDesiredDeployment, hplanned]; rfl, fun target ht => ?_, fun entry he => ?_⟩
  · obtain ⟨before, hbefore, hwave⟩ := mem_assignWaves ht
    rw [sortById, List.mem_insertionSort] at hbefore
    obtain ⟨entry, hentry, htarget⟩ := hmem before hbefore
    obtain ⟨actions, hactions, hspec⟩ := plannedTarget_spec host applied
      (h entry hentry)
    rw [hspec, Option.some.injEq] at htarget
    exact ⟨entry, hentry, actions, target.wave, hactions, htarget ▸ hwave⟩
  · obtain ⟨before, hbefore, hname⟩ := hall entry he
    have hsorted : before ∈ sortById (·.nodeId) planned := (List.mem_insertionSort _).mpr hbefore
    obtain ⟨wave, hwave⟩ := exists_assignWaves hsorted
    exact ⟨_, hwave, hname⟩

theorem managed_desiredStates {checks : Checks} {doc : ModelSnapshot}
    (h : (compile checks doc).ensurePublishable = true) (projections : Projections) :
    ∀ entry ∈ desiredStates host projections (compile checks doc) doc, Managed entry.2 := by
  intro entry hentry
  obtain ⟨nodeId, -, rfl⟩ := List.mem_map.mp hentry
  exact managed_desiredState host h projections nodeId

/-- **A publishable snapshot always has a plan.** -/
theorem planDeployment_spec (host : Host) (applied : List NodeAppliedState) {checks : Checks}
    {doc : ModelSnapshot}
    (h : (compile checks doc).ensurePublishable = true) (projections : Projections) :
    ∃ targets plan, PlannedOf host (desiredStates host projections (compile checks doc) doc)
        applied targets
      ∧ planDeployment checks projections host doc applied = .ok (some plan)
      ∧ plan.targets = assignWaves (assignListenerReferencePrerequisites host
        (settleRetired host doc applied targets) applied) := by
  obtain ⟨plan, hplan, hof⟩ := planDesiredDeployment_spec host applied
    doc.revision (planWarnings (compile checks doc)) (managed_desiredStates h projections)
  let kept := settleRetired host doc applied plan.targets
  let targets := assignWaves (assignListenerReferencePrerequisites host kept applied)
  refine ⟨plan.targets, { plan with targets, summary := summarizeTargets targets }, hof, ?_, rfl⟩
  rw [planDeployment]
  simp only [h, if_true, hplan, Option.map_some]
  rfl

end Plan

end Brocade.Release
