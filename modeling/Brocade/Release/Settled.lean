/-
The life of a plan, from a baseline to nothing left to do.

`Produced` says where a desired state comes from, `Recorded` what the planner knows of a
machine.  `release_settles_iff` follows one machine through a config release and the account
release behind it, and a retired machine until everything it had is observed gone.
-/
import Brocade.Release.Settle

namespace Brocade.Release

open Ir Model

/-- A desired state as a publishable snapshot asks for it. -/
def Produced (host : Host) (projections : Projections) (desired : NodeDesiredState) : Prop :=
  ∃ (checks : Checks) (doc : ModelSnapshot) (nodeId : String),
    (compile checks doc).ensurePublishable = true
      ∧ desired = desiredState host (nodePlan projections (compile checks doc) nodeId)

theorem Produced.managed {host : Host} {projections : Projections} {desired : NodeDesiredState}
    (h : Produced host projections desired) : Managed desired := by
  obtain ⟨checks, doc, nodeId, hpublishable, rfl⟩ := h
  exact managed_desiredState host hpublishable projections nodeId

/-- The record of a machine among all that is known. -/
def Recorded (applied : List NodeAppliedState) (nodeId : String) (row : Option AppliedRow) : Prop :=
  ∃ running, appliedByNode applied nodeId = row.map (·.state nodeId running)

/-- The row after an honest report on a target. -/
def settledRow (deploymentId : ℤ) (kind : DeploymentKind) (target : PlannedTarget)
    (row : Option AppliedRow) : AppliedRow :=
  upsertNodeAppliedState deploymentId (echo target.desired) kind row

/-- All four artifacts of a machine were observed gone. -/
def ObservedGone (applied : List NodeAppliedState) (nodeId : String) : Prop :=
  ∃ known, appliedByNode applied nodeId = some known
    ∧ ∀ artifact, known.artifact artifact = .disabled

/-! ### One machine's targets -/

section Target

variable {host : Host} {desired : List (String × NodeDesiredState)}
  {applied : List NodeAppliedState} {targets : List PlannedTarget} {nodeId : String}

variable {asked : NodeDesiredState}

theorem PlannedOf.target (h : PlannedOf host desired applied targets)
    (hnames : (desired.map Prod.fst).Nodup) (hasked : (nodeId, asked) ∈ desired)
    {target : PlannedTarget} (htarget : target ∈ targets) (hname : target.nodeId = nodeId) :
    PlannedFor host asked (appliedByNode applied nodeId) target := by
  obtain ⟨entry, hentry, actions, wave, hactions, rfl⟩ := h.sound target htarget
  have hsame : entry = (nodeId, asked) := List.inj_on_of_nodup_map hnames hentry hasked hname
  subst hsame
  exact ⟨rfl, hactions, rfl⟩

theorem mem_narrowConfig {plan : DeploymentPlan} {target : PlannedTarget}
    (h : target ∈ (narrowToKind plan .config).targets) :
    ∃ before ∈ plan.targets, target.nodeId = before.nodeId
      ∧ target.actions = (narrowConfigDesired before).actions
      ∧ target.desired = (narrowConfigDesired before).desired := by
  obtain ⟨narrowed, hnarrowed, htarget⟩ := mem_assignWaves h
  obtain ⟨before, hbefore, rfl⟩ := List.mem_map.mp hnarrowed
  exact ⟨before, hbefore, by rw [htarget]; rfl, by rw [htarget], by rw [htarget]⟩

theorem mem_narrowGrants {plan : DeploymentPlan} {target : PlannedTarget}
    (h : target ∈ (narrowToKind plan .grants).targets) :
    ∃ before ∈ plan.targets, canSyncGrantsNow before = true ∧ target = narrowGrantsDesired before := by
  obtain ⟨before, hbefore, rfl⟩ := List.mem_map.mp h
  obtain ⟨hmem, hsync⟩ := List.mem_filter.mp hbefore
  exact ⟨before, hmem, hsync, rfl⟩

theorem Delivers.wellTagged {delivered : NodeDesiredState} {known : Option NodeAppliedState}
    (h : Managed asked) (hdelivers : Delivers asked known delivered) {inbounds : List GrantInbound}
    (hgrants : delivered.grants = .present inbounds) : WellTagged inbounds := by
  cases hmoves : moves asked known .xray with
  | true =>
    rw [hdelivers.grants hmoves] at hgrants
    rcases h.grants with ⟨_, _, _, -, hasked, htagged⟩ | ⟨_, _, -, hasked⟩
    · rw [hasked, DesiredGrants.present.injEq] at hgrants
      exact hgrants ▸ htagged
    · rw [hasked] at hgrants
      cases hgrants
  | false =>
    obtain ⟨reason, hnone⟩ := hdelivers.noGrants hmoves
    rw [hnone] at hgrants
    cases hgrants

/-- **A settled config release has nothing left for the machine.** -/
theorem no_actions_after {known : Option NodeAppliedState} {target : PlannedTarget}
    (h : Managed asked) (hplanned : PlannedFor host asked known target)
    (hmoves : ∀ artifact, moves asked known artifact = false) :
    (narrowConfigDesired target).actions = [] := by
  have honly := (actions_of_not_moves h hplanned.actions hmoves).1
  have hmanages : target.managesXray = false := by
    rw [PlannedTarget.managesXray, List.any_eq_false]
    intro action haction
    rw [honly action haction]
    decide
  simpa [narrowConfigDesired, hmanages] using honly

theorem grantsRow_artifact (deploymentId : ℤ) (target : PlannedTarget) (row : AppliedRow)
    (artifact : ConfigArtifact) :
    (settledRow deploymentId .grants (narrowGrantsDesired target) (some row)).artifact artifact
      = row.artifact artifact := by
  cases artifact <;> rfl

theorem grantsRow_grants (deploymentId : ℤ) {target : PlannedTarget} (h : Managed asked)
    (hasked : target.desired = asked) (row : AppliedRow) :
    (settledRow deploymentId .grants (narrowGrantsDesired target) (some row)).grants
      = echoGrants asked.grants := by
  show touchedGrants (echoGrants target.desired.grants) row.grants = _
  rw [hasked, touchedGrants, if_neg (echoGrants_ne_unmanaged h)]

/-- **After the accounts are reported as delivered nothing is left at all.** -/
theorem no_actions_after_grants {row : AppliedRow} {running running' : Option String}
    {target : PlannedTarget} (h : Managed asked) (hasked : target.desired = asked)
    (hmoves : ∀ artifact, moves asked (some (row.state nodeId running)) artifact = false)
    (deploymentId : ℤ) {actions : List PlannedAction}
    (hactions : plannedActions asked (some ((settledRow deploymentId .grants
      (narrowGrantsDesired target) (some row)).state nodeId running')) = some actions) :
    actions = [] := by
  have hgrants := grantsRow_grants deploymentId h hasked row
  have hneeds : ∀ artifact, needsMove asked (some ((settledRow deploymentId .grants
      (narrowGrantsDesired target) (some row)).state nodeId running')) artifact = false := by
    intro artifact
    have hbefore := (Bool.or_eq_false_iff.mp (hmoves artifact)).1
    rw [needsMove, Option.map_some, AppliedRow.artifact_state] at hbefore ⊢
    rwa [grantsRow_artifact]
  have hstill : ∀ artifact, moves asked (some ((settledRow deploymentId .grants
      (narrowGrantsDesired target) (some row)).state nodeId running')) artifact = false := by
    intro artifact
    rw [moves, hneeds, Option.map_some]
    show (false || (decide (artifact = .xray) && grantsFlowChanged asked.grants
      (some (settledRow deploymentId .grants (narrowGrantsDesired target) (some row)).grants)))
        = false
    rw [hgrants, not_flowChanged_echo h, Bool.and_false, Bool.or_false]
  refine (actions_of_not_moves h hactions hstill).2 ?_
  rw [Option.map_some]
  show grantsNeedAction asked.grants
    (some (settledRow deploymentId .grants (narrowGrantsDesired target) (some row)).grants) = false
  rw [hgrants]
  have hmatch := grantsMatch_echo asked.grants
  cases hcase : asked.grants with
  | present inbounds =>
    rw [hcase] at hmatch
    simpa [grantsNeedAction, echoGrants] using hmatch
  | disabled reason => rfl
  | unmanaged reason => rfl

end Target

/-! ### Retirement -/

theorem forcedActions_ne_nil {asked : NodeDesiredState} (h : Managed asked) :
    forcedActions asked ≠ [] := by
  obtain ⟨action, haction⟩ := ConfigArtifact.move_isSome .phantun (h.artifact .phantun)
  exact List.ne_nil_of_mem (mem_forcedActions.mpr (.inl ⟨.phantun, haction⟩))

theorem retirementArtifactsDisabled_iff (known : NodeAppliedState) :
    retirementArtifactsDisabled known = true ↔ ∀ artifact, known.artifact artifact = .disabled := by
  simp only [retirementArtifactsDisabled, List.all_eq_true, List.mem_cons, List.not_mem_nil,
    or_false, decide_eq_true_eq]
  constructor
  · intro h artifact
    cases artifact <;> exact h _ (by simp [NodeAppliedState.artifact])
  · rintro h _ (rfl | rfl | rfl | rfl)
    · exact h .phantun
    · exact h .hy2PortHop
    · exact h .wireGuard
    · exact h .xray

theorem retirementActions_eq_nil {asked : NodeDesiredState} (h : Managed asked)
    (known : Option NodeAppliedState) : retirementActions asked known = []
      ↔ ∃ state, known = some state ∧ ∀ artifact, state.artifact artifact = .disabled := by
  unfold retirementActions
  cases known with
  | none => simpa using forcedActions_ne_nil h
  | some state =>
    simp only [Option.any_some, Option.some.injEq, exists_eq_left',
      ← retirementArtifactsDisabled_iff]
    split <;> simp_all [forcedActions_ne_nil h]

/-- **A retired machine is a target exactly until all it had is observed gone.** -/
theorem retired_target_iff {checks : Checks} {projections : Projections} {host : Host}
    {doc : ModelSnapshot} {applied : List NodeAppliedState} {nodeId : String}
    (hpublishable : (compile checks doc).ensurePublishable = true)
    (hretired : nodeId ∈ retiredNodes doc) :
    ∃ plan, planDeployment checks projections host doc applied = .ok (some plan)
      ∧ ((∃ target ∈ plan.targets, target.nodeId = nodeId) ↔ ¬ ObservedGone applied nodeId) := by
  obtain ⟨targets, plan, hof, hplan, htargets⟩ :=
    planDeployment_spec host applied hpublishable projections
  refine ⟨plan, hplan, ?_⟩
  have hkept : ∀ target ∈ settleRetired host doc applied targets, target.nodeId = nodeId →
      ¬ ObservedGone applied nodeId := by
    intro target htarget hname hgone
    obtain ⟨hmem, hstays⟩ := List.mem_filter.mp htarget
    obtain ⟨before, hbefore, hmade⟩ := List.mem_map.mp hmem
    have hpending : target.status = .pending := by
      simpa [hname, hretired] using hstays
    obtain ⟨entry, hentry, actions, wave, -, hfrom⟩ := hof.sound before hbefore
    have hbeforeName : before.nodeId = nodeId := by
      rw [← hname, ← hmade]
      split <;> rfl
    rw [if_pos (hbeforeName ▸ hretired)] at hmade
    have hdesired : before.desired = entry.2 := by rw [hfrom]; rfl
    have hnone : retirementActions before.desired (appliedByNode applied before.nodeId) = [] := by
      rw [hdesired, hbeforeName]
      exact (retirementActions_eq_nil (managed_desiredStates hpublishable projections entry hentry)
        _).mpr hgone
    rw [← hmade, retireTarget] at hpending
    simp [hnone, statusOf] at hpending
  constructor
  · rintro ⟨target, htarget, hname⟩
    rw [htargets] at htarget
    obtain ⟨numbered, hnumbered, heq⟩ := mem_assignWaves htarget
    obtain ⟨before, hbefore, heq'⟩ := mem_prerequisites hnumbered
    refine hkept before hbefore ?_
    rw [← hname, heq, heq']
  · intro hgone
    have hid : nodeId ∈ OrdMap.keySet (doc.nodes.map (·.id)) := by
      obtain ⟨node, hnode, rfl⟩ := List.mem_map.mp hretired
      exact OrdMap.mem_keySet.mpr (List.mem_map_of_mem (List.mem_of_mem_filter hnode))
    obtain ⟨before, hbefore, hname⟩ := hof.covers (nodeId, _) (List.mem_map.mpr ⟨nodeId, hid, rfl⟩)
    obtain ⟨entry, hentry, actions, wave, -, hfrom⟩ := hof.sound before hbefore
    have hdesired : before.desired = entry.2 := by rw [hfrom]; rfl
    have hsome : retirementActions before.desired (appliedByNode applied before.nodeId) ≠ [] := by
      rw [hdesired, hname]
      exact fun hnil => hgone ((retirementActions_eq_nil
        (managed_desiredStates hpublishable projections entry hentry) _).mp hnil)
    have hstays : retireTarget host applied before ∈ settleRetired host doc applied targets := by
      refine List.mem_filter.mpr ⟨List.mem_map.mpr ⟨before, hbefore, if_pos (hname ▸ hretired)⟩, ?_⟩
      simp [retireTarget, statusOf, hsome]
    obtain ⟨prerequisites, hprerequisites⟩ := exists_prerequisites host applied hstays
    obtain ⟨wave, hwave⟩ := exists_assignWaves hprerequisites
    rw [htargets]
    exact ⟨_, hwave, hname⟩

/-! ### The whole life -/

/-- An honest report is accepted, and one that differs is accepted exactly if it is masked. -/
def JudgedSoundly (target : PlannedTarget) : Prop :=
  ∀ report, (Honest report target → judged report target = .ok .succeeded)
    ∧ ((Differs target.desired report.observedAfter → judged report target ≠ .ok .succeeded)
      ↔ ¬ Masked target.desired report)

/-- **A successful release settles its plan.**  A report that repeats a tag is the one way
for a difference to pass: only the last entry of a tag is compared. -/
theorem release_settles_iff {host : Host} {projections : Projections}
    {desired : List (String × NodeDesiredState)} (hnames : (desired.map Prod.fst).Nodup)
    (hproduced : ∀ entry ∈ desired, Produced host projections entry.2) (nodeId : String) :
    -- one machine from any baseline through a config release and an account release
    (∀ (row : Option AppliedRow) (applied : List NodeAppliedState) (revision : ℕ)
        (warnings : List PlanDiagnostic), Recorded applied nodeId row →
      ∃ plan, planDesiredDeployment host revision desired applied warnings = some plan
        ∧ ∀ target ∈ (narrowToKind plan .config).targets, target.nodeId = nodeId →
          JudgedSoundly target
          ∧ ∀ deploymentId applied', Recorded applied' nodeId
              (some (settledRow deploymentId .config target row)) →
            ∃ plan', planDesiredDeployment host revision desired applied' warnings = some plan'
              ∧ (∀ left ∈ (narrowToKind plan' .config).targets, left.nodeId = nodeId →
                left.actions = [])
              ∧ ∀ grants ∈ (narrowToKind plan' .grants).targets, grants.nodeId = nodeId →
                JudgedSoundly grants
                ∧ ∀ deploymentId' applied'', Recorded applied'' nodeId (some (settledRow
                    deploymentId' .grants grants
                    (some (settledRow deploymentId .config target row)))) →
                  ∃ plan'', planDesiredDeployment host revision desired applied'' warnings
                      = some plan''
                    ∧ ∀ left ∈ plan''.targets, left.nodeId = nodeId → left.actions = [])
    -- a retired machine
    ∧ ∀ (checks : Checks) (doc : ModelSnapshot) (applied : List NodeAppliedState),
      (compile checks doc).ensurePublishable = true → nodeId ∈ retiredNodes doc →
      ∃ plan, planDeployment checks projections host doc applied = .ok (some plan)
        ∧ ((∃ target ∈ plan.targets, target.nodeId = nodeId) ↔ ¬ ObservedGone applied nodeId) := by
  have hmanaged : ∀ entry ∈ desired, Managed entry.2 := fun entry he => (hproduced entry he).managed
  refine ⟨fun row applied revision warnings hrow => ?_,
    fun checks doc applied hpublishable hretired => retired_target_iff hpublishable hretired⟩
  obtain ⟨running, hknown⟩ := hrow
  obtain ⟨plan, hplan, hof⟩ := planDesiredDeployment_spec host applied revision warnings hmanaged
  refine ⟨plan, hplan, fun target htarget hname => ?_⟩
  obtain ⟨before, hbefore, hbeforeName, -, hdelivered⟩ := mem_narrowConfig htarget
  obtain ⟨entry, hentry, actions, wave, -, hfrom⟩ := hof.sound before hbefore
  have hasked : (nodeId, entry.2) ∈ desired := by
    have hid : entry.1 = nodeId := by rw [← hname, hbeforeName, hfrom]; rfl
    rw [← hid]
    exact hentry
  have h : Managed entry.2 := hmanaged _ hentry
  have hplanned := hof.target hnames hasked hbefore (hbeforeName ▸ hname)
  rw [hknown] at hplanned
  have hdelivers : Delivers entry.2 (row.map (·.state nodeId running)) target.desired :=
    hdelivered ▸ delivers_narrowConfig h hplanned
  refine ⟨fun report => ⟨Honest.succeeds, rejected_iff fun _ => hdelivers.wellTagged h⟩,
    fun deploymentId applied' hrow' => ?_⟩
  obtain ⟨running', hknown'⟩ := hrow'
  have hstill := fun artifact => not_moves_after nodeId h rfl hdelivers deploymentId running'
    artifact
  obtain ⟨plan', hplan', hof'⟩ := planDesiredDeployment_spec host applied' revision warnings
    hmanaged
  refine ⟨plan', hplan', fun left hleft hleftName => ?_, fun grants hgrants hgrantsName => ?_⟩
  · obtain ⟨origin, horigin, horiginName, hactions, -⟩ := mem_narrowConfig hleft
    have hagain := hof'.target hnames hasked horigin (horiginName ▸ hleftName)
    rw [hknown'] at hagain
    rw [hactions]
    exact no_actions_after h hagain hstill
  · obtain ⟨origin, horigin, -, rfl⟩ := mem_narrowGrants hgrants
    have hagain := hof'.target hnames hasked horigin hgrantsName
    have hgranted : (narrowGrantsDesired origin).desired.grants = entry.2.grants := by
      rw [← hagain.asked]
      rfl
    refine ⟨fun report => ⟨Honest.succeeds, rejected_iff fun inbounds hinbounds => ?_⟩,
      fun deploymentId' applied'' hrow'' => ?_⟩
    · rw [hgranted] at hinbounds
      rcases h.grants with ⟨_, _, _, -, hpresent, htagged⟩ | ⟨_, _, -, hdisabled⟩
      · rw [hpresent, DesiredGrants.present.injEq] at hinbounds
        exact hinbounds ▸ htagged
      · rw [hdisabled] at hinbounds
        cases hinbounds
    · obtain ⟨running'', hknown''⟩ := hrow''
      obtain ⟨plan'', hplan'', hof''⟩ := planDesiredDeployment_spec host applied'' revision
        warnings hmanaged
      refine ⟨plan'', hplan'', fun left hleft hleftName => ?_⟩
      have hlast := (hof''.target hnames hasked hleft hleftName).actions
      rw [hknown''] at hlast
      exact no_actions_after_grants h hagain.asked hstill deploymentId' hlast

/-! ### A machine with one entrance -/

/-- Checks that find nothing. -/
def plainChecks : Checks where
  reverseHealth _ := none
  realityClient _ := []
  selectorText _ := ""
  isRealityPublicKey _ := true
  vlessEncryptionOptions _ := none
  xhttp _ _ := []
  hysteria2 _ _ := []
  anytls _ _ := []
  reality _ _ _ _ := []
  externalOutbound _ := []
  externalFront _ _ := []
  frontRoutes _ _ _ := []
  subscriptionNames _ _ _ := []

/-- Projections that are plain texts. -/
def plainProjections : Projections where
  wireguard _ _ := none
  phantun _ _ := none
  xray _ _ node := "xray of " ++ node.id
  hy2PortHops _ _ := none
  probeUuid key name := key ++ "/" ++ name

def plainHost : Host := ⟨fun text => "sha of " ++ text, fun _ => none, fun _ => ""⟩

/-- One machine with one project. -/
def plainDoc : ModelSnapshot :=
  plainSnapshot [plainNode "hk" "198.51.100.1"]
    [plainApp "web" [⟨"main", "acme", "main", none⟩] [plainIngress "front" "main" "hk"] []]

def plainAsked : NodeDesiredState :=
  desiredState plainHost (nodePlan plainProjections (compile plainChecks plainDoc) "hk")

theorem plainAsked_produced : Produced plainHost plainProjections plainAsked :=
  ⟨plainChecks, plainDoc, "hk", by decide +kernel, rfl⟩

theorem release_settles_plain :
    ∃ plan, planDesiredDeployment plainHost 1 [("hk", plainAsked)] [] [] = some plan
      ∧ ∀ target ∈ (narrowToKind plan .config).targets, target.nodeId = "hk" →
        JudgedSoundly target := by
  have hproduced : ∀ entry ∈ [("hk", plainAsked)], Produced plainHost plainProjections entry.2 := by
    simpa using plainAsked_produced
  obtain ⟨plan, hplan, h⟩ :=
    (release_settles_iff (by decide) hproduced "hk").1 none [] 1 [] ⟨none, rfl⟩
  exact ⟨plan, hplan, fun target htarget hname => (h target htarget hname).1⟩

/-- The first release of the machine: everything is sent. -/
def plainTarget : PlannedTarget where
  nodeId := "hk"
  status := .pending
  wave := 1
  disruptive := true
  prerequisites := []
  actions := [.applyXray, .syncGrants, .disablePhantun, .disableHy2PortHop, .disableWireGuard]
  desired := plainAsked

/-- The machine lists its entrance twice, the first time with an account nobody delivered. -/
def repeatedReport : TargetConvergenceReport :=
  let delivered := (echo plainAsked).grants
  let eve : ObservedInbound := ⟨"in:web/front", [⟨"eve@acme#front", "eve", none⟩]⟩
  let after : ReportedNodeState := { echo plainAsked with
    grants := match delivered with
      | .present inbounds => .present (eve :: inbounds)
      | other => other }
  { deploymentId := 1
    nodeId := "hk"
    claimGeneration := 0
    result := .applied
    observedBefore := after
    observedAfter := after
    error := none
    usageActivatedAtUnixSecs := none }

/-- The inbounds of the grants sent to a machine. -/
def inboundsSent : DesiredGrants → List GrantInbound
  | .present inbounds => inbounds
  | _ => []

theorem repeated_tag_succeeds : (planDesiredDeployment plainHost 1 [("hk", plainAsked)] [] []).map
        (fun plan => (narrowToKind plan .config).targets) = some [plainTarget]
      ∧ Differs plainTarget.desired repeatedReport.observedAfter
      ∧ judged repeatedReport plainTarget = .ok .succeeded := by
  refine ⟨by decide +kernel, .inr ?_, targetStatusFromReport_succeeded.mpr ⟨rfl, ?_, ?_⟩⟩
  · obtain ⟨inbounds, hasked, hnone⟩ : ∃ inbounds, plainAsked.grants = .present inbounds
        ∧ ¬ ∃ inbound ∈ inbounds, inbound.tag = "in:web/front"
          ∧ ("eve@acme#front", "eve", none) ∈ inbound.clients.map (·.account) := by
      refine ⟨inboundsSent plainAsked.grants, ?_, ?_⟩ <;> decide +kernel
    have hreported : repeatedReport.observedAfter.grants = .present
        (⟨"in:web/front", [⟨"eve@acme#front", "eve", none⟩]⟩ :: inbounds.map observed) := by
      simp only [repeatedReport, echo, hasked, echoGrants]
    show GrantsDiffer plainAsked.grants _
    rw [hasked, hreported]
    intro hsame
    exact hnone ((hsame.2 _ _).mpr ⟨_, List.mem_cons_self, rfl, by decide⟩)
  · intro artifact
    cases artifact <;> rfl
  · decide +kernel

end Brocade.Release
