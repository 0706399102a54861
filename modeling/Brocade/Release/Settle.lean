/-
A release that succeeds settles its plan.

The fixpoint goes through the choice of actions, narrowing, judging, recording and planning
again.  One fact about a machine carries it: an artifact is delivered exactly if it moves
(`moved_iff`), so after an honest report whatever moved is on record as it was asked for, and
whatever did not move is on record as before, where it was not owed (`not_moves_after`).
-/
import Brocade.Release.Plan
import Brocade.Release.Report

namespace Brocade.Release

/-! ### An honest machine -/

/-- A listener, as it is observed. -/
def observed (inbound : GrantInbound) : ObservedInbound where
  tag := inbound.tag
  clients := inbound.clients.map fun client => ⟨client.email, client.uuid, client.flow⟩

/-- The accounts reported as they were delivered. -/
def echoGrants : DesiredGrants → AppliedGrantsState
  | .present inbounds => .present (inbounds.map observed)
  | .disabled _ => .disabled
  | .unmanaged _ => .unmanaged

/-- Everything reported as it was delivered. -/
def echo (desired : NodeDesiredState) : ReportedNodeState where
  phantun := echoArtifact desired.phantun
  wireguard := echoArtifact desired.wireguard
  xray := echoArtifact desired.xray
  hy2PortHop := echoArtifact desired.hy2PortHop
  grants := echoGrants desired.grants

@[simp] theorem artifact_echo (desired : NodeDesiredState) (artifact : ConfigArtifact) :
    (echo desired).artifact artifact = echoArtifact (desired.artifact artifact) := by
  cases artifact <;> rfl

theorem grantsMatch_echo (desired : DesiredGrants) : grantsMatch desired (echoGrants desired) = true := by
  cases desired with
  | present inbounds =>
    have hkeys : desiredGrantKeys inbounds = observedGrantKeys (inbounds.map observed) := by
      simp only [desiredGrantKeys, observedGrantKeys, List.map_map, Function.comp_def, observed]
      rfl
    simp [grantsMatch, echoGrants, hkeys]
  | disabled reason => simp [grantsMatch, echoGrants]
  | unmanaged reason => simp [grantsMatch, echoGrants]

theorem not_needsAction_echo {desired : DesiredArtifact} :
    artifactNeedsAction desired (some (echoArtifact desired)) = false := by
  cases desired <;> simp [artifactNeedsAction, echoArtifact]

/-- **Accounts read back as delivered have the flow they were delivered with.**  A tag names
one listener, and a listener's accounts share their flow. -/
theorem not_flowChanged_echo {desired : NodeDesiredState} (h : Managed desired) :
    grantsFlowChanged desired.grants (some (echoGrants desired.grants)) = false := by
  rcases h.grants with ⟨_, _, inbounds, -, hgrants, htagged⟩ | ⟨_, _, -, hgrants⟩
  · rw [hgrants]
    simp only [grantsFlowChanged, echoGrants, List.any_eq_false, Bool.not_eq_true]
    intro inbound hinbound client hclient
    cases hlast : OrdMap.lastOf (inbound.tag, client.email, client.uuid)
        (observedFlows (inbounds.map observed)) with
    | none => rfl
    | some flow =>
      have hmem := OrdMap.mem_of_lastOf hlast
      simp only [observedFlows, List.flatMap_map, observed, List.mem_flatMap, List.mem_map] at hmem
      obtain ⟨other, hother, _, ⟨account, haccount, rfl⟩, heq⟩ := hmem
      simp only [Prod.mk.injEq] at heq
      obtain ⟨⟨htag, -, -⟩, rfl⟩ := heq
      have hsame : other = inbound := List.inj_on_of_nodup_map htagged.nodup hother hinbound htag
      subst hsame
      obtain ⟨fixed, hfixed⟩ := htagged.flow other hother
      simp [hfixed account haccount, hfixed client hclient]
  · rw [hgrants]
    rfl

/-! ### What is delivered -/

section Node

variable {desired : NodeDesiredState} {known : Option NodeAppliedState}
  {actions : List PlannedAction}

/-- **An artifact is moved by an action exactly if it moves.** -/
theorem moved_iff (h : Managed desired) (hactions : plannedActions desired known = some actions)
    (artifact : ConfigArtifact) :
    artifact ∈ movedArtifacts actions ↔ moves desired known artifact = true := by
  obtain ⟨actions', hactions', hmem⟩ := plannedActions_spec h known
  rw [hactions, Option.some.injEq] at hactions'
  subst hactions'
  simp only [movedArtifacts, List.mem_filterMap]
  constructor
  · rintro ⟨action, haction, hmoved⟩
    rcases (hmem action).mp haction with ⟨other, hmoves, hmove⟩ | ⟨rfl, -⟩
    · rw [ConfigArtifact.move_artifact hmove, Option.some.injEq] at hmoved
      exact hmoved ▸ hmoves
    · cases hmoved
  · intro hmoves
    obtain ⟨action, hmove⟩ := ConfigArtifact.move_isSome artifact (h.artifact artifact)
    exact ⟨action, (hmem action).mpr (.inl ⟨artifact, hmoves, hmove⟩),
      ConfigArtifact.move_artifact hmove⟩

theorem managesXray_eq (actions : List PlannedAction) :
    (actions.any fun action => decide (action = .applyXray) || decide (action = .disableXray))
      = decide (ConfigArtifact.xray ∈ movedArtifacts actions) := by
  induction actions with
  | nil => rfl
  | cons action actions ih =>
    rw [List.any_cons, ih]
    cases action <;> simp [movedArtifacts, PlannedAction.artifact]

/-- A target planned for a machine with a wave of its own. -/
structure PlannedFor (host : Host) (desired : NodeDesiredState) (known : Option NodeAppliedState)
    (target : PlannedTarget) : Prop where
  asked : target.desired = desired
  actions : plannedActions desired known = some target.actions
  status : target.status = statusOf target.actions

/-- What a config release hands out: the artifacts that move, and the accounts with the xray. -/
structure Delivers (desired : NodeDesiredState) (known : Option NodeAppliedState)
    (delivered : NodeDesiredState) : Prop where
  moved : ∀ artifact, moves desired known artifact = true →
    delivered.artifact artifact = desired.artifact artifact
  kept : ∀ artifact, moves desired known artifact = false →
    ∃ reason, delivered.artifact artifact = .unmanaged reason
  grants : moves desired known .xray = true → delivered.grants = desired.grants
  noGrants : moves desired known .xray = false → ∃ reason, delivered.grants = .unmanaged reason

theorem delivers_narrowConfig {host : Host} {target : PlannedTarget} (h : Managed desired)
    (hplanned : PlannedFor host desired known target) :
    Delivers desired known (narrowConfigDesired target).desired := by
  have hmanages : target.managesXray = moves desired known .xray := by
    rw [PlannedTarget.managesXray, managesXray_eq, Bool.eq_iff_iff, decide_eq_true_iff]
    exact moved_iff h hplanned.actions .xray
  have hartifact : ∀ artifact, (narrowConfigDesired target).desired.artifact artifact
      = if artifact ∈ movedArtifacts target.actions then desired.artifact artifact
        else untouched s!"这一单不动 {artifact.field}" := by
    intro artifact
    rw [← hplanned.asked]
    cases artifact <;> rfl
  constructor
  · intro artifact hmoves
    rw [hartifact, if_pos ((moved_iff h hplanned.actions artifact).mpr hmoves)]
  · intro artifact hkept
    rw [hartifact, if_neg fun hmem => by
      rw [(moved_iff h hplanned.actions artifact).mp hmem] at hkept
      cases hkept]
    exact ⟨_, rfl⟩
  · intro hmoves
    simp [narrowConfigDesired, hmanages, hmoves, hplanned.asked]
  · intro hkept
    simp [narrowConfigDesired, hmanages, hkept]

/-! ### The record afterwards -/

variable {row : Option AppliedRow} {nodeId : String}

theorem upsert_artifact (deploymentId : ℤ) (state : ReportedNodeState) (kind : DeploymentKind)
    (row : AppliedRow) (artifact : ConfigArtifact) :
    (upsertNodeAppliedState deploymentId state kind (some row)).artifact artifact
      = touchedArtifact (state.artifact artifact) (row.artifact artifact) := by
  cases artifact <;> rfl

theorem upsert_artifact_none (deploymentId : ℤ) (state : ReportedNodeState)
    (kind : DeploymentKind) (artifact : ConfigArtifact) :
    (upsertNodeAppliedState deploymentId state kind none).artifact artifact
      = state.artifact artifact := by
  cases artifact <;> rfl

theorem echoArtifact_ne_unmanaged {asked : DesiredArtifact}
    (h : ∀ reason, asked ≠ .unmanaged reason) : echoArtifact asked ≠ .unmanaged := by
  cases asked with
  | present content sha256 => simp [echoArtifact]
  | disabled reason => simp [echoArtifact]
  | unmanaged reason => exact absurd rfl (h reason)

theorem echoGrants_ne_unmanaged (h : Managed desired) : echoGrants desired.grants ≠ .unmanaged := by
  rcases h.grants with ⟨_, _, _, -, hgrants, -⟩ | ⟨_, _, -, hgrants⟩ <;> simp [hgrants, echoGrants]

theorem moves_of_none (h : Managed desired) (artifact : ConfigArtifact) :
    moves desired none artifact = true := by
  have hneeds : needsMove desired none artifact = true := by
    unfold needsMove
    cases hasked : desired.artifact artifact with
    | present content sha256 => rfl
    | disabled reason => rfl
    | unmanaged reason => exact absurd hasked (h.artifact artifact reason)
  simp [moves, hneeds]

/-- **After an honest report of a config release nothing moves.** -/
theorem not_moves_after (nodeId : String) (h : Managed desired) {delivered : NodeDesiredState}
    {running : Option String} (hknown : known = row.map (·.state nodeId running))
    (hdelivers : Delivers desired known delivered) (deploymentId : ℤ) (running' : Option String)
    (artifact : ConfigArtifact) :
    moves desired (some ((upsertNodeAppliedState deploymentId (echo delivered) .config row).state
      nodeId running')) artifact = false := by
  have hneeds : ∀ artifact, needsMove desired
      (some ((upsertNodeAppliedState deploymentId (echo delivered) .config row).state nodeId
        running')) artifact = false := by
    intro artifact
    rw [needsMove, Option.map_some, AppliedRow.artifact_state]
    cases hmoves : moves desired known artifact with
    | true =>
      have hecho : (echo delivered).artifact artifact = echoArtifact (desired.artifact artifact) := by
        rw [artifact_echo, hdelivers.moved artifact hmoves]
      cases row with
      | none => rw [upsert_artifact_none, hecho, not_needsAction_echo]
      | some row =>
        rw [upsert_artifact, hecho, touchedArtifact,
          if_neg (echoArtifact_ne_unmanaged (h.artifact artifact)), not_needsAction_echo]
    | false =>
      cases row with
      | none =>
        rw [hknown, Option.map_none, moves_of_none h artifact] at hmoves
        cases hmoves
      | some row =>
        obtain ⟨reason, hkept⟩ := hdelivers.kept artifact hmoves
        rw [upsert_artifact, artifact_echo, hkept, touchedArtifact, echoArtifact, if_pos rfl]
        have howed : needsMove desired known artifact = false :=
          (Bool.or_eq_false_iff.mp hmoves).1
        rwa [needsMove, hknown, Option.map_some, Option.map_some, AppliedRow.artifact_state]
          at howed
  have hflow : grantsFlowChanged desired.grants (some (upsertNodeAppliedState deploymentId
      (echo delivered) .config row).grants) = false := by
    cases hmoves : moves desired known .xray with
    | true =>
      have hecho : (upsertNodeAppliedState deploymentId (echo delivered) .config row).grants
          = echoGrants desired.grants := by
        have hgrants : (echo delivered).grants = echoGrants desired.grants := by
          rw [echo, hdelivers.grants hmoves]
        cases row with
        | none => exact hgrants
        | some row =>
          show touchedGrants (echo delivered).grants row.grants = _
          rw [hgrants, touchedGrants, if_neg (echoGrants_ne_unmanaged h)]
      rw [hecho, not_flowChanged_echo h]
    | false =>
      cases row with
      | none =>
        rw [hknown, Option.map_none, moves_of_none h .xray] at hmoves
        cases hmoves
      | some row =>
        obtain ⟨reason, hnone⟩ := hdelivers.noGrants hmoves
        have hold : (upsertNodeAppliedState deploymentId (echo delivered) .config
            (some row)).grants = row.grants := by
          show touchedGrants (echoGrants delivered.grants) row.grants = _
          rw [hnone, echoGrants, touchedGrants, if_pos rfl]
        have hbefore := (Bool.or_eq_false_iff.mp hmoves).2
        rw [hold]
        simpa [hknown, AppliedRow.state] using hbefore
  rw [moves, hneeds]
  simpa [AppliedRow.state] using fun _ => hflow

theorem actions_of_not_moves (h : Managed desired)
    (hactions : plannedActions desired known = some actions)
    (hmoves : ∀ artifact, moves desired known artifact = false) :
    (∀ action ∈ actions, action = .syncGrants)
      ∧ (grantsNeedAction desired.grants (known.map (·.grants)) = false → actions = []) := by
  obtain ⟨actions', hactions', hmem⟩ := plannedActions_spec h known
  rw [hactions, Option.some.injEq] at hactions'
  subst hactions'
  have honly : ∀ action ∈ actions, action = .syncGrants
      ∧ grantsNeedAction desired.grants (known.map (·.grants)) = true := by
    intro action haction
    rcases (hmem action).mp haction with ⟨artifact, hmoves', -⟩ | hsync
    · rw [hmoves artifact] at hmoves'
      cases hmoves'
    · exact hsync
  refine ⟨fun action haction => (honly action haction).1, fun hnone => ?_⟩
  refine List.eq_nil_iff_forall_not_mem.mpr fun action haction => ?_
  rw [hnone] at honly
  cases (honly action haction).2

end Node

/-! ### Reports that differ -/

/-- The report lists the tags that were delivered, and under each the accounts that were. -/
def SameAccounts (inbounds : List GrantInbound) (reported : List ObservedInbound) : Prop :=
  (∀ tag, (∃ inbound ∈ inbounds, inbound.tag = tag) ↔ ∃ inbound ∈ reported, inbound.tag = tag)
    ∧ ∀ tag account,
      (∃ inbound ∈ inbounds, inbound.tag = tag ∧ account ∈ inbound.clients.map (·.account))
        ↔ ∃ inbound ∈ reported, inbound.tag = tag ∧ account ∈ inbound.clients.map (·.account)

/-- The accounts are not those. -/
def GrantsDiffer : DesiredGrants → AppliedGrantsState → Prop
  | .present inbounds, .present reported => ¬ SameAccounts inbounds reported
  | desired, reported => reported ≠ echoGrants desired

/-- Some artifact or account is not reported as it was delivered. -/
def Differs (delivered : NodeDesiredState) (reported : ReportedNodeState) : Prop :=
  (∃ artifact, reported.artifact artifact ≠ echoArtifact (delivered.artifact artifact))
    ∨ GrantsDiffer delivered.grants reported.grants

/-- The accounts of each listed inbound, as they are collected. -/
def reportedEntries (reported : List ObservedInbound) : List (String × Finset AccountKey) :=
  reported.map fun inbound => (inbound.tag, (inbound.clients.map (·.account)).toFinset)

/-- The accounts that were delivered. -/
def deliveredEntries (inbounds : List GrantInbound) : List (String × Finset AccountKey) :=
  inbounds.map fun inbound => (inbound.tag, (inbound.clients.map (·.account)).toFinset)

/-- An account is listed under a tag that a later entry lists without it. -/
def Stray (reported : List ObservedInbound) : Prop :=
  ∃ inbound ∈ reported, ∃ account ∈ inbound.clients.map (·.account),
    ∀ last, OrdMap.lastOf inbound.tag (reportedEntries reported) = some last → account ∉ last

/-- A report of an applied release that repeats a tag, the last entry of every tag as it was
delivered and an account more in an earlier one. -/
def Masked (delivered : NodeDesiredState) (report : TargetConvergenceReport) : Prop :=
  report.result = .applied ∧ (∀ artifact, report.observedAfter.artifact artifact
      = echoArtifact (delivered.artifact artifact))
    ∧ ∃ inbounds reported, delivered.grants = .present inbounds
      ∧ report.observedAfter.grants = .present reported
      ∧ (∀ tag, OrdMap.lastOf tag (reportedEntries reported)
        = OrdMap.lastOf tag (deliveredEntries inbounds))
      ∧ Stray reported

theorem grantsMatch_present {inbounds : List GrantInbound} {reported : List ObservedInbound} :
    grantsMatch (.present inbounds) (.present reported) = true
      ↔ ∀ tag, OrdMap.lastOf tag (reportedEntries reported)
        = OrdMap.lastOf tag (deliveredEntries inbounds) := by
  simp only [grantsMatch, decide_eq_true_iff]
  constructor
  · intro h tag
    rw [← OrdMap.get?_ofList, ← OrdMap.get?_ofList]
    exact congrArg (·.get? tag) h.symm
  · intro h
    refine OrdMap.ext_of_get? fun tag => ?_
    rw [desiredGrantKeys, observedGrantKeys, OrdMap.get?_ofList, OrdMap.get?_ofList]
    exact (h tag).symm

theorem delivered_last {inbounds : List GrantInbound} (h : WellTagged inbounds)
    {inbound : GrantInbound} (hinbound : inbound ∈ inbounds) :
    OrdMap.lastOf inbound.tag (deliveredEntries inbounds)
      = some (inbound.clients.map (·.account)).toFinset := by
  refine OrdMap.lastOf_of_mem ?_ (List.mem_map.mpr ⟨inbound, hinbound, rfl⟩)
  rw [deliveredEntries, List.map_map]
  exact h.nodup

/-- **With the last entries as delivered, the report differs by stray accounts only.** -/
theorem sameAccounts_iff {inbounds : List GrantInbound} {reported : List ObservedInbound}
    (htagged : WellTagged inbounds) (hlast : ∀ tag, OrdMap.lastOf tag (reportedEntries reported)
      = OrdMap.lastOf tag (deliveredEntries inbounds)) :
    SameAccounts inbounds reported ↔ ¬ Stray reported := by
  constructor
  · rintro hsame ⟨inbound, hinbound, account, haccount, hstray⟩
    obtain ⟨origin, horigin, htag, hlisted⟩ :=
      (hsame.2 inbound.tag account).mpr ⟨inbound, hinbound, rfl, haccount⟩
    refine hstray _ (by rw [hlast, ← htag, delivered_last htagged horigin]) ?_
    exact List.mem_toFinset.mpr hlisted
  · intro hstray
    have horigin : ∀ {tag last}, OrdMap.lastOf tag (deliveredEntries inbounds) = some last →
        ∃ inbound ∈ inbounds, inbound.tag = tag
          ∧ (inbound.clients.map (·.account)).toFinset = last := by
      intro tag last h
      obtain ⟨inbound, hinbound, heq⟩ := List.mem_map.mp (OrdMap.mem_of_lastOf h)
      exact ⟨inbound, hinbound, (Prod.mk.inj heq).1, (Prod.mk.inj heq).2⟩
    have hreported : ∀ {tag last}, OrdMap.lastOf tag (reportedEntries reported) = some last →
        ∃ inbound ∈ reported, inbound.tag = tag
          ∧ (inbound.clients.map (·.account)).toFinset = last := by
      intro tag last h
      obtain ⟨inbound, hinbound, heq⟩ := List.mem_map.mp (OrdMap.mem_of_lastOf h)
      exact ⟨inbound, hinbound, (Prod.mk.inj heq).1, (Prod.mk.inj heq).2⟩
    refine ⟨fun tag => ⟨?_, ?_⟩, fun tag account => ⟨?_, ?_⟩⟩
    · rintro ⟨inbound, hinbound, rfl⟩
      obtain ⟨other, hother, htag, -⟩ :=
        hreported ((hlast inbound.tag).trans (delivered_last htagged hinbound))
      exact ⟨other, hother, htag⟩
    · rintro ⟨inbound, hinbound, rfl⟩
      cases hfound : OrdMap.lastOf inbound.tag (reportedEntries reported) with
      | none =>
        refine absurd rfl (OrdMap.lastOf_eq_none.mp hfound
          (inbound.tag, (inbound.clients.map (·.account)).toFinset) ?_)
        exact List.mem_map.mpr ⟨inbound, hinbound, rfl⟩
      | some last =>
        obtain ⟨origin, ho, htag, -⟩ := horigin ((hlast inbound.tag).symm.trans hfound)
        exact ⟨origin, ho, htag⟩
    · rintro ⟨inbound, hinbound, rfl, hlisted⟩
      obtain ⟨other, hother, htag, haccounts⟩ :=
        hreported ((hlast inbound.tag).trans (delivered_last htagged hinbound))
      refine ⟨other, hother, htag, ?_⟩
      rw [← List.mem_toFinset, haccounts]
      exact List.mem_toFinset.mpr hlisted
    · rintro ⟨inbound, hinbound, rfl, hlisted⟩
      by_contra hnone
      refine hstray ⟨inbound, hinbound, account, hlisted, fun last hfound hmem => hnone ?_⟩
      obtain ⟨origin, ho, htag, haccounts⟩ := horigin ((hlast inbound.tag).symm.trans hfound)
      exact ⟨origin, ho, htag, List.mem_toFinset.mp (haccounts ▸ hmem)⟩

/-- How a report on a target is judged. -/
def judged (report : TargetConvergenceReport) (target : PlannedTarget) :
    Except String ReportedStatus :=
  targetStatusFromReport report (desiredStructureJson target) target.desired.grants

/-- **A report that differs is judged succeeded exactly if it is masked.** -/
theorem rejected_iff {report : TargetConvergenceReport} {target : PlannedTarget}
    (htagged : ∀ inbounds, target.desired.grants = .present inbounds → WellTagged inbounds) :
    (Differs target.desired report.observedAfter → judged report target ≠ .ok .succeeded)
      ↔ ¬ Masked target.desired report := by
  rw [judged]
  constructor
  · rintro hreject ⟨hresult, hartifacts, inbounds, reported, hgrants, hreported, hlast, hstray⟩
    refine hreject (.inr ?_) (targetStatusFromReport_succeeded.mpr ⟨hresult, hartifacts, ?_⟩)
    · rw [hgrants, hreported]
      exact fun hsame => (sameAccounts_iff (htagged _ hgrants) hlast).mp hsame hstray
    · rw [hgrants, hreported]
      exact grantsMatch_present.mpr hlast
  · intro hmasked hdiffers hstatus
    obtain ⟨hresult, hartifacts, hmatch⟩ := targetStatusFromReport_succeeded.mp hstatus
    rcases hdiffers with ⟨artifact, hartifact⟩ | hdiffers
    · exact hartifact (hartifacts artifact)
    · cases hgrants : target.desired.grants with
      | present inbounds =>
        rw [hgrants] at hmatch hdiffers
        cases hreported : report.observedAfter.grants with
        | present reported =>
          rw [hreported] at hmatch hdiffers
          have hlast := grantsMatch_present.mp hmatch
          refine hmasked ⟨hresult, hartifacts, inbounds, reported, hgrants, hreported, hlast, ?_⟩
          by_contra hstray
          exact hdiffers ((sameAccounts_iff (htagged _ hgrants) hlast).mpr hstray)
        | disabled => simp [hreported, grantsMatch] at hmatch
        | unmanaged => simp [hreported, grantsMatch] at hmatch
        | unknown => simp [hreported, grantsMatch] at hmatch
        | dirty reason => simp [hreported, grantsMatch] at hmatch
      | disabled reason =>
        rw [hgrants] at hmatch hdiffers
        have hobserved : report.observedAfter.grants = .disabled := by simpa [grantsMatch] using hmatch
        simp [hobserved, GrantsDiffer, echoGrants] at hdiffers
      | unmanaged reason =>
        rw [hgrants] at hmatch hdiffers
        have hobserved : report.observedAfter.grants = .unmanaged := by simpa [grantsMatch] using hmatch
        simp [hobserved, GrantsDiffer, echoGrants] at hdiffers

/-- A report of an applied release that echoes all of it. -/
structure Honest (report : TargetConvergenceReport) (target : PlannedTarget) : Prop where
  result : report.result = .applied
  observed : report.observedAfter = echo target.desired

theorem Honest.succeeds {report : TargetConvergenceReport} {target : PlannedTarget}
    (h : Honest report target) : judged report target = .ok .succeeded := by
  refine targetStatusFromReport_succeeded.mpr ⟨h.result, fun artifact => ?_, ?_⟩
  · rw [h.observed, artifact_echo]
  · rw [h.observed]
    exact grantsMatch_echo _

end Brocade.Release
