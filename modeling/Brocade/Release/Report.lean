/-
What a machine's report does: it is judged against what was delivered, and recorded.

What was delivered is kept as metadata, a digest or a reason for each artifact; the judgement
reads that metadata back.  The record keeps what it has of anything the release left alone,
because an artifact that was not asked about is reported unmanaged whatever runs there.
-/
import Brocade.Release.Actions
import Brocade.Lib.Fallible

namespace Brocade.Release

/-- How an application ended. -/
inductive TargetApplyResult where
  | applied
  | failedRecovered
  | failedDirty

/-- What a machine reports of itself. -/
structure ReportedNodeState where
  (phantun wireguard xray hy2PortHop : AppliedArtifactState)
  grants : AppliedGrantsState

/-- The state of a file. -/
def ReportedNodeState.artifact (state : ReportedNodeState) : ConfigArtifact → AppliedArtifactState
  | .phantun => state.phantun
  | .hy2PortHop => state.hy2PortHop
  | .wireGuard => state.wireguard
  | .xray => state.xray

/-- An agent's report of a deployment. -/
structure TargetConvergenceReport where
  deploymentId : ℤ
  nodeId : String
  claimGeneration : ℕ
  result : TargetApplyResult
  (observedBefore observedAfter : ReportedNodeState)
  error : Option String
  usageActivatedAtUnixSecs : Option ℤ

/-- How a reported target ends. -/
inductive ReportedStatus where
  | succeeded
  | failedRecovered
  | failedDirty

/-! ### What was delivered -/

/-- The name of an action. -/
def PlannedAction.text : PlannedAction → String
  | .applyPhantun => "apply-phantun"
  | .applyHy2PortHop => "apply-hy2-port-hop"
  | .applyWireGuard => "apply-wire-guard"
  | .applyXray => "apply-xray"
  | .syncVpngate => "sync-vpngate"
  | .syncGrants => "sync-grants"
  | .disablePhantun => "disable-phantun"
  | .disableHy2PortHop => "disable-hy2-port-hop"
  | .disableWireGuard => "disable-wire-guard"
  | .disableXray => "disable-xray"

/-- What is stored of a file. -/
def artifactMetadata : DesiredArtifact → Json.Value
  | .present content sha256 => .ofFields [("state", .str "present"), ("sha256", .str sha256),
      ("byte_len", .num (.posInt content.utf8ByteSize))]
  | .disabled reason => .ofFields [("state", .str "disabled"), ("reason", .str reason)]
  | .unmanaged reason => .ofFields [("state", .str "unmanaged"), ("reason", .str reason)]

/-- What is stored of a target. -/
def desiredStructureJson (target : PlannedTarget) : Json.Value :=
  .ofFields (("actions", .arr (target.actions.map fun action => .str action.text))
    :: ConfigArtifact.ALL.map fun artifact =>
      (artifact.field, artifactMetadata (target.desired.artifact artifact)))

/-- A field of what is stored. -/
def desiredStructureField (value : Json.Value) (field : String) : Except String Json.Value :=
  match value.get? field with
  | some metadata => .ok metadata
  | none => .error s!"desired_structure.{field} is missing"

/-! ### Judging -/

/-- The file is as it was asked for. -/
def artifactStateMatchesMetadata (observed : AppliedArtifactState) (metadata : Json.Value) :
    Except String Bool :=
  match (metadata.get? "state").bind (·.asStr?) with
  | none => .error "artifact metadata state is missing"
  | some "present" =>
    match (metadata.get? "sha256").bind (·.asStr?) with
    | none => .error "present artifact metadata sha256 is missing"
    | some expected => .ok (decide (observed = .present expected))
  | some "disabled" => .ok (decide (observed = .disabled))
  | some "unmanaged" => .ok (decide (observed = .unmanaged))
  | some value => .error s!"unknown artifact metadata state {value}"

/-- Every artifact in turn, up to the first that differs. -/
def artifactsMatch (observed : ReportedNodeState) (desiredStructure : Json.Value) :
    List ConfigArtifact → Except String Bool
  | [] => .ok true
  | artifact :: artifacts => do
      let metadata ← desiredStructureField desiredStructure artifact.field
      if ← artifactStateMatchesMetadata (observed.artifact artifact) metadata then
        artifactsMatch observed desiredStructure artifacts
      else return false

/-- The machine is as it was asked to be. -/
def reportedStateMatchesDesired (observed : ReportedNodeState) (desiredStructure : Json.Value)
    (desiredGrants : DesiredGrants) : Except String Bool := do
  if ← artifactsMatch observed desiredStructure ConfigArtifact.ALL then
    return grantsMatch desiredGrants observed.grants
  else return false

/-- What a report comes to. -/
def targetStatusFromReport (report : TargetConvergenceReport) (desiredStructure : Json.Value)
    (desiredGrants : DesiredGrants) : Except String ReportedStatus :=
  match report.result with
  | .applied => do
      if ← reportedStateMatchesDesired report.observedAfter desiredStructure desiredGrants then
        return .succeeded
      else return .failedDirty
  | .failedRecovered => .ok .failedRecovered
  | .failedDirty => .ok .failedDirty

/-! ### Recording -/

/-- A machine's row of what it is known to hold. -/
structure AppliedRow where
  (phantun wireguard xray hy2PortHop : AppliedArtifactState)
  grants : AppliedGrantsState
  sourceDeploymentId : Option ℤ

/-- The row's state of a file. -/
def AppliedRow.artifact (row : AppliedRow) : ConfigArtifact → AppliedArtifactState
  | .phantun => row.phantun
  | .hy2PortHop => row.hy2PortHop
  | .wireGuard => row.wireguard
  | .xray => row.xray

/-- A row as the planner sees it, with the config that is proven to run. -/
def AppliedRow.state (row : AppliedRow) (nodeId : String) (runningXray : Option String) :
    NodeAppliedState where
  nodeId := nodeId
  phantun := row.phantun
  hy2PortHop := row.hy2PortHop
  wireguard := row.wireguard
  xray := row.xray
  grants := row.grants
  runningXray := runningXray

@[simp] theorem AppliedRow.artifact_state (row : AppliedRow) (nodeId : String)
    (runningXray : Option String) (artifact : ConfigArtifact) :
    (row.state nodeId runningXray).artifact artifact = row.artifact artifact := by
  cases artifact <;> rfl

/-- What is reported, unless nothing was asked about it. -/
def touchedArtifact (reported old : AppliedArtifactState) : AppliedArtifactState :=
  if reported = .unmanaged then old else reported

def touchedGrants (reported old : AppliedGrantsState) : AppliedGrantsState :=
  if reported = .unmanaged then old else reported

/-- The row after a report: the whole report where there was none, and where there was one
only what the release asked about. -/
def upsertNodeAppliedState (deploymentId : ℤ) (state : ReportedNodeState) (kind : DeploymentKind)
    (row : Option AppliedRow) : AppliedRow :=
  match row with
  | none => {
      phantun := state.phantun
      wireguard := state.wireguard
      xray := state.xray
      hy2PortHop := state.hy2PortHop
      grants := state.grants
      sourceDeploymentId := some deploymentId }
  | some row => {
      phantun := touchedArtifact state.phantun row.phantun
      wireguard := touchedArtifact state.wireguard row.wireguard
      xray := touchedArtifact state.xray row.xray
      hy2PortHop := touchedArtifact state.hy2PortHop row.hy2PortHop
      grants := touchedGrants state.grants row.grants
      sourceDeploymentId :=
        if kind = .config then some deploymentId else row.sourceDeploymentId }

/-! ### What the metadata says -/

/-- An artifact reported as it was delivered. -/
def echoArtifact : DesiredArtifact → AppliedArtifactState
  | .present _ sha256 => .present sha256
  | .disabled _ => .disabled
  | .unmanaged _ => .unmanaged

/-- **Metadata is matched by the echo of what was delivered and by nothing else.** -/
theorem artifactStateMatchesMetadata_eq (observed : AppliedArtifactState)
    (desired : DesiredArtifact) : artifactStateMatchesMetadata observed (artifactMetadata desired)
      = .ok (decide (observed = echoArtifact desired)) := by
  cases desired with
  | present content sha256 =>
    simp [artifactStateMatchesMetadata, artifactMetadata, Json.Value.get?_ofFields,
      OrdMap.lastOf, echoArtifact, Json.Value.asStr?]
    rfl
  | disabled reason =>
    simp [artifactStateMatchesMetadata, artifactMetadata, Json.Value.get?_ofFields,
      OrdMap.lastOf, echoArtifact, Json.Value.asStr?]
    rfl
  | unmanaged reason =>
    simp [artifactStateMatchesMetadata, artifactMetadata, Json.Value.get?_ofFields,
      OrdMap.lastOf, echoArtifact, Json.Value.asStr?]
    rfl

theorem desiredStructureField_eq (target : PlannedTarget) (artifact : ConfigArtifact) :
    desiredStructureField (desiredStructureJson target) artifact.field
      = .ok (artifactMetadata (target.desired.artifact artifact)) := by
  have hget : (desiredStructureJson target).get? artifact.field
      = some (artifactMetadata (target.desired.artifact artifact)) := by
    rw [desiredStructureJson, Json.Value.get?_ofFields]
    refine OrdMap.lastOf_of_mem ?_ ?_
    · simp only [List.map_cons, List.map_map, Function.comp_def]
      decide
    · exact List.mem_cons_of_mem _ (List.mem_map.mpr ⟨artifact, artifact.mem_ALL, rfl⟩)
  rw [desiredStructureField, hget]

/-- The artifacts are walked to the first that is not the echo of what was delivered. -/
theorem artifactsMatch_eq (observed : ReportedNodeState) (target : PlannedTarget)
    (artifacts : List ConfigArtifact) :
    artifactsMatch observed (desiredStructureJson target) artifacts
      = .ok (artifacts.all fun artifact =>
        decide (observed.artifact artifact = echoArtifact (target.desired.artifact artifact))) := by
  induction artifacts with
  | nil => rfl
  | cons artifact artifacts ih =>
    rw [artifactsMatch, desiredStructureField_eq]
    show (do
      if ← artifactStateMatchesMetadata (observed.artifact artifact)
          (artifactMetadata (target.desired.artifact artifact)) then
        artifactsMatch observed (desiredStructureJson target) artifacts
      else return false) = _
    rw [artifactStateMatchesMetadata_eq, List.all_cons]
    show (if decide _ = true then _ else pure false) = _
    by_cases h : observed.artifact artifact = echoArtifact (target.desired.artifact artifact)
    · simp only [h, decide_true, if_true, Bool.true_and]
      exact ih
    · simp only [h, decide_false, Bool.false_eq_true, if_false, Bool.false_and]
      rfl

theorem reportedStateMatchesDesired_eq (observed : ReportedNodeState) (target : PlannedTarget)
    (desiredGrants : DesiredGrants) :
    reportedStateMatchesDesired observed (desiredStructureJson target) desiredGrants
      = .ok (decide (∀ artifact ∈ ConfigArtifact.ALL,
          observed.artifact artifact = echoArtifact (target.desired.artifact artifact))
        && grantsMatch desiredGrants observed.grants) := by
  rw [reportedStateMatchesDesired, artifactsMatch_eq]
  show (if _ = true then _ else pure false) = _
  by_cases h : ∀ artifact ∈ ConfigArtifact.ALL,
      observed.artifact artifact = echoArtifact (target.desired.artifact artifact)
  · have hall : (ConfigArtifact.ALL.all fun artifact => decide (observed.artifact artifact
        = echoArtifact (target.desired.artifact artifact))) = true := by
      simpa [List.all_eq_true] using h
    rw [if_pos hall, decide_eq_true h, Bool.true_and]
    rfl
  · have hall : ¬ (ConfigArtifact.ALL.all fun artifact => decide (observed.artifact artifact
        = echoArtifact (target.desired.artifact artifact))) = true := by
      simpa [List.all_eq_true] using h
    rw [if_neg hall, decide_eq_false h, Bool.false_and]
    rfl

/-- **A report is judged succeeded exactly if it is of an applied release, echoes every
artifact, and its accounts match.** -/
theorem targetStatusFromReport_succeeded {report : TargetConvergenceReport}
    {target : PlannedTarget} {desiredGrants : DesiredGrants} :
    targetStatusFromReport report (desiredStructureJson target) desiredGrants = .ok .succeeded
      ↔ report.result = .applied ∧ (∀ artifact, report.observedAfter.artifact artifact
          = echoArtifact (target.desired.artifact artifact))
        ∧ grantsMatch desiredGrants report.observedAfter.grants = true := by
  unfold targetStatusFromReport
  cases hresult : report.result with
  | applied =>
    rw [reportedStateMatchesDesired_eq]
    show (if _ = true then pure ReportedStatus.succeeded else pure ReportedStatus.failedDirty)
      = Except.ok ReportedStatus.succeeded ↔ _
    split
    · rename_i h
      exact ⟨fun _ => ⟨rfl, by simpa using h⟩, fun _ => rfl⟩
    · rename_i h
      refine ⟨fun hstatus => (by cases hstatus), fun hall => absurd ?_ h⟩
      simpa using hall.2
  | failedRecovered => simp
  | failedDirty => simp

end Brocade.Release
