/-
Which actions a machine's release takes.

An action is owed where what is asked for differs from what the machine is known to hold.
Ignorance is a difference: a machine without a record, or with an unknown or dirty artifact,
is sent what it should have.  `Unmanaged` is the one thing that owes nothing, on either side.

What is asked of a machine is never unmanaged before a release is narrowed, so choosing an
action never meets the branch the source holds unreachable; here that branch is a `none`,
and `plannedActions_spec` says it is not met.
-/
import Brocade.Hotswap.Plan
import Brocade.Release.Desired

namespace Brocade.Release

open PlannedAction

/-! ### Artifacts -/

/-- The file has to change. -/
def artifactNeedsAction (desired : DesiredArtifact) (applied : Option AppliedArtifactState) : Bool :=
  match desired with
  | .unmanaged _ => false
  | .present _ sha256 =>
    match applied with
    | some (.present appliedSha) => appliedSha ≠ sha256
    | some .unmanaged => false
    | some .disabled | some .unknown | none => true
    | some (.dirty _) => true
  | .disabled _ =>
    match applied with
    | some .disabled | some .unmanaged => false
    | some (.present _) | some .unknown | some (.dirty _) | none => true

namespace ConfigArtifact

/-- What puts a file there. -/
def applyAction : ConfigArtifact → PlannedAction
  | .phantun => .applyPhantun
  | .hy2PortHop => .applyHy2PortHop
  | .wireGuard => .applyWireGuard
  | .xray => .applyXray

/-- What takes it away. -/
def disableAction : ConfigArtifact → PlannedAction
  | .phantun => .disablePhantun
  | .hy2PortHop => .disableHy2PortHop
  | .wireGuard => .disableWireGuard
  | .xray => .disableXray

@[simp] theorem artifact_applyAction (artifact : ConfigArtifact) :
    artifact.applyAction.artifact = some artifact := by
  cases artifact <;> rfl

@[simp] theorem artifact_disableAction (artifact : ConfigArtifact) :
    artifact.disableAction.artifact = some artifact := by
  cases artifact <;> rfl

/-- The action that brings an artifact to what is asked for, if anything is. -/
def move (artifact : ConfigArtifact) : DesiredArtifact → Option PlannedAction
  | .present _ _ => some artifact.applyAction
  | .disabled _ => some artifact.disableAction
  | .unmanaged _ => none

theorem move_artifact {artifact : ConfigArtifact} {desired : DesiredArtifact}
    {action : PlannedAction} (h : artifact.move desired = some action) :
    action.artifact = some artifact := by
  cases desired with
  | present content sha256 => exact Option.some.inj h ▸ artifact.artifact_applyAction
  | disabled reason => exact Option.some.inj h ▸ artifact.artifact_disableAction
  | unmanaged reason => cases h

theorem move_isSome (artifact : ConfigArtifact) {desired : DesiredArtifact}
    (h : ∀ reason, desired ≠ .unmanaged reason) : ∃ action, artifact.move desired = some action := by
  cases desired with
  | present content sha256 => exact ⟨_, rfl⟩
  | disabled reason => exact ⟨_, rfl⟩
  | unmanaged reason => exact absurd rfl (h reason)

end ConfigArtifact

/-! ### Account lists -/

/-- What of an account is compared. -/
abbrev AccountKey := String × String × Option String

def GrantClient.account (client : GrantClient) : AccountKey :=
  (client.email, client.uuid, client.flow)

def ObservedClient.account (client : ObservedClient) : AccountKey :=
  (client.email, client.uuid, client.flow)

/-- The accounts under each tag; of two lists for one tag the later one counts. -/
abbrev GrantKeys := OrdMap String (Finset AccountKey)

/-- The accounts by listener. -/
def desiredGrantKeys (inbounds : List GrantInbound) : GrantKeys :=
  .ofList (inbounds.map fun inbound =>
    (inbound.tag, (inbound.clients.map (·.account)).toFinset))

def observedGrantKeys (inbounds : List ObservedInbound) : GrantKeys :=
  .ofList (inbounds.map fun inbound =>
    (inbound.tag, (inbound.clients.map (·.account)).toFinset))

/-- Whether desired and observed are the same accounts under every tag. -/
def grantsMatch (desired : DesiredGrants) (observed : AppliedGrantsState) : Bool :=
  match desired with
  | .present inbounds =>
    match observed with
    | .present observedInbounds => desiredGrantKeys inbounds = observedGrantKeys observedInbounds
    | _ => false
  | .disabled _ => observed = .disabled
  | .unmanaged _ => observed = .unmanaged

/-- The accounts have to change. -/
def grantsNeedAction (desired : DesiredGrants) (applied : Option AppliedGrantsState) : Bool :=
  match desired with
  | .unmanaged _ | .disabled _ => false
  | .present _ =>
    match applied with
    | some (.present inbounds) => !grantsMatch desired (.present inbounds)
    | some .unmanaged => true
    | some .disabled | some .unknown | none => true
    | some (.dirty _) => true

/-- Every account with its flow, named by tag, label and credential. -/
def observedFlows (inbounds : List ObservedInbound) :
    List ((String × String × String) × Option String) :=
  inbounds.flatMap fun inbound => inbound.clients.map fun client =>
    ((inbound.tag, client.email, client.uuid), client.flow)

/-- An account on both sides has another flow now. -/
def grantsFlowChanged (desired : DesiredGrants) (applied : Option AppliedGrantsState) : Bool :=
  match desired, applied with
  | .present desiredInbounds, some (.present appliedInbounds) =>
    desiredInbounds.any fun inbound => inbound.clients.any fun client =>
      (OrdMap.lastOf (inbound.tag, client.email, client.uuid)
        (observedFlows appliedInbounds)).any fun flow => flow ≠ client.flow
  | _, _ => false

/-! ### Choosing -/

/-- What is owed of one artifact. -/
def needsMove (desired : NodeDesiredState) (applied : Option NodeAppliedState)
    (artifact : ConfigArtifact) : Bool :=
  artifactNeedsAction (desired.artifact artifact) (applied.map (·.artifact artifact))

/-- The action for an artifact if one is owed; `none` is the branch held unreachable. -/
def pushMove (artifact : ConfigArtifact) (desired : NodeDesiredState) (needed : Bool) :
    Option (List PlannedAction) :=
  if needed then (artifact.move (desired.artifact artifact)).map fun action => [action] else some []

/-- What a machine is to do. -/
def plannedActions (desired : NodeDesiredState) (applied : Option NodeAppliedState) :
    Option (List PlannedAction) := do
  let flowChanged := grantsFlowChanged desired.grants (applied.map (·.grants))
  let phantun ← pushMove .phantun desired (needsMove desired applied .phantun)
  let wireguard ← pushMove .wireGuard desired (needsMove desired applied .wireGuard)
  let xray ← pushMove .xray desired (needsMove desired applied .xray || flowChanged)
  let hy2PortHop ← pushMove .hy2PortHop desired (needsMove desired applied .hy2PortHop)
  let grants := if grantsNeedAction desired.grants (applied.map (·.grants)) then [.syncGrants] else []
  return sortActions (phantun ++ wireguard ++ xray ++ hy2PortHop ++ grants)

/-- Everything asked for, whatever the machine is known to hold. -/
def forcedActions (desired : NodeDesiredState) : List PlannedAction :=
  let grants := match desired.grants with
    | .present _ => [.syncGrants]
    | _ => []
  sortActions (((ConfigArtifact.phantun.move desired.phantun).toList
    ++ (ConfigArtifact.wireGuard.move desired.wireguard).toList
    ++ (ConfigArtifact.xray.move desired.xray).toList
    ++ (ConfigArtifact.hy2PortHop.move desired.hy2PortHop).toList) ++ grants)

/-- Nothing is left of a machine. -/
def retirementArtifactsDisabled (applied : NodeAppliedState) : Bool :=
  [applied.phantun, applied.hy2PortHop, applied.wireguard, applied.xray].all (· = .disabled)

/-- What a retired machine is to do. -/
def retirementActions (desired : NodeDesiredState) (applied : Option NodeAppliedState) :
    List PlannedAction :=
  if applied.any retirementArtifactsDisabled then [] else forcedActions desired

/-! ### What an action costs -/

def wasOursAndRunning : Option AppliedArtifactState → Bool
  | some (.present _) | some (.dirty _) => true
  | _ => false

/-- A running process can be told of the change from one text to another.  A comparison that
does not come to an end counts as one that refuses. -/
def hotSwapText (host : Host) (running content : String) : Bool :=
  match host.parse running, host.parse content with
  | some before, some after =>
    match Hotswap.hotSwap before after with
    | .done _ => true
    | .refused | .panicked => false
  | _, _ => false

/-- Xray takes the change as it runs. -/
def canApplyWithoutRestart (host : Host) (applied : Option NodeAppliedState)
    (desired : NodeDesiredState) : Bool :=
  match applied with
  | none => false
  | some applied =>
    match applied.runningXray, applied.xray, desired.xray with
    | some running, .present sha256, .present content _ =>
      host.sha256Hex running = sha256 && hotSwapText host running content
    | _, _, _ => false

/-- Connections are lost. -/
def isDisruptive (host : Host) (action : PlannedAction) (applied : Option NodeAppliedState)
    (desired : NodeDesiredState) : Bool :=
  match action with
  | .applyXray => grantsFlowChanged desired.grants (applied.map (·.grants))
      || !canApplyWithoutRestart host applied desired
  | .disableXray => wasOursAndRunning (applied.map (·.xray))
  | .disableWireGuard => wasOursAndRunning (applied.map (·.wireguard))
  | .applyPhantun | .disablePhantun => wasOursAndRunning (applied.map (·.phantun))
  | .applyHy2PortHop | .disableHy2PortHop => wasOursAndRunning (applied.map (·.hy2PortHop))
  | .applyWireGuard | .syncVpngate | .syncGrants => false

/-! ### What is chosen -/

theorem pushMove_spec {artifact : ConfigArtifact} {desired : NodeDesiredState}
    (h : ∀ reason, desired.artifact artifact ≠ .unmanaged reason) (needed : Bool) :
    ∃ actions, pushMove artifact desired needed = some actions
      ∧ ∀ action, action ∈ actions ↔ needed = true
        ∧ artifact.move (desired.artifact artifact) = some action := by
  obtain ⟨action, haction⟩ := ConfigArtifact.move_isSome artifact h
  cases needed with
  | false => exact ⟨[], rfl, by simp⟩
  | true => exact ⟨[action], by simp [pushMove, haction], by simp [haction, eq_comm]⟩

/-- An artifact that is moved: owed on its own, or the xray whose accounts change flow. -/
def moves (desired : NodeDesiredState) (applied : Option NodeAppliedState)
    (artifact : ConfigArtifact) : Bool :=
  needsMove desired applied artifact
    || (artifact = .xray && grantsFlowChanged desired.grants (applied.map (·.grants)))

/-- **An action is taken for each artifact that moves, and one for the accounts.** -/
theorem plannedActions_spec {desired : NodeDesiredState} (h : Managed desired)
    (applied : Option NodeAppliedState) :
    ∃ actions, plannedActions desired applied = some actions ∧ ∀ action, action ∈ actions ↔
        (∃ artifact, moves desired applied artifact = true
          ∧ artifact.move (desired.artifact artifact) = some action)
        ∨ (action = .syncGrants
          ∧ grantsNeedAction desired.grants (applied.map (·.grants)) = true) := by
  obtain ⟨phantun, hphantun, hp⟩ := pushMove_spec (h.artifact .phantun)
    (needsMove desired applied .phantun)
  obtain ⟨wireguard, hwireguard, hw⟩ := pushMove_spec (h.artifact .wireGuard)
    (needsMove desired applied .wireGuard)
  obtain ⟨xray, hxray, hx⟩ := pushMove_spec (h.artifact .xray)
    (needsMove desired applied .xray || grantsFlowChanged desired.grants (applied.map (·.grants)))
  obtain ⟨hop, hhop, hh⟩ := pushMove_spec (h.artifact .hy2PortHop)
    (needsMove desired applied .hy2PortHop)
  refine ⟨_, by rw [plannedActions, hphantun, hwireguard, hxray, hhop]; rfl, fun action => ?_⟩
  have hgrants : ∀ needed : Bool, action ∈ (if needed then [PlannedAction.syncGrants] else [])
      ↔ action = .syncGrants ∧ needed = true := by
    intro needed
    cases needed <;> simp
  rw [mem_sortActions, List.mem_append, List.mem_append, List.mem_append, List.mem_append, hp, hw,
    hx, hh, hgrants]
  constructor
  · rintro ((((⟨hneed, hmove⟩ | ⟨hneed, hmove⟩) | ⟨hneed, hmove⟩) | ⟨hneed, hmove⟩) | hsync)
    · exact .inl ⟨.phantun, by simp [moves, hneed], hmove⟩
    · exact .inl ⟨.wireGuard, by simp [moves, hneed], hmove⟩
    · exact .inl ⟨.xray, by simpa [moves] using hneed, hmove⟩
    · exact .inl ⟨.hy2PortHop, by simp [moves, hneed], hmove⟩
    · exact .inr hsync
  · rintro (⟨artifact, hneed, hmove⟩ | hsync)
    · cases artifact with
      | phantun => exact .inl (.inl (.inl (.inl ⟨by simpa [moves] using hneed, hmove⟩)))
      | wireGuard => exact .inl (.inl (.inl (.inr ⟨by simpa [moves] using hneed, hmove⟩)))
      | xray => exact .inl (.inl (.inr ⟨by simpa [moves] using hneed, hmove⟩))
      | hy2PortHop => exact .inl (.inr ⟨by simpa [moves] using hneed, hmove⟩)
    · exact .inr hsync

theorem mem_forcedActions {desired : NodeDesiredState} {action : PlannedAction} :
    action ∈ forcedActions desired ↔
      (∃ artifact : ConfigArtifact, artifact.move (desired.artifact artifact) = some action)
      ∨ (action = .syncGrants ∧ ∃ inbounds, desired.grants = .present inbounds) := by
  rw [forcedActions, mem_sortActions, List.mem_append]
  refine or_congr ?_ ?_
  · simp only [List.mem_append, Option.mem_toList]
    constructor
    · rintro (((h | h) | h) | h)
      · exact ⟨.phantun, h⟩
      · exact ⟨.wireGuard, h⟩
      · exact ⟨.xray, h⟩
      · exact ⟨.hy2PortHop, h⟩
    · rintro ⟨artifact, h⟩
      cases artifact with
      | phantun => exact .inl (.inl (.inl h))
      | wireGuard => exact .inl (.inl (.inr h))
      | xray => exact .inl (.inr h)
      | hy2PortHop => exact .inr h
  · cases desired.grants <;> simp

end Brocade.Release
