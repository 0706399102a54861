/-
The ledger of binary releases.

A release names the digests that were approved and the nodes they are for.  Nodes claim their
part, execute it and report; an operator cancels a release or retries a node, and a node that
leaves takes its release with it.  Each attempt of a node keeps a row of its own.

Every transaction takes the ledger's lock first, so each is one step, and an error leaves the
ledger as it was.  What a transaction reads of other tables is one of its arguments.
-/
import Brocade.Lib.OrdMap
import Brocade.Lib.Text

namespace Brocade.Binary

/-- Why a transaction is refused. -/
inductive StoreError where
  | notFound (message : String)
  | forbidden (message : String)
  | conflict (message : String)
  | invalidData (message : String)

/-- What a release replaces. -/
inductive BinaryComponent where
  | agent
  | xray
deriving DecidableEq

/-- How a new xray takes over. -/
inductive XrayReleaseStrategy where
  | restart
  | handoff
  | handoffForce
deriving DecidableEq

/-- The digest of one architecture. -/
structure BinaryReleaseArtifact where
  (arch sha256 : String)
deriving DecidableEq

/-- A build in the catalog. -/
structure BinaryBuildInfo where
  component : BinaryComponent
  (buildId version : String)
  artifacts : List BinaryReleaseArtifact

/-- An operator's request for a release. -/
structure CreateBinaryReleaseRequest where
  (idempotencyKey buildId : String)
  nodes : List String
  note : Option String
  xrayStrategy : Option XrayReleaseStrategy
  xrayDrainTimeoutSecs : Option ℕ

/-- Where a release stands. -/
inductive BinaryReleaseStatus where
  | running
  | halted
  | succeeded
  | canceled
deriving DecidableEq

/-- Where a node stands in its release. -/
inductive BinaryReleaseTargetStatus where
  | pending
  | dispatched
  | succeeded
  | unverified
  | failedRecovered
  | failedDirty
  | unsupported
  | canceled
deriving DecidableEq

/-- How the agent's own update ended. -/
inductive AgentReleaseOutcome where
  | running
  | failed
deriving DecidableEq

/-- What an agent reports of its update. -/
structure AgentReleaseReport where
  releaseId : ℤ
  attempt : ℕ
  outcome : AgentReleaseOutcome
  performedUpdate : Bool
  (installedSha256 runningSha256 error : Option String)
deriving DecidableEq

/-- How an xray update ended. -/
inductive XrayReleaseOutcome where
  | succeeded
  | failedRecovered
  | failedDirty
  | unsupported
deriving DecidableEq

/-- What an agent reports of its xray. -/
structure XrayReleaseReport where
  releaseId : ℤ
  attempt : ℕ
  outcome : XrayReleaseOutcome
  performedUpdate : Bool
  strategy : XrayReleaseStrategy
  (forcedRetirement xrayEnabled : Bool)
  (installedSha256 runningSha256 error : Option String)
deriving DecidableEq

/-- A report, by component. -/
inductive ExecutionReport where
  | agent (report : AgentReleaseReport)
  | xray (report : XrayReleaseReport)
deriving DecidableEq

namespace ExecutionReport

def component : ExecutionReport → BinaryComponent
  | .agent _ => .agent
  | .xray _ => .xray

def releaseId : ExecutionReport → ℤ
  | .agent r => r.releaseId
  | .xray r => r.releaseId

def attempt : ExecutionReport → ℕ
  | .agent r => r.attempt
  | .xray r => r.attempt

def installed : ExecutionReport → Option String
  | .agent r => r.installedSha256
  | .xray r => r.installedSha256

def running : ExecutionReport → Option String
  | .agent r => r.runningSha256
  | .xray r => r.runningSha256

def performed : ExecutionReport → Bool
  | .agent r => r.performedUpdate
  | .xray r => r.performedUpdate

def serviceEnabled : ExecutionReport → Option Bool
  | .agent _ => none
  | .xray r => some r.xrayEnabled

def forcedRetirement : ExecutionReport → Bool
  | .agent _ => false
  | .xray r => r.forcedRetirement

def error : ExecutionReport → Option String
  | .agent r => r.error
  | .xray r => r.error

end ExecutionReport

/-- A row of `binary_release_targets`. -/
structure Target where
  nodeId : String
  status : BinaryReleaseTargetStatus
  attempt : ℕ
  before : String
  (desired arch error : Option String)
  (reportedPerformedUpdate reportedServiceEnabled : Option Bool)
  (reportedInstalled reportedRunning : Option String)
  reportedForcedRetirement : Option Bool
  verification : Option String
  (dispatchedAt finishedAt : Option ℤ)
deriving DecidableEq

/-- A row of `binary_release_attempts`. -/
structure Attempt where
  nodeId : String
  attempt : ℕ
  status : BinaryReleaseTargetStatus
  receiptCapable : Option Bool
  (verification error : Option String)
  evidence : Option ExecutionReport
  (startedAt finishedAt : Option ℤ)
deriving DecidableEq

/-- A line of the release's history. -/
structure Event where
  kind : String
  (nodeId actor : Option String)
deriving DecidableEq

/-- A release, with a row a node. -/
structure Release where
  id : ℤ
  component : BinaryComponent
  (idempotencyKey buildId version : String)
  artifacts : List BinaryReleaseArtifact
  status : BinaryReleaseStatus
  note : Option String
  xrayStrategy : Option XrayReleaseStrategy
  xrayDrainTimeoutSecs : Option ℕ
  createdBy : String
  (haltedAt finishedAt : Option ℤ)
  targets : List Target
  attempts : List Attempt
  events : List Event
deriving DecidableEq

/-- All releases, in the order they were made. -/
structure Ledger where
  releases : List Release
  nextId : ℤ
deriving DecidableEq

def Ledger.empty : Ledger where
  releases := []
  nextId := 1

/-- The column `active`. -/
def Release.active (r : Release) : Bool := decide (r.status = .running ∨ r.status = .halted)

def Release.target (r : Release) (node : String) : Option Target :=
  r.targets.find? fun t => t.nodeId = node

/-- Update the row of a node. -/
def Release.setTarget (r : Release) (node : String) (f : Target → Target) : Release :=
  { r with targets := r.targets.map fun t => if t.nodeId = node then f t else t }

/-- Update the rows of attempts. -/
def Release.setAttempts (r : Release) (p : Attempt → Bool) (f : Attempt → Attempt) : Release :=
  { r with attempts := r.attempts.map fun a => if p a then f a else a }

/-- A line goes into the history. -/
def Release.insertEvent (r : Release) (kind : String) (node actor : Option String) : Release :=
  { r with events := r.events ++ [⟨kind, node, actor⟩] }

/-- `lock_release` -/
def Ledger.lockRelease (l : Ledger) (component : BinaryComponent) (id : ℤ) :
    Except StoreError Release :=
  match l.releases.find? fun r => r.id = id ∧ r.component = component with
  | none => .error (.notFound s!"binary release {id}")
  | some r => .ok r

/-- Write a release back. -/
def Ledger.update (l : Ledger) (r : Release) : Ledger :=
  { l with releases := l.releases.map fun s => if s.id = r.id then r else s }

/-- Who asks. -/
structure Actor where
  systemAdmin : Bool
  operatorId : String

/-- Only system admins manage releases. -/
def requireSystemAdmin (actor : Actor) : Except StoreError Unit :=
  if actor.systemAdmin then .ok ()
  else .error (.forbidden "only system-admin can manage binary releases")

/-- A digest in lower case. -/
def validSha256 (value : String) : Bool :=
  decide (value.length = 64)
    && value.toList.all fun c => c.isDigit || (decide ('a' ≤ c) && decide (c ≤ 'f'))

/-! ### Create -/

/-- The limits of the ledger. -/
def maxNoteChars : ℕ := 2000
def maxErrorChars : ℕ := 4000
def maxVersionChars : ℕ := 128
def maxTargets : ℕ := 10000
def maxArtifacts : ℕ := 16
def maxAttempts : ℕ := 32
def xrayHandoffMinDrainSecs : ℕ := 10
def xrayHandoffMaxDrainSecs : ℕ := 24 * 60 * 60
def xrayHandoffProtocolVersion : ℕ := 30
def xrayHandoffRestartFallbackProtocolVersion : ℕ := 40
def minAgentProtocolVersion : ℕ := 20

def archChar (c : Char) : Bool := c.isAlphanum || c = '_' || c = '-'

/-- Whether a build can be released. -/
def validateBuild (build : BinaryBuildInfo) : Except StoreError Unit :=
  if !validSha256 build.buildId then
    .error (.invalidData "binary release id is not a lowercase sha256")
  else if (Text.trim build.version).isEmpty || decide (maxVersionChars < build.version.length)
      || build.artifacts.isEmpty || decide (maxArtifacts < build.artifacts.length) then
    .error (.invalidData "binary build metadata is incomplete")
  else
    match build.artifacts.find? fun a => (Text.trim a.arch).isEmpty || !a.arch.toList.all archChar
        || !validSha256 a.sha256 || decide (1 < (build.artifacts.map (·.arch)).count a.arch) with
    | some a => .error (.invalidData s!"invalid binary artifact metadata for {a.arch}")
    | none => .ok ()

/-- The strategy and the drain timeout. -/
def executionSettings (component : BinaryComponent) (request : CreateBinaryReleaseRequest) :
    Except StoreError (Option XrayReleaseStrategy × Option ℕ) :=
  match component with
  | .agent =>
    if request.xrayStrategy.isSome || request.xrayDrainTimeoutSecs.isSome then
      .error (.invalidData "Agent release cannot carry Xray execution settings")
    else .ok (none, none)
  | .xray =>
    match request.xrayStrategy with
    | none => .error (.invalidData "Xray release strategy must be explicit")
    | some .restart =>
      if request.xrayDrainTimeoutSecs.isSome then
        .error (.invalidData "restart strategy cannot carry a drain timeout")
      else .ok (some .restart, none)
    | some strategy =>
      match request.xrayDrainTimeoutSecs with
      | none => .error (.invalidData "handoff strategy requires a drain timeout")
      | some timeout =>
        if xrayHandoffMinDrainSecs ≤ timeout ∧ timeout ≤ xrayHandoffMaxDrainSecs then
          .ok (some strategy, some timeout)
        else .error (.invalidData (s!"Xray drain timeout must be between " ++
          s!"{xrayHandoffMinDrainSecs} and {xrayHandoffMaxDrainSecs} seconds"))

/-- Trimmed, in order, each once. -/
def normalizeNodes (nodes : List String) : List String :=
  OrdMap.keySet ((nodes.map Text.trim).filter fun node => !node.isEmpty)

/-- A text that is trimmed, or none. -/
def normalizeText (value : Option String) (max : ℕ) (name : String) :
    Except StoreError (Option String) :=
  let value := (value.map Text.trim).filter fun value => !value.isEmpty
  if value.any fun value => decide (max < value.length) then
    .error (.invalidData s!"{name} exceeds {max} characters")
  else .ok value

/-- What other tables say of a node. -/
structure NodeState where
  phase : String
  agentProtocolVersion : Option ℕ
  (agentRunning xrayInstalled xrayRunning : Option String)
  (xrayHandoffReady contactFresh pollFresh runtimeFresh : Bool)

/-- What a node says of its binaries. -/
structure BinaryReleaseObservation where
  installed : String
  running : Option String
  agentProtocolVersion : Option ℕ
  xrayHandoffReady : Bool

/-- What is known of a node that can take part. -/
def releaseObservation (component : BinaryComponent) (node : String) (state : NodeState) :
    Except StoreError BinaryReleaseObservation :=
  if state.phase ≠ "active" then
    .error (.invalidData s!"binary release target {node} is {state.phase}, not active")
  else if component = .agent ∧ ¬ state.contactFresh then
    .error (.invalidData s!"node {node} has not authenticated in the last 90 seconds")
  else if component = .xray ∧ ¬ state.pollFresh then
    .error (.invalidData s!"node {node} has not polled desired state in the last 90 seconds")
  else if !state.runtimeFresh then
    .error (.invalidData s!"node {node} has not reported runtime state in the last 2 minutes")
  else
    let sha := match component with
      | .xray => state.xrayInstalled
      | .agent => state.agentRunning
    match sha.filter validSha256 with
    | none => .error (.invalidData (s!"node {node} has not reported a managed Xray digest; " ++
        "release the supporting Agent first"))
    | some sha =>
      let running := match component with
        | .xray => state.xrayRunning
        | .agent => some sha
      if running.any (· != sha) then
        .error (.invalidData (s!"node {node} is running Xray bytes that differ from its " ++
          "managed path; reconcile it before release"))
      else .ok ⟨sha, running, state.agentProtocolVersion, state.xrayHandoffReady⟩

/-- The digest a target starts from. -/
def approveTarget (build : BinaryBuildInfo) (strategy : Option XrayReleaseStrategy)
    (node : String) (observation : BinaryReleaseObservation) : Except StoreError String :=
  let protocol := observation.agentProtocolVersion.getD 0
  if build.component = .xray ∧ strategy ≠ some .restart ∧ (protocol < xrayHandoffProtocolVersion
        ∨ (¬ observation.xrayHandoffReady
          ∧ protocol < xrayHandoffRestartFallbackProtocolVersion)) then
    .error (.invalidData s!"node {node} has not reported a ready managed Xray handoff runtime")
  else if observation.running ≠ some observation.installed then
    .error (.invalidData s!"node {node} is not currently running its managed Xray")
  else if build.artifacts.any fun a => a.sha256 = observation.installed then
    .error (.invalidData s!"node {node} already has bytes carried by this Console")
  else .ok observation.installed

/-- A request that can be carried out. -/
structure Approval where
  component : BinaryComponent
  (key buildId version : String)
  artifacts : List BinaryReleaseArtifact
  note : Option String
  strategy : Option XrayReleaseStrategy
  drainTimeout : Option ℕ
  nodes : List String

/-- The checks of a request that need no table. -/
def approve (actor : Actor) (request : CreateBinaryReleaseRequest) (build : BinaryBuildInfo) :
    Except StoreError Approval := do
  requireSystemAdmin actor
  validateBuild build
  let (strategy, drainTimeout) ← executionSettings build.component request
  let buildId := (Text.trim request.buildId).toLower
  let nodes := normalizeNodes request.nodes
  let key := Text.trim request.idempotencyKey
  if buildId ≠ build.buildId then
    throw (.conflict "requested binary build is not carried by this Console")
  else if nodes.isEmpty then
    throw (.invalidData "a binary release needs at least one node")
  else if maxTargets < nodes.length then
    throw (.invalidData s!"a binary release cannot target more than {maxTargets} nodes")
  else
    let note ← normalizeText request.note maxNoteChars "binary release note"
    if key.isEmpty ∨ 200 < key.length then
      throw (.invalidData "binary release idempotency_key must contain 1 to 200 characters")
    else pure ⟨build.component, key, buildId, build.version, build.artifacts, note, strategy,
      drainTimeout, nodes⟩

/-- The same request was made before. -/
def Release.isFor (r : Release) (approval : Approval) : Bool :=
  decide (r.buildId = approval.buildId) && decide (r.version = approval.version)
    && decide (r.note = approval.note) && decide (r.xrayStrategy = approval.strategy)
    && decide (r.xrayDrainTimeoutSecs = approval.drainTimeout)
    && decide (OrdMap.keySet (r.targets.map (·.nodeId)) = approval.nodes)

/-- The digests all targets start from. -/
def observeTargets (approval : Approval) (build : BinaryBuildInfo)
    (state : String → Option NodeState) : Except StoreError (List (String × String)) := do
  let found := approval.nodes.filterMap fun node => (state node).map fun s => (node, s)
  let observations ← found.mapM fun entry => do
    pure (entry.1, ← releaseObservation approval.component entry.1 entry.2)
  let missing := approval.nodes.filter fun node => (state node).isNone
  if !missing.isEmpty then
    let names := String.intercalate ", " missing
    throw (.notFound s!"binary release nodes: {names}")
  else
    observations.mapM fun entry => do
      pure (entry.1, ← approveTarget build approval.strategy entry.1 entry.2)

/-- A row that nothing happened to. -/
def newTarget (node before : String) : Target where
  nodeId := node
  status := .pending
  attempt := 1
  before := before
  desired := none
  arch := none
  error := none
  reportedPerformedUpdate := none
  reportedServiceEnabled := none
  reportedInstalled := none
  reportedRunning := none
  reportedForcedRetirement := none
  verification := none
  dispatchedAt := none
  finishedAt := none

/-- A further attempt of a node. -/
def newAttempt (node : String) (attempt : ℕ) : Attempt where
  nodeId := node
  attempt := attempt
  status := .pending
  receiptCapable := none
  verification := none
  error := none
  evidence := none
  startedAt := none
  finishedAt := none

/-- The rows of a new release. -/
def newRelease (id : ℤ) (approval : Approval) (actor : Actor) (targets : List (String × String)) :
    Release where
  id := id
  component := approval.component
  idempotencyKey := approval.key
  buildId := approval.buildId
  version := approval.version
  artifacts := approval.artifacts
  status := .running
  note := approval.note
  xrayStrategy := approval.strategy
  xrayDrainTimeoutSecs := approval.drainTimeout
  createdBy := actor.operatorId
  haltedAt := none
  finishedAt := none
  targets := targets.map fun t => newTarget t.1 t.2
  attempts := targets.map fun t => newAttempt t.1 1
  events := [⟨"created", none, some actor.operatorId⟩]

/-- The id of the release that is there afterwards. -/
def createBinaryRelease (l : Ledger) (actor : Actor) (request : CreateBinaryReleaseRequest)
    (build : BinaryBuildInfo) (handoffBeta : Bool) (state : String → Option NodeState) :
    Except StoreError (Ledger × ℤ) := do
  let approval ← approve actor request build
  match l.releases.find? fun r =>
      r.idempotencyKey = approval.key ∧ r.component = approval.component with
  | some existing =>
    if existing.isFor approval then pure (l, existing.id)
    else throw (.conflict "binary release idempotency_key already belongs to another request")
  | none =>
    if approval.component = .xray ∧ approval.strategy ≠ some .restart ∧ ¬ handoffBeta then
      throw (.invalidData "请先在设置中开启 Xray 进程交接 Beta；未开启时只能选择直接重启")
    else
      match l.releases.find? fun r => r.active ∧ r.component = approval.component with
      | some r => throw (.conflict
          s!"binary release {r.id} is still active; cancel or finish it first")
      | none => do
          let targets ← observeTargets approval build state
          pure ({ l with
            releases := l.releases ++ [newRelease l.nextId approval actor targets]
            nextId := l.nextId + 1 }, l.nextId)

/-! ### Cancel -/

/-- A row that is still to be carried out. -/
def Unfinished (status : BinaryReleaseTargetStatus) : Bool :=
  decide (status = .pending ∨ status = .dispatched)

/-- Every unfinished row is canceled with the release. -/
def Release.cancel (r : Release) (now : ℤ) : Release :=
  { r with
    status := .canceled
    finishedAt := some now
    targets := r.targets.map fun t =>
      if Unfinished t.status then { t with status := .canceled, finishedAt := some now } else t
    attempts := r.attempts.map fun a =>
      if Unfinished a.status then { a with status := .canceled, finishedAt := some now } else a }

/-- An operator gives a release up. -/
def cancelBinaryRelease (l : Ledger) (component : BinaryComponent) (actor : Actor) (id : ℤ)
    (now : ℤ) : Except StoreError (Ledger × ℤ) := do
  requireSystemAdmin actor
  let r ← l.lockRelease component id
  if !r.active then throw (.conflict s!"binary release {id} is already inactive")
  else pure (l.update ((r.cancel now).insertEvent "canceled" none (some actor.operatorId)), id)

/-- A node leaves: every active release it is a target of is canceled. -/
def cancelForNodeLifecycle (l : Ledger) (node actor : String) (now : ℤ) :
    Ledger × Option ℤ :=
  let ids := (l.releases.filter fun r =>
    r.active && (r.target node).isSome).map (·.id)
  ({ l with
    releases := l.releases.map fun r =>
      if r.active && (r.target node).isSome then
        (r.cancel now).insertEvent "canceled-for-node-lifecycle" (some node) (some actor)
      else r }, ids.head?)

/-! ### Retry -/

/-- Whether sessions are handed over. -/
def handsOver (component : BinaryComponent) (strategy : Option XrayReleaseStrategy) : Bool :=
  decide (component = .xray ∧ (strategy = some .handoff ∨ strategy = some .handoffForce))

/-- How long an execution may take. -/
def executionTimeoutMinutes (component : BinaryComponent)
    (strategy : Option XrayReleaseStrategy) : ℤ :=
  if handsOver component strategy then 60 else 30

/-- Whether an operator may still act on it. -/
def ensureActionableRelease (r : Release) (buildId : String) : Except StoreError Unit :=
  if !r.active then .error (.conflict s!"binary release {r.id} is inactive")
  else if r.buildId ≠ buildId then .error (.conflict
    "this Console no longer carries the binary build named by the release")
  else .ok ()

/-- The node still reports a handoff of this attempt. -/
def handoffReported (r : Release) (t : Target) (upgrade : Option (ℤ × ℕ)) : Bool :=
  handsOver r.component r.xrayStrategy && decide (upgrade = some (r.id, t.attempt))

/-- Whether a row may be tried again. -/
def retryable (r : Release) (t : Target) (upgrade : Option (ℤ × ℕ)) (now : ℤ) : Bool :=
  decide (t.attempt < maxAttempts) && !handoffReported r t upgrade
    && (decide (t.status = .unverified ∨ t.status = .failedRecovered ∨ t.status = .failedDirty
        ∨ t.status = .unsupported)
      || (decide (t.status = .dispatched) && t.dispatchedAt.any fun dispatched => decide
        (dispatched ≤ now - executionTimeoutMinutes r.component r.xrayStrategy * 60)))

/-- The target of the next attempt. -/
def Target.retry (t : Target) : Target :=
  { t with
    status := .pending
    attempt := t.attempt + 1
    error := none
    dispatchedAt := none
    finishedAt := none
    reportedPerformedUpdate := none
    reportedServiceEnabled := none
    reportedInstalled := none
    reportedRunning := none
    reportedForcedRetirement := none
    verification := none
    arch := if t.status = .unsupported then none else t.arch
    desired := if t.status = .unsupported then none else t.desired }

/-- The row is tried again. -/
def Release.retry (r : Release) (t : Target) (actor : Actor) (now : ℤ) : Release :=
  let r := r.setTarget t.nodeId Target.retry
  let r := r.setAttempts (fun a => a.nodeId = t.nodeId && a.status = .dispatched) fun a =>
    { a with
      status := .unverified
      finishedAt := some now
      error := a.error.or
        (some "overall execution timeout elapsed; superseded by an operator retry") }
  { r with
    attempts := r.attempts ++ [newAttempt t.nodeId (t.attempt + 1)]
    status := .running
    haltedAt := none }.insertEvent "target-retried" (some t.nodeId) (some actor.operatorId)

/-- An operator has a node try again. -/
def retryBinaryReleaseTarget (l : Ledger) (component : BinaryComponent) (actor : Actor) (id : ℤ)
    (node buildId : String) (upgrade : Option (ℤ × ℕ)) (now : ℤ) :
    Except StoreError (Ledger × ℤ) := do
  requireSystemAdmin actor
  let r ← l.lockRelease component id
  ensureActionableRelease r buildId
  let minutes := executionTimeoutMinutes r.component r.xrayStrategy
  match r.target node with
  | none => throw (.conflict (s!"binary release target {id}/{node} is not retryable; its " ++
      s!"{minutes}-minute overall execution timeout has not elapsed"))
  | some t =>
    if retryable r t upgrade now then pure (l.update (r.retry t actor now), id)
    else if handoffReported r t upgrade then
      throw (.conflict (s!"binary release target {id}/{node} still reports the active handoff " ++
        "attempt; wait for its terminal report or explicitly stop it before retrying"))
    else throw (.conflict (s!"binary release target {id}/{node} is not retryable; its " ++
      s!"{minutes}-minute overall execution timeout has not elapsed"))

/-! ### Claim -/

/-- What a node is told to install. -/
structure BinaryReleaseAssignment where
  releaseId : ℤ
  attempt : ℕ
  (version sha256 previousSha256 : String)
  strategy : XrayReleaseStrategy
  drainTimeoutSecs : Option ℕ

/-- The target's own attempt row. -/
def ownAttempt (t : Target) (a : Attempt) : Bool :=
  decide (a.nodeId = t.nodeId ∧ a.attempt = t.attempt)

/-- No artifact fits the node. -/
def Release.markUnsupportedArch (r : Release) (t : Target) (arch : String) (now : ℤ) : Release :=
  let error := s!"Console carries no released binary for architecture {arch}"
  let r := r.setTarget t.nodeId fun t =>
    { t with status := .unsupported, arch := some arch, error := some error, finishedAt := some now }
  let r := r.setAttempts (ownAttempt t) fun a =>
    { a with status := .unsupported, error := some error, finishedAt := some now }
  { r with status := .halted, haltedAt := some now }.insertEvent "target-unsupported"
    (some t.nodeId) none

/-- The node is told what to install. -/
def Release.dispatch (r : Release) (t : Target) (artifact : BinaryReleaseArtifact)
    (receiptCapable : Bool) (now : ℤ) : Release :=
  (r.setTarget t.nodeId fun t =>
    { t with
      status := .dispatched
      arch := some artifact.arch
      desired := some artifact.sha256
      dispatchedAt := t.dispatchedAt.or (some now) }).setAttempts (ownAttempt t) fun a =>
    { a with
      status := .dispatched
      startedAt := a.startedAt.or (some now)
      receiptCapable := a.receiptCapable.or (some receiptCapable) }

/-- A target that may be handed out. -/
def Release.claimable (r : Release) (node : String) : Option Target :=
  (r.target node).filter fun t => Unfinished t.status

/-- Whether the node may claim it. -/
def Release.claimant (r : Release) (component : BinaryComponent) (node : String) : Bool :=
  decide (r.status = .running ∧ r.component = component) && (r.claimable node).isSome

/-- The node claims its row. -/
def claimTarget (l : Ledger) (r : Release) (t : Target) (arch : String) (receiptCapable : Bool)
    (now : ℤ) : Ledger × Option BinaryReleaseAssignment :=
  match r.artifacts.find? fun a => a.arch = arch with
  | none => (l.update (r.markUnsupportedArch t arch now), none)
  | some artifact =>
    if t.arch.any (· != arch) || t.desired.any (· != artifact.sha256) then
      (l.update (r.markUnsupportedArch t arch now), none)
    else
      (l.update (r.dispatch t artifact receiptCapable now), some {
        releaseId := r.id
        attempt := t.attempt
        version := r.version
        sha256 := artifact.sha256
        previousSha256 := t.before
        strategy := match r.component with
          | .agent => .restart
          | .xray => r.xrayStrategy.getD .restart
        drainTimeoutSecs := r.xrayDrainTimeoutSecs })

/-- A node asks for its part of a release. -/
def claimBinaryRelease (l : Ledger) (component : BinaryComponent) (node arch buildId : String)
    (receiptCapable : Bool) (now : ℤ) :
    Except StoreError (Ledger × Option BinaryReleaseAssignment) :=
  if arch.isEmpty || decide (32 < arch.length) || !arch.toList.all archChar then
    .error (.invalidData "binary release architecture is invalid")
  else
    match l.releases.reverse.find? fun r => r.claimant component node with
    | none => .ok (l, none)
    | some r =>
      match r.claimable node with
      | none => .ok (l, none)
      | some t =>
        if r.buildId ≠ buildId then .ok (l, none)
        else .ok (claimTarget l r t arch receiptCapable now)

/-! ### Report -/

/-- What the agent last said of itself. -/
structure AgentRuntime where
  agent : Option String
  protocolVersion : Option ℕ
  reportedAt : Option ℤ

/-- The agent has reported from the desired bytes, after the dispatch and just now. -/
def confirmedAgent (runtime : Option AgentRuntime) (desired : String) (dispatchedAt : Option ℤ)
    (now : ℤ) : Bool :=
  runtime.any fun state => decide (state.agent = some desired)
    && state.protocolVersion.any (fun version => decide (minAgentProtocolVersion ≤ version))
    && state.reportedAt.any fun reported => dispatchedAt.any (fun dispatched =>
      decide (dispatched ≤ reported)) && decide (now - 120 ≤ reported)

/-- How a target ends. -/
structure Verdict where
  status : BinaryReleaseTargetStatus
  error : Option String
  verification : String

/-- What a report of xray comes to. -/
def judgeXray (r : XrayReleaseReport) (before desired : String) (error : Option String) :
    Except StoreError Verdict :=
  match r.outcome with
  | .succeeded =>
    if r.installedSha256 ≠ some desired ∨ (r.xrayEnabled ∧ r.runningSha256 ≠ some desired) then
      .error (.invalidData "successful Xray report does not identify the approved bytes")
    else if !r.performedUpdate ∨ before = desired ∨ !r.xrayEnabled
        ∨ r.runningSha256 ≠ some desired then
      .ok ⟨.unverified, some "未证明本次真实替换并启动目标 Xray，不能作为发布成功证据", "receipt"⟩
    else .ok ⟨.succeeded, error, "receipt"⟩
  | .failedRecovered =>
    if r.installedSha256 ≠ some before ∨ (r.xrayEnabled ∧ r.runningSha256 ≠ some before) then
      .error (.invalidData "recovered Xray report does not identify the frozen prior bytes")
    else .ok ⟨.failedRecovered, error, "receipt"⟩
  | .failedDirty => .ok ⟨.failedDirty, error, "receipt"⟩
  | .unsupported => .ok ⟨.unsupported, error, "receipt"⟩

/-- What a report of the agent comes to. -/
def judgeAgent (r : AgentReleaseReport) (before desired : String) (receiptCapable : Option Bool)
    (confirmed : Bool) (error : Option String) : Except StoreError Verdict :=
  match r.outcome with
  | .running =>
    if r.installedSha256 ≠ some desired ∨ r.runningSha256 ≠ some desired then
      .error (.invalidData "Agent has not restarted into the approved bytes")
    else if !confirmed then
      .error (.conflict "waiting for fresh target-Agent poll and runtime confirmation")
    else if receiptCapable = some true ∧ ¬ r.performedUpdate then
      .ok ⟨.unverified, some "运行摘要已匹配，但本次替换的持久回执缺失", "receipt"⟩
    else .ok ⟨.succeeded, error, if r.performedUpdate then "receipt" else "observed"⟩
  | .failed =>
    if r.installedSha256 = some before ∧ r.runningSha256 = some before then
      .ok ⟨.failedRecovered, error, "receipt"⟩
    else .ok ⟨.failedDirty, error, "receipt"⟩

/-- What a report comes to. -/
def judge (report : ExecutionReport) (t : Target) (a : Attempt) (desired : String)
    (runtime : Option AgentRuntime) (now : ℤ) (error : Option String) :
    Except StoreError Verdict :=
  match report with
  | .xray r => judgeXray r t.before desired error
  | .agent r => judgeAgent r t.before desired a.receiptCapable
      (confirmedAgent runtime desired t.dispatchedAt now) error

/-- The rows after a verdict. -/
def Release.settle (r : Release) (t : Target) (report : ExecutionReport) (verdict : Verdict)
    (now : ℤ) : Release :=
  (r.setTarget t.nodeId fun t =>
    { t with
      status := verdict.status
      error := verdict.error
      reportedPerformedUpdate := some report.performed
      reportedServiceEnabled := report.serviceEnabled
      reportedInstalled := report.installed
      reportedRunning := report.running
      reportedForcedRetirement := some report.forcedRetirement
      verification := some verdict.verification
      finishedAt := some now }).setAttempts (ownAttempt t) fun a =>
    { a with
      status := verdict.status
      error := verdict.error
      verification := some verdict.verification
      evidence := some report
      finishedAt := some now }

/-- What the verdict means for the release. -/
def Release.conclude (r : Release) (verdict : Verdict) (now : ℤ) : Release :=
  if r.targets.all fun t => t.status = .succeeded then
    { r with status := .succeeded, haltedAt := none, finishedAt := some now }.insertEvent
      "succeeded" none none
  else if verdict.status ≠ .succeeded then { r with status := .halted, haltedAt := some now }
  else r

/-- The first report of a target that was canceled under way. -/
def late (r : Release) (t : Target) : Bool :=
  decide (r.status = .canceled ∧ t.status = .canceled) && t.desired.isSome

/-- A report of success after one of a failure that left the machine in an unknown state. -/
def recoveringAfterDirty (r : Release) (t : Target) (report : ExecutionReport) : Bool :=
  r.active && decide (t.status = .failedDirty) && match report with
      | .xray x => decide (x.outcome = .succeeded)
      | .agent _ => false

/-- The report is about the approved strategy. -/
def strategyMatches (r : Release) : ExecutionReport → Bool
  | .agent _ => true
  | .xray x => decide (x.strategy = r.xrayStrategy.getD .restart)
      && (!x.forcedRetirement || decide (r.xrayStrategy.getD .restart = .handoffForce))

/-- Whether a report names an attempt. -/
def reportIdentityOk (report : ExecutionReport) : Bool :=
  decide (0 < report.releaseId) && decide (report.attempt ≠ 0)
    && decide (report.attempt ≤ maxAttempts)
    && report.installed.all validSha256 && report.running.all validSha256

/-- Settle a target that may be settled. -/
def settleTarget (l : Ledger) (r : Release) (t : Target) (a : Attempt) (report : ExecutionReport)
    (runtime : Option AgentRuntime) (now : ℤ) (error : Option String) :
    Except StoreError (Ledger × Bool) :=
  match t.desired with
  | none => .error (.conflict "target has not claimed this attempt")
  | some desired =>
    match judge report t a desired runtime now error with
    | .error error => .error error
    | .ok verdict =>
      if recoveringAfterDirty r t report ∧ verdict.status ≠ .succeeded then
        .error (.invalidData "dirty Xray recovery did not prove the approved running bytes")
      else
        let r := if recoveringAfterDirty r t report then
            r.insertEvent "target-recovered-after-dirty" (some t.nodeId) none
          else r
        let settled := (r.settle t report verdict now).insertEvent
          (if late r t then "target-reported-after-cancel" else "target-reported")
          (some t.nodeId) none
        .ok (l.update (if late r t then settled else settled.conclude verdict now), true)

/-- Whether the report counts for the current attempt. -/
def settleReport (l : Ledger) (node : String) (report : ExecutionReport)
    (runtime : Option AgentRuntime) (now : ℤ) : Except StoreError (Ledger × Bool) :=
  if !reportIdentityOk report then
    .error (.invalidData "invalid binary release report identity or digest")
  else
    match normalizeText report.error maxErrorChars "binary release error" with
    | .error error => .error error
    | .ok error =>
      match l.lockRelease report.component report.releaseId with
      | .error error => .error error
      | .ok r =>
        if !strategyMatches r report then .error (.invalidData
          "Xray release report does not match the approved execution strategy")
        else
          match (r.target node).bind fun t =>
              (r.attempts.find? (ownAttempt t)).map fun a => (t, a) with
          | none => .error (.notFound s!"binary release target {report.releaseId}/{node}")
          | some (t, a) =>
            if t.attempt ≠ report.attempt then .ok (l, false)
            else if !r.active && !late r t then .ok (l, false)
            else if r.active && !Unfinished t.status && !recoveringAfterDirty r t report then
              .ok (l, true)
            else settleTarget l r t a report runtime now error

/-! ### Transactions -/

/-- The transactions of the ledger. -/
inductive Transaction where
  | create (actor : Actor) (request : CreateBinaryReleaseRequest) (build : BinaryBuildInfo)
      (handoffBeta : Bool) (state : String → Option NodeState)
  | claim (component : BinaryComponent) (node arch buildId : String) (receiptCapable : Bool)
      (now : ℤ)
  | report (node : String) (report : ExecutionReport) (runtime : Option AgentRuntime) (now : ℤ)
  | retry (component : BinaryComponent) (actor : Actor) (id : ℤ) (node buildId : String)
      (upgrade : Option (ℤ × ℕ)) (now : ℤ)
  | cancel (component : BinaryComponent) (actor : Actor) (id : ℤ) (now : ℤ)
  | nodeLifecycle (node actor : String) (now : ℤ)

/-- The ledger after a transaction that was committed or rolled back. -/
def Ledger.step (l : Ledger) (tx : Transaction) : Ledger :=
  let committed {α : Type} (result : Except StoreError (Ledger × α)) : Ledger :=
    match result with
    | .ok (l', _) => l'
    | .error _ => l
  match tx with
  | .create actor request build handoffBeta state =>
    committed (createBinaryRelease l actor request build handoffBeta state)
  | .claim component node arch buildId receiptCapable now =>
    committed (claimBinaryRelease l component node arch buildId receiptCapable now)
  | .report node report runtime now => committed (settleReport l node report runtime now)
  | .retry component actor id node buildId upgrade now =>
    committed (retryBinaryReleaseTarget l component actor id node buildId upgrade now)
  | .cancel component actor id now => committed (cancelBinaryRelease l component actor id now)
  | .nodeLifecycle node actor now => (cancelForNodeLifecycle l node actor now).1

end Brocade.Binary
