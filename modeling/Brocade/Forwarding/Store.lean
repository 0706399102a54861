/-
Entitlements, rules and the counter of each machine.

An entitlement lets a user take ports of a machine, and rules are made under it.  Every
change of what a machine should forward advances the machine's counter in the same
transaction, and a machine reports against the counter it was told.

An operation is one transaction: a new database, or an error that leaves the old one.  The
unique indexes on a machine's active ports are in `writeRule`.
-/
import Brocade.Forwarding.Rule
import Brocade.Lib.Fallible
import Brocade.Quota.Round

namespace Brocade.Forwarding

open Quota (tenantInScope)
open Usage (StoreError)

/-! ### Tables -/

/-- Tenant, user, machine. -/
abbrev EntitlementKey := String × String × String

/-- What a user may forward on a machine. -/
structure ForwardingEntitlement where
  (enabled tcpAllowed udpAllowed : Bool)
  (listenPortStart listenPortEnd maxRules : ℕ)
  allowPrivateTargets : Bool
deriving DecidableEq

/-- A stored rule. -/
structure ForwardingRule where
  (tenantId userId nodeId name : String)
  protocol : ForwardingProtocol
  listenPort : ℕ
  targetHost : String
  targetPort : ℕ
  (enabled deleted : Bool)
deriving DecidableEq

namespace ForwardingRule

def key (rule : ForwardingRule) : EntitlementKey := (rule.tenantId, rule.userId, rule.nodeId)

/-- The rules the unique indexes are about. -/
def active (rule : ForwardingRule) : Bool := rule.enabled && !rule.deleted

end ForwardingRule

/-- A user's status. -/
inductive UserStatus where
  | active
  | disabled
deriving DecidableEq

/-- What is read of a user. -/
structure UserRow where
  status : UserStatus
  serviceSuspended : Bool
  trafficResetDay : ℕ
  (serviceStartsAt serviceExpiresAt : Option ℤ)

/-- What is read of a machine. -/
structure NodeRow where
  tenantId : String
  apiPort : Option ℕ
  retired : Bool

/-- Where a machine's rules stand. -/
inductive ReconcileStatus where
  | pending
  | converged
  | error
deriving DecidableEq

/-- The reconcile state of one machine. -/
structure NodeState where
  desiredGeneration : ℤ
  appliedGeneration : Option ℤ
  reconcileStatus : ReconcileStatus
  appliedRuleIds : List ℤ
  ruleResults : Option (List ForwardingRuleReconcileResult)
  lastError : Option String

/-- A machine nothing was asked of. -/
def NodeState.initial : NodeState where
  desiredGeneration := 0
  appliedGeneration := none
  reconcileStatus := .pending
  appliedRuleIds := []
  ruleResults := none
  lastError := none

/-- Where a job stands. -/
inductive JobStatus where
  | queued
  | running
  | succeeded
  | canceled
deriving DecidableEq

/-- An intent to suspend or restore one user's forwarding on one machine. -/
structure QuotaJob where
  key : EntitlementKey
  generation : ℤ
  suspended : Bool
  status : JobStatus
  lastError : Option String

/-- Neither done nor given up. -/
def QuotaJob.pending (job : QuotaJob) : Bool := job.status = .queued || job.status = .running

/-- The quota of a machine. -/
structure NodeQuota where
  limitBytes : Option ℕ
  suspended : Bool
  lastJobId : Option ℕ

/-- The tables of forwarding. -/
structure Db where
  /-- (tenant, user) -/
  users : Table (String × String) UserRow
  nodes : Table String NodeRow
  entitlements : Table EntitlementKey ForwardingEntitlement
  rules : Table ℤ ForwardingRule
  nextRuleId : ℤ
  /-- every machine a rule has been on -/
  ruleNodes : Finset (ℤ × String)
  nodeStates : Table String NodeState
  quotas : Table EntitlementKey NodeQuota
  jobs : Table ℕ QuotaJob
  nextJobId : ℕ

/-- The tables of a new control plane. -/
def Db.empty : Db where
  users := .empty
  nodes := .empty
  entitlements := .empty
  rules := .empty
  nextRuleId := 1
  ruleNodes := ∅
  nodeStates := .empty
  quotas := .empty
  jobs := .empty
  nextJobId := 1

/-- What an operation reads beside these tables. -/
structure Surroundings where
  /-- a managed service of the machine listens on the port -/
  staticPort : String → ForwardingProtocol → ℕ → Bool
  /-- what a user has moved through a machine in this cycle -/
  cycleUsed : EntitlementKey → ℕ
  now : ℤ

/-! ### Actors -/

/-- The roles of an operator. -/
inductive AdminRole where
  | user
  | readonly
  | editor
  | publisher
  | tenantAdmin
  | systemAdmin
deriving DecidableEq

/-- Who asks, and for which tenant. -/
structure AdminContext where
  role : AdminRole
  tenantScope : Option String
  /-- (tenant, user) -/
  selfUser : Option (String × String)

def require (ok : Bool) (error : StoreError) : Except StoreError Unit :=
  if ok then .ok () else .error error

@[simp] theorem require_eq_ok {ok : Bool} {error : StoreError} {u : Unit} :
    require ok error = .ok u ↔ ok = true := by
  cases ok <;> simp [require]

/-- The row, or an error where there is none. -/
def found {α : Type} (row : Option α) (error : StoreError) : Except StoreError α :=
  match row with
  | some row => .ok row
  | none => .error error

@[simp] theorem found_eq_ok {α : Type} {row : Option α} {error : StoreError} {a : α} :
    found row error = .ok a ↔ row = some a := by
  cases row <;> simp [found]

/-- Whether the tenant is the actor's. -/
def AdminContext.canAccessTenant (actor : AdminContext) (tenantId : String) : Bool :=
  actor.role = .systemAdmin || actor.tenantScope.any fun scope => tenantInScope tenantId scope

/-- The tenant has to be. -/
def AdminContext.requireTenantAccess (actor : AdminContext) (tenantId action : String) :
    Except StoreError Unit :=
  require (actor.canAccessTenant tenantId) (.forbidden s!"{action} is outside tenant scope")

/-- A user acts for themselves only. -/
def requireUserAccess (actor : AdminContext) (tenantId userId : String) : Except StoreError Unit :=
  if actor.role = .user then
    require (actor.selfUser = some (tenantId, userId))
      (.forbidden "users may manage only their own forwarding rules")
  else actor.requireTenantAccess tenantId "forwarding user"

/-- Who may write rules. -/
def requireRuleWriteAccess (actor : AdminContext) (tenantId userId : String) :
    Except StoreError Unit :=
  if actor.role = .user then requireUserAccess actor tenantId userId
  else do
    require (actor.role ∈ [AdminRole.editor, .publisher, .tenantAdmin, .systemAdmin])
      (.forbidden "forwarding rules require editor access")
    actor.requireTenantAccess tenantId "forwarding rule"

/-- Who may write entitlements. -/
def requireEntitlementAdmin (actor : AdminContext) (tenantId : String) : Except StoreError Unit := do
  require (actor.role ∈ [AdminRole.tenantAdmin, .systemAdmin])
    (.forbidden "only tenant-admin or system-admin can grant forwarding entry nodes")
  actor.requireTenantAccess tenantId "forwarding entitlement"

/-! ### Shapes -/

/-- A rule as it is written. -/
structure ForwardingRuleWrite where
  (nodeId name : String)
  protocol : ForwardingProtocol
  listenPort : ℕ
  targetHost : String
  targetPort : ℕ
  enabled : Bool

/-- Whether an entitlement can be written. -/
def validateEntitlement (write : ForwardingEntitlement) : Except StoreError Unit := do
  require (write.tcpAllowed || write.udpAllowed)
    (.invalidData "at least one forwarding protocol must be allowed")
  require (1024 ≤ write.listenPortStart && write.listenPortStart ≤ write.listenPortEnd)
    (.invalidData "forwarding listen port range must be within 1024..65535")
  require (write.maxRules ≠ 0 && write.maxRules ≤ 256)
    (.invalidData "forwarding max_rules must be within 1..256")

/-- Whether a rule can be, by itself. -/
def validateRuleShape (write : ForwardingRuleWrite) : Except StoreError Unit := do
  let name := Text.trim write.name
  require (name ≠ "" && name.length ≤ 80)
    (.invalidData "forwarding rule name must contain 1..80 characters")
  let host := Text.trim write.targetHost
  require (host ≠ "" && host.utf8ByteSize ≤ 253 && !host.toList.any Text.isWhitespace)
    (.invalidData "forwarding target host is invalid")
  require (write.listenPort ≠ 0 && write.targetPort ≠ 0)
    (.invalidData "forwarding ports must be within 1..65535")

/-- The row a write makes. -/
def ForwardingRuleWrite.row (write : ForwardingRuleWrite) (tenantId userId : String) :
    ForwardingRule where
  tenantId := tenantId
  userId := userId
  nodeId := write.nodeId
  name := Text.trim write.name
  protocol := write.protocol
  listenPort := write.listenPort
  targetHost := Text.trim write.targetHost
  targetPort := write.targetPort
  enabled := write.enabled
  deleted := false

/-! ### The counter of a machine -/

/-- The rules of the machine changed. -/
def NodeState.bumped (state : NodeState) : NodeState :=
  { state with
    desiredGeneration := state.desiredGeneration + 1
    reconcileStatus := .pending
    lastError := none }

/-- The machine's counter goes up. -/
def bumpNodeGeneration (db : Db) (nodeId : String) : Db :=
  { db with nodeStates := db.nodeStates.upsert nodeId fun state =>
      (state.getD .initial).bumped }

/-- The counter of a machine; nothing was asked of one without a row. -/
def generation (db : Db) (nodeId : String) : ℤ :=
  ((db.nodeStates.get? nodeId).getD .initial).desiredGeneration

/-! ### Entitlements -/

/-- The user's row, locked. -/
def lockUserTx (db : Db) (tenantId userId : String) : Except StoreError UserRow :=
  found (db.users.get? (tenantId, userId)) (.notFound "user")

/-- Rules that are not deleted, under one entitlement. -/
def ruleCount (db : Db) (key : EntitlementKey) (excludeRule : Option ℤ) : ℕ :=
  db.rules.count fun id rule => rule.key = key && !rule.deleted && decide (excludeRule ≠ some id)

/-- The rule keeps to what is granted of ports and transports. -/
def withinGrant (entitlement : ForwardingEntitlement) (protocol : ForwardingProtocol)
    (listenPort : ℕ) : Bool :=
  decide (entitlement.listenPortStart ≤ listenPort) && decide (listenPort ≤ entitlement.listenPortEnd)
    && (!protocol.usesTcp || entitlement.tcpAllowed) && (!protocol.usesUdp || entitlement.udpAllowed)

/-- The rule's own entitlement blocks its target. -/
def isBlocked (db : Db) (rule : ForwardingRule) : Bool :=
  (db.entitlements.get? rule.key).any fun entitlement =>
    blockedTarget rule.targetHost entitlement.allowPrivateTargets

/-- The rules a policy pass looks at. -/
def inPass (nodeId : String) (owner : Option (String × String)) (rule : ForwardingRule) : Bool :=
  rule.nodeId = nodeId && rule.active && owner.all fun owner => (rule.tenantId, rule.userId) = owner

/-- The rules a policy pass disables. -/
def blockedIn (db : Db) (nodeId : String) (owner : Option (String × String)) (rule : ForwardingRule) :
    Bool := inPass nodeId owner rule && isBlocked db rule

/-- The rule, disabled where it is blocked. -/
def disabledIn (db : Db) (nodeId : String) (owner : Option (String × String))
    (rule : ForwardingRule) : ForwardingRule :=
  if blockedIn db nodeId owner rule then { rule with enabled := false } else rule

/-- Disable what the address policy forbids, and advance the counter if there was any. -/
def disableBlockedRules (db : Db) (nodeId : String) (owner : Option (String × String)) : Db :=
  if db.rules.rows.any fun row => blockedIn db nodeId owner row.2 then
    bumpNodeGeneration { db with rules := db.rules.update fun _ => disabledIn db nodeId owner } nodeId
  else db

/-- The machine an entitlement is asked for. -/
def activeNode (db : Db) (nodeId : String) : Option NodeRow :=
  (db.nodes.get? nodeId).filter fun node => !node.retired && node.apiPort.isSome

/-- An operator writes an entitlement. -/
def setEntitlement (db : Db) (actor : AdminContext) (tenantId userId nodeId : String)
    (write : ForwardingEntitlement) : Except StoreError Db := do
  requireEntitlementAdmin actor tenantId
  validateEntitlement write
  let _ ← lockUserTx db tenantId userId
  let node ← found (activeNode db nodeId)
    (.notFound "user or active Xray-capable node was not found")
  actor.requireTenantAccess node.tenantId "forwarding entry node"
  let key := (tenantId, userId, nodeId)
  let invalidRules := db.rules.count fun _ rule =>
    rule.key = key && rule.active && !withinGrant write rule.protocol rule.listenPort
  require (!write.enabled || invalidRules = 0)
    (.conflict s!"update or disable {invalidRules} active forwarding rule(s) before narrowing the authorization")
  let existingRules := ruleCount db key none
  require (!write.enabled || existingRules ≤ write.maxRules)
    (.conflict s!"remove rules before lowering the forwarding rule limit below {existingRules}")
  let granted := { db with entitlements := db.entitlements.put key write }
  return bumpNodeGeneration (disableBlockedRules granted nodeId (some (tenantId, userId))) nodeId

/-- Give up what is pending for an entitlement. -/
def cancelJobsTx (db : Db) (key : EntitlementKey) : Db :=
  { db with jobs := db.jobs.update fun _ job =>
      if job.pending && job.key = key then
        { job with status := .canceled, lastError := some "已由更新的配额意图取代或授权已移除" }
      else job }

/-- An operator removes one. -/
def deleteEntitlement (db : Db) (actor : AdminContext) (tenantId userId nodeId : String) :
    Except StoreError Db := do
  requireEntitlementAdmin actor tenantId
  let key := (tenantId, userId, nodeId)
  let entitlement ← found (db.entitlements.get? key) (.notFound "forwarding entitlement")
  require (!entitlement.enabled)
    (.conflict "revoke the forwarding entitlement before removing it")
  let removed := { db with
    rules := db.rules.update fun _ rule =>
      if rule.key = key && !rule.deleted then { rule with deleted := true, enabled := false }
      else rule
    entitlements := db.entitlements.deleteWhere (· = key)
    -- the quota's row goes with its entitlement
    quotas := db.quotas.deleteWhere (· = key) }
  return cancelJobsTx (bumpNodeGeneration removed nodeId) key

/-! ### Rules -/

/-- Whether the quota is spent. -/
def quotaExhausted (out : Surroundings) (db : Db) (key : EntitlementKey) : Bool :=
  (db.quotas.get? key).any fun quota => quota.limitBytes.any fun limit => limit ≤ out.cycleUsed key

/-- Whether the entitlement allows a rule. -/
def validateRuleAgainstEntitlement (out : Surroundings) (db : Db) (tenantId userId : String)
    (write : ForwardingRuleWrite) (excludeRule : Option ℤ) : Except StoreError Unit := do
  let key := (tenantId, userId, write.nodeId)
  let entitlement ← found (db.entitlements.get? key) (.forbidden "forwarding node is not authorized")
  let user ← found (db.users.get? (tenantId, userId)) (.forbidden "forwarding node is not authorized")
  let _ ← found (activeNode db write.nodeId) (.forbidden "forwarding node is not authorized")
  require (entitlement.enabled && user.status = .active)
    (.forbidden "forwarding entitlement or user is disabled")
  require ((!write.protocol.usesTcp || entitlement.tcpAllowed)
      && (!write.protocol.usesUdp || entitlement.udpAllowed))
    (.forbidden "forwarding protocol is not authorized")
  require (entitlement.listenPortStart ≤ write.listenPort
      && write.listenPort ≤ entitlement.listenPortEnd)
    (.invalidData s!"listen port must be within {entitlement.listenPortStart}..{entitlement.listenPortEnd}")
  require (!write.enabled || !quotaExhausted out db key)
    (.conflict "forwarding current cycle quota is exhausted; raise or remove the quota first")
  require (!write.enabled || !out.staticPort write.nodeId write.protocol write.listenPort)
    (.conflict s!"port {write.listenPort} is already used by a managed service on node {write.nodeId}")
  require (ruleCount db key excludeRule < entitlement.maxRules)
    (.conflict s!"forwarding rule limit {entitlement.maxRules} has been reached")
  -- the host as it was sent, not as it will be stored
  require (!blockedTarget write.targetHost entitlement.allowPrivateTargets)
    (.forbidden "forwarding target is blocked by the address policy")

/-- No other active rule of the machine takes one of the rule's ports. -/
def portFree (db : Db) (id : ℤ) (rule : ForwardingRule) : Bool :=
  !rule.active || db.rules.rows.all fun row =>
    decide (row.1 = id) || !row.2.active || decide (row.2.nodeId ≠ rule.nodeId)
      || decide (row.2.listenPort ≠ rule.listenPort) || !row.2.protocol.overlaps rule.protocol

/-- Insert or update a rule under the unique indexes. -/
def writeRule (db : Db) (id : ℤ) (rule : ForwardingRule) : Except StoreError Db := do
  require (db.nodes.contains rule.nodeId) (.database "forwarding_rules_node_fkey")
  require (portFree db id rule)
    (.conflict "this forwarding listen port is already in use on the node")
  return { db with rules := db.rules.put id rule }

def rememberRuleNode (db : Db) (ruleId : ℤ) (nodeId : String) : Db :=
  { db with ruleNodes := insert (ruleId, nodeId) db.ruleNodes }

/-- A rule is created. -/
def createRule (out : Surroundings) (db : Db) (actor : AdminContext) (tenantId userId : String)
    (write : ForwardingRuleWrite) : Except StoreError Db := do
  requireRuleWriteAccess actor tenantId userId
  validateRuleShape write
  let _ ← lockUserTx db tenantId userId
  validateRuleAgainstEntitlement out db tenantId userId write none
  let id := db.nextRuleId
  let written ← writeRule { db with nextRuleId := id + 1 } id (write.row tenantId userId)
  return bumpNodeGeneration (rememberRuleNode written id write.nodeId) write.nodeId

/-- The machine should forward something else than before. -/
def runtimeChanged (previous row : ForwardingRule) : Bool :=
  decide (previous.nodeId ≠ row.nodeId) || decide (previous.protocol ≠ row.protocol)
    || decide (previous.listenPort ≠ row.listenPort) || decide (previous.targetHost ≠ row.targetHost)
    || decide (previous.targetPort ≠ row.targetPort) || decide (previous.enabled ≠ row.enabled)

/-- A user's own rule that is not deleted. -/
def ownRule (db : Db) (tenantId userId : String) (ruleId : ℤ) : Option ForwardingRule :=
  (db.rules.get? ruleId).filter fun rule =>
    rule.tenantId = tenantId && rule.userId = userId && !rule.deleted

/-- Each machine once. -/
def bumpNodes (db : Db) (nodes : List String) : Db := nodes.dedup.foldl bumpNodeGeneration db

/-- Only what is enabled and new to the machine is checked. -/
def validateChange (out : Surroundings) (db : Db) (tenantId userId : String) (ruleId : ℤ)
    (previous : ForwardingRule) (write : ForwardingRuleWrite) : Except StoreError Unit :=
  if runtimeChanged previous (write.row tenantId userId) && write.enabled then
    validateRuleAgainstEntitlement out db tenantId userId write (some ruleId)
  else .ok ()

/-- A rule is changed. -/
def updateRule (out : Surroundings) (db : Db) (actor : AdminContext) (tenantId userId : String)
    (ruleId : ℤ) (write : ForwardingRuleWrite) : Except StoreError Db := do
  requireRuleWriteAccess actor tenantId userId
  validateRuleShape write
  let _ ← lockUserTx db tenantId userId
  let previous ← found (ownRule db tenantId userId ruleId) (.notFound "forwarding rule")
  let row := write.row tenantId userId
  validateChange out db tenantId userId ruleId previous write
  let written ← writeRule (rememberRuleNode db ruleId previous.nodeId) ruleId row
  let remembered := rememberRuleNode written ruleId write.nodeId
  return if runtimeChanged previous row then bumpNodes remembered [previous.nodeId, write.nodeId]
    else remembered

/-- A rule is deleted. -/
def deleteRule (db : Db) (actor : AdminContext) (tenantId userId : String) (ruleId : ℤ) :
    Except StoreError Db := do
  requireRuleWriteAccess actor tenantId userId
  let rule ← found (ownRule db tenantId userId ruleId) (.notFound "forwarding rule")
  let rules := db.rules.put ruleId { rule with deleted := true, enabled := false }
  return bumpNodeGeneration { db with rules } rule.nodeId

/-! ### What a machine should forward -/

/-- All that has to hold for a rule to be handed out. -/
def servedRule (db : Db) (nodeId : String) (rule : ForwardingRule) : Bool :=
  rule.nodeId = nodeId && rule.active && (db.entitlements.get? rule.key).any (fun entitlement =>
      entitlement.enabled && withinGrant entitlement rule.protocol rule.listenPort)
    && !(db.quotas.get? rule.key).any (·.suspended)
    && (db.users.get? (rule.tenantId, rule.userId)).any (fun user =>
      user.status = .active && !user.serviceSuspended)
    && (db.nodes.get? nodeId).any (fun node => !node.retired)

/-- A rule, as the agent is sent it. -/
def desiredRule (db : Db) (id : ℤ) (rule : ForwardingRule) : ForwardingRuleDesired where
  id := id
  protocol := rule.protocol
  listenPort := rule.listenPort
  targetHost := rule.targetHost
  targetPort := rule.targetPort
  allowPrivateTargets := (db.entitlements.get? rule.key).map (·.allowPrivateTargets)

/-- The rules a machine is sent. -/
def desiredRules (db : Db) (nodeId : String) : List ForwardingRuleDesired :=
  ((db.rules.rows.filter fun row => servedRule db nodeId row.2).map fun row =>
    desiredRule db row.1 row.2).insertionSort fun a b => a.id ≤ b.id

/-- A machine reads its rules. -/
def desiredForNodeTx (db : Db) (nodeId : String) : Db × ForwardingDesiredState :=
  let allowed := disableBlockedRules db nodeId none
  let read := { allowed with nodeStates :=
    allowed.nodeStates.upsert nodeId fun state => state.getD .initial }
  (read, ⟨generation read nodeId, desiredRules read nodeId⟩)

/-- The jobs a machine has been told of. -/
def dispatchedTx (db : Db) (nodeId : String) (generation : ℤ) : Db :=
  { db with jobs := db.jobs.update fun _ job =>
      if job.status = .queued && job.key.2.2 = nodeId && job.generation ≤ generation then
        { job with status := .running }
      else job }

def desiredForNode (db : Db) (nodeId : String) : Db × ForwardingDesiredState :=
  let desired := desiredForNodeTx db nodeId
  (dispatchedTx desired.1 nodeId desired.2.generation, desired.2)

/-! ### What the small steps do -/

@[simp] theorem generation_bumpNodeGeneration (db : Db) (nodeId other : String) :
    generation (bumpNodeGeneration db nodeId) other
      = generation db other + if other = nodeId then 1 else 0 := by
  unfold generation bumpNodeGeneration
  rw [Table.get?_upsert]
  split
  · rename_i h
    subst h
    rfl
  · rw [add_zero]

theorem get?_disableBlockedRules (db : Db) (nodeId : String) (owner : Option (String × String))
    (id : ℤ) : (disableBlockedRules db nodeId owner).rules.get? id
      = (db.rules.get? id).map (disabledIn db nodeId owner) := by
  unfold disableBlockedRules
  split
  · exact Table.get?_update _ _ _
  · rename_i hnone
    cases hrule : db.rules.get? id with
    | none => rfl
    | some rule =>
      rw [Bool.not_eq_true, List.any_eq_false] at hnone
      have hclear := hnone (id, rule) (Table.mem_rows.mpr hrule)
      rw [Option.map_some, disabledIn, if_neg hclear]

@[simp] theorem entitlements_disableBlockedRules (db : Db) (nodeId : String)
    (owner : Option (String × String)) :
    (disableBlockedRules db nodeId owner).entitlements = db.entitlements := by
  unfold disableBlockedRules
  split <;> rfl

@[simp] theorem nextRuleId_disableBlockedRules (db : Db) (nodeId : String)
    (owner : Option (String × String)) :
    (disableBlockedRules db nodeId owner).nextRuleId = db.nextRuleId := by
  unfold disableBlockedRules
  split <;> rfl

@[simp] theorem rules_bumpNodeGeneration (db : Db) (nodeId : String) :
    (bumpNodeGeneration db nodeId).rules = db.rules := rfl

@[simp] theorem entitlements_bumpNodeGeneration (db : Db) (nodeId : String) :
    (bumpNodeGeneration db nodeId).entitlements = db.entitlements := rfl

theorem bumpNodes_eq (db : Db) (nodes : List String) :
    ∃ nodeStates, bumpNodes db nodes = { db with nodeStates } := by
  unfold bumpNodes
  induction nodes.dedup generalizing db with
  | nil => exact ⟨db.nodeStates, rfl⟩
  | cons node rest ih =>
    obtain ⟨nodeStates, h⟩ := ih (bumpNodeGeneration db node)
    exact ⟨nodeStates, h⟩

end Brocade.Forwarding
