/-
What else changes what a machine forwards, and how a machine's answer is taken.

A quota lays itself over the rules: spending it suspends a user on one machine, without a
change to any rule.  The suspension, the machine's counter and a job are written together,
and the job is done once the machine reports the counter without an error.  A user's period
of service is laid over them the same way, and so are the status of the account and of the
machine.
-/
import Brocade.Forwarding.Store

namespace Brocade.Forwarding

open Usage (StoreError)

/-! ### Quotas -/

/-- An operator sets a quota. -/
def setQuota (db : Db) (actor : AdminContext) (tenantId userId nodeId : String)
    (limitBytes : Option ℕ) : Except StoreError Db := do
  requireEntitlementAdmin actor tenantId
  require (limitBytes.all fun limit => 0 < limit && limit < 2 ^ 63)
    (.invalidData "forwarding quota must be a positive signed 64-bit byte count, or null for unlimited")
  let _ ← lockUserTx db tenantId userId
  let key := (tenantId, userId, nodeId)
  let _ ← found (db.entitlements.get? key) (.notFound "forwarding entitlement")
  let quotas := db.quotas.upsert key fun quota =>
    { quota.getD ⟨none, false, none⟩ with limitBytes }
  return { db with quotas }

/-- A quota is spent. -/
def spent (out : Surroundings) (key : EntitlementKey) (quota : NodeQuota) : Bool :=
  quota.limitBytes.any fun limit => limit ≤ out.cycleUsed key

/-- Machine, tenant, user: the order quotas are worked on. -/
def workOrder (key : EntitlementKey) : String ×ₗ String ×ₗ String :=
  toLex (key.2.2, toLex (key.1, key.2.1))

/-- The quotas whose suspension is not what their usage asks for. -/
def quotasDue (out : Surroundings) (db : Db) : List (EntitlementKey × NodeQuota) :=
  ((db.quotas.rows.filter fun row => db.entitlements.contains row.1
      && decide (row.2.suspended ≠ spent out row.1 row.2)).insertionSort
    fun a b => workOrder a.1 ≤ workOrder b.1).take 128

/-- Suspend or restore: the counter, the job and the quota's row. -/
def enforceOne (out : Surroundings) (db : Db) (due : EntitlementKey × NodeQuota) : Db :=
  let suspended := spent out due.1 due.2
  let bumped := bumpNodeGeneration db due.1.2.2
  let canceled := cancelJobsTx bumped due.1
  let job : QuotaJob := {
    key := due.1, generation := generation bumped due.1.2.2, suspended, status := .queued
    lastError := none }
  { canceled with
    jobs := canceled.jobs.put db.nextJobId job
    nextJobId := db.nextJobId + 1
    quotas := canceled.quotas.put due.1
      { due.2 with suspended, lastJobId := some db.nextJobId } }

/-- Some quota was changed by the job last. -/
def isLastJob (db : Db) (id : ℕ) : Bool := db.quotas.rows.any fun row => row.2.lastJobId = some id

/-- Pending jobs whose quota or entitlement is gone. -/
def orphanJobs (db : Db) : List ℕ :=
  (((db.jobs.rows.filter fun row => row.2.pending && !isLastJob db row.1).map Prod.fst).insertionSort
    (· ≤ ·)).take 128

/-- Jobs without a rule are canceled. -/
def cancelOrphans (db : Db) : Db :=
  let orphans := orphanJobs db
  { db with jobs := db.jobs.update fun id job =>
      if id ∈ orphans then { job with status := .canceled, lastError := some "配额或转发授权已移除" }
      else job }

def enforceQuotas (out : Surroundings) (db : Db) : Db :=
  cancelOrphans ((quotasDue out db).foldl (enforceOne out) db)

/-! ### Periods of service -/

/-- A user's service period, as written. -/
structure UserServicePolicyWrite where
  trafficResetDay : ℕ
  (serviceStartsAt serviceExpiresAt : Option ℤ)

/-- Before its start or from its end on. -/
def outOfService (startsAt expiresAt : Option ℤ) (now : ℤ) : Bool :=
  startsAt.any (now < ·) || expiresAt.any (· ≤ now)

/-- Whether a service period can be written. -/
def validateService (policy : UserServicePolicyWrite) : Except StoreError Unit := do
  require (1 ≤ policy.trafficResetDay && policy.trafficResetDay ≤ 31)
    (.invalidData "流量重置日需在 1–31 日之间")
  require (policy.serviceStartsAt.all fun starts => policy.serviceExpiresAt.all (starts < ·))
    (.invalidData "到期时间必须晚于生效时间")

/-- Advance the counter of every machine the users have an entitlement on. -/
def bumpForwardingTx (db : Db) (users : List (String × String)) : Db :=
  bumpNodes db ((db.entitlements.keys.filter fun key => (key.1, key.2.1) ∈ users).map fun key => key.2.2)

/-- An operator writes a service period. -/
def updateService (out : Surroundings) (db : Db) (actor : AdminContext) (tenantId userId : String)
    (policy : UserServicePolicyWrite) : Except StoreError Db := do
  actor.requireTenantAccess tenantId "user service policy"
  validateService policy
  let user ← lockUserTx db tenantId userId
  let row := { user with
    serviceSuspended := outOfService policy.serviceStartsAt policy.serviceExpiresAt out.now
    trafficResetDay := policy.trafficResetDay
    serviceStartsAt := policy.serviceStartsAt
    serviceExpiresAt := policy.serviceExpiresAt }
  let updated := { db with users := db.users.put (tenantId, userId) row }
  return if user.serviceSuspended ≠ row.serviceSuspended then
      bumpForwardingTx updated [(tenantId, userId)]
    else updated

/-- Whether a user's period began or ended. -/
def UserRow.due (user : UserRow) (now : ℤ) : Bool :=
  decide (user.serviceSuspended ≠ outOfService user.serviceStartsAt user.serviceExpiresAt now)

/-- The users whose period has begun or ended since they were last looked at. -/
def usersDue (out : Surroundings) (db : Db) : List (String × String) :=
  (((db.users.rows.filter fun row => row.2.due out.now).map Prod.fst).insertionSort
    fun a b => toLex a ≤ toLex b).take 128

/-- One pass of the service worker. -/
def enforceService (out : Surroundings) (db : Db) : Db :=
  let due := usersDue out db
  let users := db.users.update fun key user =>
    if key ∈ due then
      { user with
        serviceSuspended := outOfService user.serviceStartsAt user.serviceExpiresAt out.now }
    else user
  bumpForwardingTx { db with users } due

/-! ### Accounts and machines -/

/-- An operator writes a user's status. -/
def updateUserStatus (db : Db) (actor : AdminContext) (tenantId userId : String)
    (status : UserStatus) : Except StoreError Db := do
  actor.requireTenantAccess tenantId "user"
  let user ← found (db.users.get? (tenantId, userId)) (.notFound s!"user {tenantId}/{userId}")
  return { db with users := db.users.put (tenantId, userId) { user with status } }

/-- An operator retires a machine. -/
def updateNodeStatus (db : Db) (actor : AdminContext) (nodeId : String) (retired : Bool) :
    Except StoreError Db := do
  require (actor.role = .systemAdmin) (.forbidden "only system-admin can retire nodes")
  let node ← found (db.nodes.get? nodeId) (.notFound s!"node {nodeId}")
  return { db with nodes := db.nodes.put nodeId { node with retired } }

/-! ### A machine's answer -/

/-- An old receipt can prove a public address, whatever the policy. -/
def completeResult (rules : List ForwardingRuleDesired) (result : ForwardingRuleReconcileResult) :
    ForwardingRuleReconcileResult :=
  match rules.find? fun rule => rule.id = result.rule.id with
  | none => result
  | some expected =>
    if result.rule.allowPrivateTargets.isNone && targetHostIsPublicIp result.rule.targetHost then
      { result with rule :=
          { result.rule with allowPrivateTargets := expected.allowPrivateTargets } }
    else result

/-- The result is about a rule that is asked for, and claims nothing the report does not. -/
def resultMatches (rules : List ForwardingRuleDesired) (report : ForwardingReconcileReport)
    (result : ForwardingRuleReconcileResult) : Bool :=
  (rules.find? fun rule => rule.id = result.rule.id) = some result.rule
    && (!result.applied || (decide (result.rule.id ∈ report.appliedRuleIds) && result.error.isNone))
    && (report.error.isSome || (result.applied && result.error.isNone))

/-- Every rule once, each with a result that matches. -/
def checkResults (rules : List ForwardingRuleDesired) (report : ForwardingReconcileReport)
    (results : List ForwardingRuleReconcileResult) :
    Except StoreError (List ForwardingRuleReconcileResult) := do
  let completed := results.map (completeResult rules)
  require ((completed.map (·.rule.id)).Nodup && completed.all (resultMatches rules report))
    (.invalidData "forwarding rule result does not match the desired configuration")
  require ((completed.map (·.rule.id)).toFinset = (rules.map (·.id)).toFinset)
    (.invalidData "forwarding per-rule report is incomplete")
  return completed

/-- What is stored of the results; a success without any speaks for all rules. -/
def reportedResults (rules : List ForwardingRuleDesired) (report : ForwardingReconcileReport) :
    Except StoreError (Option (List ForwardingRuleReconcileResult)) :=
  match report.ruleResults with
  | some results => (checkResults rules report results).map some
  | none =>
    .ok (if report.error.isNone then some (rules.map fun rule => ⟨rule, true, none⟩) else none)

/-- What a job becomes when its machine answers. -/
def acknowledgedTx (db : Db) (nodeId : String) (generation : ℤ) (error : Option String) : Db :=
  { db with jobs := db.jobs.update fun id job =>
      if job.pending && job.key.2.2 = nodeId && job.generation ≤ generation && isLastJob db id then
        { job with
          status := if error.isNone then .succeeded else .running
          lastError := error }
      else job }

/-- Whether a report can be stored. -/
def validateReport (report : ForwardingReconcileReport) : Except StoreError Unit := do
  require (report.appliedRuleIds.length ≤ 1024)
    (.invalidData "forwarding reconcile report has too many rules")
  require (report.error.all (·.utf8ByteSize ≤ 4096))
    (.invalidData "forwarding reconcile error is too long")
  require (report.ruleResults.all fun results => results.length ≤ 1024
      && results.all fun result => result.error.all (·.utf8ByteSize ≤ 384))
    (.invalidData "forwarding rule results exceed their bounds")

/-- The answer to what was asked at this counter. -/
def storeReport (db : Db) (nodeId : String) (rules : List ForwardingRuleDesired)
    (report : ForwardingReconcileReport) : Except StoreError Db := do
  let wanted := (rules.map (·.id)).toFinset
  let applied := report.appliedRuleIds.toFinset
  require (report.error.isSome || applied ⊆ wanted)
    (.invalidData "forwarding reconcile report contains rules not desired on this node")
  require (report.error.isSome || applied = wanted)
    (.invalidData "successful forwarding reconcile report is incomplete")
  let ruleResults ← reportedResults rules report
  let nodeStates := db.nodeStates.upsert nodeId fun state =>
    { state.getD .initial with
      appliedGeneration := some report.generation
      reconcileStatus := if report.error.isNone then .converged else .error
      appliedRuleIds := report.appliedRuleIds
      lastError := report.error
      ruleResults }
  return acknowledgedTx { db with nodeStates } nodeId report.generation report.error

/-- In order and each once, as a report's rules are taken. -/
def normalizeReport (report : ForwardingReconcileReport) : ForwardingReconcileReport :=
  { report with appliedRuleIds := report.appliedRuleIds.dedup.insertionSort (· ≤ ·) }

/-- A read is a policy pass and then, the counter's row locked, the counter and the list.  A
transaction that commits between the two is one the pass has not seen. -/
def lockedRead (db : Db) (nodeId : String) : Db × ForwardingDesiredState :=
  let read := { db with nodeStates := db.nodeStates.upsert nodeId fun state => state.getD .initial }
  (read, ⟨generation read nodeId, desiredRules read nodeId⟩)

/-- The answer is to what is asked now, or it is dropped. -/
def answerTo (desired : Db × ForwardingDesiredState) (nodeId : String)
    (sent : ForwardingReconcileReport) : Except StoreError Db := do
  let report := normalizeReport sent
  validateReport report
  if desired.2.generation = report.generation then
    storeReport desired.1 nodeId desired.2.rules report
  else return desired.1

/-- The answer to a report. -/
def recordReconcile (db : Db) (nodeId : String) (sent : ForwardingReconcileReport) :
    Except StoreError Db := answerTo (desiredForNodeTx db nodeId) nodeId sent

end Brocade.Forwarding
