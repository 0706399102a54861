/-
Quota enforcement and the operators.

A round reads what is spent and what is to be restored, takes the lock of the model some
time later, and then goes through its plan, reading the usage again before each change.
Operators change grants under the same lock; usage, quotas and the beginning of a cycle
move at any time.  A round that fails leaves everything as it was.

A suspension is the worker's note that it was the worker that took a grant away.
-/
import Mathlib.Data.Finset.Sort
import Mathlib.Data.Prod.Lex
import Brocade.Usage.Record

namespace Brocade.Quota

open Usage (StoreError)

def QUOTA_ACTOR : String := "system:quota"

/-- A grant: tenant, user, app and ingress, in the order of a plan. -/
abbrev QuotaGrantChange := String ×ₗ String ×ₗ String ×ₗ String

namespace QuotaGrantChange

/-- The parts of a key. -/
def tenantId (key : QuotaGrantChange) : String := key.1
def userId (key : QuotaGrantChange) : String := key.2.1
def appId (key : QuotaGrantChange) : String := key.2.2.1
def ingressId (key : QuotaGrantChange) : String := key.2.2.2

end QuotaGrantChange

/-- Tenant, user and app: what a quota is of. -/
abbrev Scope := String × String × String

def scopeOf (key : QuotaGrantChange) : Scope :=
  (QuotaGrantChange.tenantId key, QuotaGrantChange.userId key, QuotaGrantChange.appId key)

/-- A quota of a user in an app. -/
structure UserAppQuota where
  limitBytes : ℕ
  /-- the exhausted action is to suspend -/
  suspends : Bool

/-- The quotas, and what is used of them in the current cycles. -/
structure CycleUsage where
  quotas : Scope → Option UserAppQuota
  used : Scope → ℕ

/-- The tables of enforcement. -/
structure Db where
  users : Finset (String × String)
  /-- app and ingress -/
  ingresses : Finset (String × String)
  (grants suspensions : Finset QuotaGrantChange)
  revision : ℕ

/-- The quota is spent. -/
def quotaExceeded (usage : CycleUsage) (key : QuotaGrantChange) : Bool :=
  match usage.quotas (scopeOf key) with
  | some quota => quota.suspends && decide (quota.limitBytes ≤ usage.used (scopeOf key))
  | none => false

/-! ### Planning -/

/-- Grants whose quota is spent. -/
def planSuspend (db : Db) (usage : CycleUsage) : List QuotaGrantChange :=
  (db.grants.filter fun key => quotaExceeded usage key).sort

/-- Suspensions that no spent quota holds down. -/
def planRestore (db : Db) (usage : CycleUsage) : List QuotaGrantChange :=
  (db.suspensions.filter fun key => !quotaExceeded usage key).sort

/-! ### A change of a grant -/

/-- Who decides. -/
structure AdminContext where
  operatorId : String
  systemAdmin : Bool
  tenantScope : Option String

def quotaActor : AdminContext := ⟨QUOTA_ACTOR, true, none⟩

/-- The tenant or one below it. -/
def tenantInScope (tenantId scope : String) : Bool :=
  tenantId = scope || (Text.stripPrefix? scope tenantId).any fun rest => Text.startsWith rest "."

/-- The tenant is the actor's. -/
def AdminContext.canAccessTenant (actor : AdminContext) (tenantId : String) : Bool :=
  actor.systemAdmin || actor.tenantScope.any fun scope => tenantInScope tenantId scope

/-- The operator's side: no enabling over a spent quota, and the suspension is cleared.
`supported` is what the machine of the ingress says to rate limits. -/
def prepareOperatorGrantTx (db : Db) (usage : CycleUsage) (actor : AdminContext)
    (key : QuotaGrantChange) (enabled supported : Bool) : Except StoreError Db :=
  if actor.operatorId = QUOTA_ACTOR then .ok db
  else if enabled && !supported then
    .error (.unsupported "该用户已设置用户限速，请先升级入口机器的 Agent 和 Xray，并等待能力确认")
  else if enabled && quotaExceeded usage key then
    .error (.unsupported
      s!"grant {key.1}/{key.2.1}/{key.2.2.1}/{key.2.2.2} cannot be enabled while its current cycle quota is exhausted; raise or remove the quota first")
  else .ok { db with suspensions := db.suspensions.erase key }

/-- A grant is whether its row exists; `true` where that changed. -/
def upsertGrantTx (db : Db) (usage : CycleUsage) (actor : AdminContext) (key : QuotaGrantChange)
    (enabled supported : Bool) : Except StoreError (Db × Bool) :=
  if !actor.canAccessTenant (QuotaGrantChange.tenantId key) then
    .error (.forbidden "grant is outside tenant scope")
  else if (key.1, key.2.1) ∉ db.users then .error (.notFound s!"user {key.1}/{key.2.1}")
  else if (key.2.2.1, key.2.2.2) ∉ db.ingresses then
    .error (.notFound s!"ingress {key.2.2.1}/{key.2.2.2}")
  else
    match prepareOperatorGrantTx db usage actor key enabled supported with
    | .error e => .error e
    | .ok db =>
      if enabled then .ok ({ db with grants := insert key db.grants }, decide (key ∉ db.grants))
      else .ok ({ db with grants := db.grants.erase key }, decide (key ∈ db.grants))

/-! ### A round -/

/-- What was decided of a grant, and with what reading of its quota. -/
inductive LogEntry where
  | suspended (key : QuotaGrantChange) (exceeded : Bool)
  | restored (key : QuotaGrantChange) (exceeded : Bool)
  | operator (key : QuotaGrantChange) (enabled : Bool)
deriving DecidableEq

/-- What a round is to do. -/
structure QuotaEnforcementPlan where
  (suspend restore : List QuotaGrantChange)

/-- The worker's transaction. -/
structure Round where
  /-- what is still to be done -/
  plan : QuotaEnforcementPlan
  db : Db
  changed : Bool
  applied : QuotaEnforcementPlan
  /-- the newest first; nothing reads it -/
  log : List LogEntry

/-- One grant is to be taken. -/
def suspendItem (usage : CycleUsage) (round : Round) (key : QuotaGrantChange) :
    Except StoreError Round :=
  let exceeded := quotaExceeded usage key
  if !exceeded then .ok round
  else
    match upsertGrantTx round.db usage quotaActor key false true with
    | .error e => .error e
    | .ok (db, false) => .ok { round with db := db }
    | .ok (db, true) =>
      -- only the transaction that removes the grant owns a suspension
      .ok { round with
        db := { db with suspensions := insert key db.suspensions }
        changed := true
        applied := { round.applied with suspend := round.applied.suspend ++ [key] }
        log := .suspended key exceeded :: round.log }

def clearSuspension (db : Db) (key : QuotaGrantChange) : Db :=
  { db with suspensions := db.suspensions.erase key }

/-- One grant is to be given back. -/
def restoreItem (usage : CycleUsage) (round : Round) (key : QuotaGrantChange) :
    Except StoreError Round :=
  let exceeded := quotaExceeded usage key
  if exceeded then .ok round
  else if (key.2.2.1, key.2.2.2) ∉ round.db.ingresses then
    .ok { round with db := clearSuspension round.db key }
  else if key ∉ round.db.suspensions then .ok round
  else
    match upsertGrantTx (clearSuspension round.db key) usage quotaActor key true true with
    | .error e => .error e
    | .ok (db, false) => .ok { round with db := db }
    | .ok (db, true) =>
      .ok { round with
        db := db
        changed := true
        applied := { round.applied with restore := round.applied.restore ++ [key] }
        log := .restored key exceeded :: round.log }

/-- The next item of the plan. -/
def applyNext (usage : CycleUsage) (round : Round) : Except StoreError Round :=
  match round.plan.suspend, round.plan.restore with
  | key :: rest, restore => suspendItem usage { round with plan := ⟨rest, restore⟩ } key
  | [], key :: rest => restoreItem usage { round with plan := ⟨[], rest⟩ } key
  | [], [] => .ok round

/-! ### Runs -/

/-- The database and the worker. -/
structure State where
  db : Db
  usage : CycleUsage
  /-- what was planned so far -/
  (suspendPlans restorePlans : List (List QuotaGrantChange))
  /-- the worker's transaction, which holds the lock -/
  round : Option Round
  log : List LogEntry

/-- Anybody but the worker. -/
structure Operator where
  actor : AdminContext
  notWorker : actor.operatorId ≠ QUOTA_ACTOR

/-- The steps of the system. -/
inductive Event where
  | planSuspend
  | planRestore
  /-- a round takes the lock, with what was planned at some time -/
  | lock (suspend restore : ℕ)
  | applyNext
  | commit
  | rollback
  | operator (operator : Operator) (key : QuotaGrantChange) (enabled supported : Bool)
  /-- traffic, a reset, a cycle that begins, a quota that is edited -/
  | usage (usage : CycleUsage)
  | createUser (tenantId userId : String)
  | deleteUser (tenantId userId : String)
  | createIngress (appId ingressId : String)
  | deleteIngress (appId ingressId : String)

/-- A change of the model waits for the lock. -/
def locked (s : State) (change : State → State) : State := if s.round.isSome then s else change s

/-- A round gets the lock. -/
def takeLock (i j : ℕ) (s : State) : State :=
  match s.suspendPlans[i]?, s.restorePlans[j]? with
  | some suspend, some restore =>
    { s with round := some ⟨⟨suspend, restore⟩, s.db, false, ⟨[], []⟩, []⟩ }
  | _, _ => s

/-- The round's next grant. -/
def work (s : State) : State :=
  match s.round with
  | none => s
  | some round =>
    match applyNext s.usage round with
    | .ok round => { s with round := some round }
    | .error _ => { s with round := none }

/-- The round ends. -/
def commit (s : State) : State :=
  match s.round with
  | none => s
  | some round =>
    if round.plan.suspend = [] ∧ round.plan.restore = [] then
      { s with
        db := { round.db with
          revision := if round.changed then s.db.revision + 1 else s.db.revision }
        round := none
        log := round.log ++ s.log }
    else s

/-- An operator decides. -/
def operate (operator : Operator) (key : QuotaGrantChange) (enabled supported : Bool) (s : State) :
    State :=
  match upsertGrantTx s.db s.usage operator.actor key enabled supported with
  | .error _ => s
  | .ok (db, changed) =>
    { s with
      db := { db with revision := if changed then s.db.revision + 1 else s.db.revision }
      log := .operator key enabled :: s.log }

/-- A user is created. -/
def createUser (tenantId userId : String) (s : State) : State :=
  { s with db := { s.db with
      users := insert (tenantId, userId) s.db.users
      revision := s.db.revision + 1 } }

/-- A user who holds a grant stays; the suspensions of one who goes go too. -/
def deleteUser (tenantId userId : String) (s : State) : State :=
  if ∃ key ∈ s.db.grants, (key.1, key.2.1) = (tenantId, userId) then s
  else
    { s with db := { s.db with
        users := s.db.users.erase (tenantId, userId)
        suspensions := s.db.suspensions.filter fun key => (key.1, key.2.1) ≠ (tenantId, userId)
        revision := s.db.revision + 1 } }

/-- An ingress is created. -/
def createIngress (appId ingressId : String) (s : State) : State :=
  { s with db := { s.db with
      ingresses := insert (appId, ingressId) s.db.ingresses
      revision := s.db.revision + 1 } }

/-- The grants of an ingress go with it, the suspensions stay. -/
def deleteIngress (appId ingressId : String) (s : State) : State :=
  { s with db := { s.db with
      ingresses := s.db.ingresses.erase (appId, ingressId)
      grants := s.db.grants.filter fun key => key.2.2.2 ≠ ingressId
      revision := s.db.revision + 1 } }

/-- The Store behind one event. -/
def step (s : State) : Event → State
  | .planSuspend => { s with suspendPlans := planSuspend s.db s.usage :: s.suspendPlans }
  | .planRestore => { s with restorePlans := planRestore s.db s.usage :: s.restorePlans }
  | .lock i j => locked s (takeLock i j)
  | .applyNext => work s
  | .commit => commit s
  | .rollback => { s with round := none }
  | .operator operator key enabled supported => locked s (operate operator key enabled supported)
  | .usage usage => { s with usage := usage }
  | .createUser tenantId userId => locked s (createUser tenantId userId)
  | .deleteUser tenantId userId => locked s (deleteUser tenantId userId)
  | .createIngress appId ingressId => locked s (createIngress appId ingressId)
  | .deleteIngress appId ingressId => locked s (deleteIngress appId ingressId)

/-- A model none of whose grants is suspended yet. -/
def start (db : Db) (usage : CycleUsage) : State :=
  ⟨{ db with suspensions := ∅ }, usage, [], [], none, []⟩

def run (s : State) (events : List Event) : State := events.foldl step s

end Brocade.Quota
