/-
A user's speed cap, and the bytes the control plane reserves under it.

One user in one app is a scope.  Its policy is read off two rows, a quota and a constant rate,
and comes to one effect.  While the effect is a limit, machines ask for bytes one call at a
time, and a single row per scope serializes them: it holds the instant from which the next
bytes may be given.  A receipt answers a request asked again, and the machines that asked in
the last two seconds take turns and share the rate.

Instants are rationals, in seconds.
-/
import Brocade.Traffic.Record
import Brocade.Usage.Record
import Mathlib.Data.Rat.Floor

namespace Brocade.Budget

open Usage (StoreError)

def MAX_BUDGET_BYTES : ℕ := 16 * 1024 * 1024
def BUDGET_TTL_MS : ℕ := 2000

/-! ### Policies -/

/-- What becomes of a user whose quota is spent. -/
inductive ExhaustedAction where
  | suspend
  | throttle (rateBps : ℕ)

/-- The policy of one scope. -/
structure UserTrafficPolicy where
  (quotaBytes baseRateBps : Option ℕ)
  exhaustedAction : ExhaustedAction

/-- What a policy comes to. -/
inductive UserTrafficEffect where
  | unlimited (managed : Bool)
  | limited (rateBps : ℕ)
  | suspended
deriving DecidableEq

def ExhaustedAction.isThrottle : ExhaustedAction → Bool
  | .suspend => false
  | .throttle _ => true

/-- Whether bytes have to be asked for. -/
def UserTrafficPolicy.needsBudget (policy : UserTrafficPolicy) : Bool :=
  policy.baseRateBps.isSome || (policy.quotaBytes.isSome && policy.exhaustedAction.isThrottle)

/-- The normal speed, or no limit. -/
def UserTrafficPolicy.atRate (policy : UserTrafficPolicy) : Option ℕ → UserTrafficEffect
  | none => .unlimited policy.needsBudget
  | some rate => .limited rate

/-- What a policy comes to. -/
def UserTrafficPolicy.effect (policy : UserTrafficPolicy) (exhausted available : Bool) :
    UserTrafficEffect :=
  if available = false then .suspended
  else if policy.quotaBytes.isSome && exhausted then
    match policy.exhaustedAction with
    | .suspend => .suspended
    | .throttle rate => policy.atRate (some ((policy.baseRateBps.map (min · rate)).getD rate))
  else policy.atRate policy.baseRateBps

/-- A row of `user_app_quotas`; a rate comes with the throttling action and no other. -/
structure QuotaRow where
  limitBytes : ℕ
  action : ExhaustedAction
  exhausted : Bool

/-- What two tables hold of a scope. -/
structure ScopeRows where
  quota : Option QuotaRow
  baseRateBps : Option ℕ

namespace ScopeRows

/-- The row of `user_traffic_scopes`, decoded; none where neither table has one. -/
def policy (rows : ScopeRows) : Option UserTrafficPolicy :=
  if rows.quota.isNone && rows.baseRateBps.isNone then none
  else some ⟨rows.quota.map (·.limitBytes), rows.baseRateBps,
    (rows.quota.map (·.action)).getD .suspend⟩

def exhausted (rows : ScopeRows) : Bool := (rows.quota.map (·.exhausted)).getD false

/-- The view's column `budget_managed`. -/
def budgetManaged (rows : ScopeRows) : Bool :=
  rows.baseRateBps.isSome || (rows.quota.map (·.action.isThrottle)).getD false

/-- What the policy comes to for a user in service. -/
def effect (rows : ScopeRows) : Option UserTrafficEffect :=
  rows.policy.map fun policy => policy.effect rows.exhausted true

end ScopeRows

/-! ### Whose bytes a source asks for -/

/-- One user in one app. -/
structure Scope where
  (tenantId userId appId : String)
deriving DecidableEq

/-- A user's access to an ingress. -/
structure Grant where
  (tenantId userId ingressId appId : String)

/-- Where an ingress is. -/
structure Ingress where
  (appId nodeId : String)
deriving DecidableEq

/-- A forwarding rule in force, with its owner. -/
structure ForwardingRule where
  (tenantId userId : String)
  quotaSuspended : Bool

/-- What the operators maintain, as far as a request is resolved by it. -/
structure Directory where
  grants : List Grant
  ingresses : Table String Ingress
  /-- by rule and node, the rules neither deleted nor disabled -/
  forwarding : Table (ℤ × String) ForwardingRule
  /-- the users that are active and not suspended from service -/
  available : List (String × String)

/-- `str::parse::<i64>`. -/
def parseI64 (s : String) : Option ℤ :=
  let digits := (s.toList.dropWhile fun c => c = '-' || c = '+')
  let value := (digits.foldl (fun n c => 10 * n + (c.toNat - '0'.toNat)) 0 : ℕ)
  let signed := if s.toList.head? = some '-' then -(value : ℤ) else value
  if digits ≠ [] ∧ s.toList.length ≤ digits.length + 1 ∧ digits.all Char.isDigit
      ∧ -(2 ^ 63) ≤ signed ∧ signed < 2 ^ 63 then some signed
  else none

/-- The user, the tenant and the ingress of a label. -/
def parseGrantLabel (label : String) : Option (String × String × String) :=
  (Text.splitOnce? label "@").bind fun user =>
    (Text.splitOnce? user.2 "#").bind fun rest =>
      if user.1 = "" ∨ rest.1 = "" ∨ rest.2 = "" then none else some (user.1, rest.1, rest.2)

/-- The app an ingress of the node is granted in. -/
def Directory.grantApp (dir : Directory) (node tenant user ingress : String) : Option String :=
  (dir.grants.find? fun grant => grant.tenantId = tenant ∧ grant.userId = user
    ∧ grant.ingressId = ingress
    ∧ dir.ingresses.get? ingress = some ⟨grant.appId, node⟩).map (·.appId)

/-- What a source stands for. -/
inductive Identity where
  | invalid
  | unknown
  | forwarding (rule : ForwardingRule)
  | access (scope : Scope)

/-- The scope of an account. -/
def Directory.accessIdentity (dir : Directory) (node : String) :
    Option (String × String × String) → Identity
  | none => .invalid
  | some (user, tenant, ingress) =>
    ((dir.grantApp node tenant user ingress).map fun app =>
      Identity.access ⟨tenant, user, app⟩).getD .unknown

/-- The scope of a source on a machine. -/
def Directory.identity (dir : Directory) (node source : String) : Identity :=
  match (Text.stripPrefix? "fwd:" source).bind parseI64 with
  | some id => ((dir.forwarding.get? (id, node)).map .forwarding).getD .unknown
  | none => dir.accessIdentity node (parseGrantLabel source)

/-! ### Reserving bytes -/

/-- A machine's request for bytes. -/
structure UserBudgetRequest where
  (source requestId : String)
  bytes : ℕ

/-- What the control plane answers. -/
inductive UserBudgetGrant where
  | unlimited (validMs : ℕ) (managed : Bool)
  | suspended (validMs : ℕ)
  | limited (bytes rateBps validMs : ℕ)
  | retry (afterMs : ℕ)

/-- What was given, and until when. -/
structure Receipt where
  (bytes rateBps : ℕ)
  expiresAt : ℚ

/-- When a machine asked, and was served. -/
structure Demand where
  seenAt : ℚ
  /-- none stands for `-infinity` -/
  servedAt : Option ℚ

/-- The row of `user_traffic_budgets` and the rows that hang on it. -/
structure Bucket where
  nextAt : ℚ
  /-- by node and request -/
  receipts : Table (String × String) Receipt
  demand : Table String Demand

def Bucket.new (now : ℚ) : Bucket := ⟨now, .empty, .empty⟩

/-- The rows of machines that asked in the last two seconds. -/
def wanting (demand : Table String Demand) (now : ℚ) : List (String × Demand) :=
  demand.rows.filter fun row => now - 2 < row.2.seenAt

/-- `ORDER BY served_at, node_id`. -/
def servedBefore (a b : String × Demand) : Bool :=
  match a.2.servedAt, b.2.servedAt with
  | none, some _ => true
  | some _, none => false
  | none, none => decide (a.1 ≤ b.1)
  | some s, some t => decide (s < t) || (decide (s = t) && decide (a.1 ≤ b.1))

/-- Who is to be served next. -/
def nextNode : List (String × Demand) → Option (String × Demand)
  | [] => none
  | row :: rows =>
    some (((nextNode rows).map fun best => if servedBefore row best then row else best).getD row)

def receiptsOf (node : String) (receipts : Table (String × String) Receipt) : ℕ :=
  (receipts.rows.filter fun row => row.1.1 = node).length

/-- How long a receipt still lives, as the database rounds it. -/
def remainingMs (receipt : Receipt) (now : ℚ) : ℕ :=
  (round (max 0 ((receipt.expiresAt - now) * 1000))).toNat

/-- The bytes one of `active` machines gets of a second's worth. -/
def share (rate active asked : ℕ) : ℕ := min asked (max (rate / 8 / max active 1) 1)

/-- What a call leaves and answers, and whether it inserted a receipt. -/
structure Reservation where
  bucket : Bucket
  grant : UserBudgetGrant
  issued : Bool

/-- The bytes are given: the clock moves on by what they take at the rate. -/
def issue (bucket : Bucket) (rate : ℕ) (node requestId : String) (bytes : ℕ) (now : ℚ) :
    Reservation where
  bucket :=
    { nextAt := now + bytes * 8 / rate
      receipts := bucket.receipts.put (node, requestId) ⟨bytes, rate, now + 2⟩
      demand := bucket.demand.upsert node fun row => ⟨(row.map (·.seenAt)).getD now, some now⟩ }
  grant := .limited bytes rate BUDGET_TTL_MS
  issued := true

/-- A request no receipt answers, with the machine's demand noted. -/
def turn (bucket : Bucket) (rate : ℕ) (node : String) (request : UserBudgetRequest) (now : ℚ) :
    Reservation :=
  let waitMs := max 0 ((bucket.nextAt - now) * 1000)
  let active := wanting bucket.demand now
  if 0 < waitMs then ⟨bucket, .retry (max 1 (min ⌈waitMs⌉.toNat 1000)), false⟩
  else if (nextNode active).map Prod.fst ≠ some node then ⟨bucket, .retry 50, false⟩
  else if 8 ≤ receiptsOf node bucket.receipts then ⟨bucket, .retry 250, false⟩
  else issue bucket rate node request.requestId (share rate active.length request.bytes) now

/-- The part of a call that holds the scope's row. -/
def reserve (bucket : Bucket) (rate : ℕ) (node : String) (request : UserBudgetRequest) (now : ℚ) :
    Reservation :=
  let live := bucket.receipts.retain fun _ receipt => now < receipt.expiresAt
  match live.get? (node, request.requestId) with
  -- answered without a commit: the expired receipts stay
  | some receipt =>
    ⟨bucket, .limited receipt.bytes receipt.rateBps (remainingMs receipt now), false⟩
  | none =>
    turn { bucket with
        receipts := live
        demand := bucket.demand.upsert node fun row => ⟨now, row.bind (·.servedAt)⟩ }
      rate node request now

/-- The tables behind the caps. -/
structure Console where
  scopes : Scope → ScopeRows
  budgets : Scope → Option Bucket

/-- What a call answers, for which scope, and whether it inserted a receipt. -/
structure Called where
  console : Console
  grant : UserBudgetGrant
  scope : Option Scope
  issued : Bool

/-- A call for a scope whose user is in service. -/
def Console.budgetScope (console : Console) (scope : Scope) (node : String)
    (request : UserBudgetRequest) (now : ℚ) : Called :=
  match (console.scopes scope).effect with
  | none => ⟨console, .unlimited BUDGET_TTL_MS false, some scope, false⟩
  | some (.unlimited managed) => ⟨console, .unlimited BUDGET_TTL_MS managed, some scope, false⟩
  | some .suspended => ⟨console, .suspended BUDGET_TTL_MS, some scope, false⟩
  | some (.limited rate) =>
    let reservation :=
      reserve ((console.budgets scope).getD (.new now)) rate node request now
    ⟨{ console with budgets := Function.update console.budgets scope (some reservation.bucket) },
      reservation.grant, some scope, reservation.issued⟩

/-- Whether a request can be answered. -/
def validRequest (request : UserBudgetRequest) : Bool :=
  0 < request.bytes && request.bytes ≤ MAX_BUDGET_BYTES && request.source.utf8ByteSize ≤ 512
    && request.requestId.utf8ByteSize = 32 && request.requestId.toList.all Traffic.isHexDigit

def refusedNow (console : Console) : Called :=
  ⟨console, .suspended BUDGET_TTL_MS, none, false⟩

/-- A node asks for bytes. -/
def budget (dir : Directory) (console : Console) (node : String) (request : UserBudgetRequest)
    (now : ℚ) : Except StoreError Called :=
  if validRequest request = false then .error (.invalidData "invalid user budget request")
  else match dir.identity node request.source with
  | .invalid => .error (.invalidData "invalid authenticated traffic source")
  | .unknown => .ok (refusedNow console)
  | .forwarding rule =>
    if rule.quotaSuspended ∨ (rule.tenantId, rule.userId) ∉ dir.available then
      .ok (refusedNow console)
    else .ok ⟨console, .unlimited BUDGET_TTL_MS false, none, false⟩
  | .access scope =>
    if (scope.tenantId, scope.userId) ∉ dir.available then .ok (refusedNow console)
    else .ok (console.budgetScope scope node request now)

/-! ### Editing a policy -/

/-- The trigger behind a deleted quota or rate: the scope's budget goes with the last policy
that needs one. -/
def Console.quotaDeleted (console : Console) (scope : Scope) : Console :=
  if (console.scopes scope).budgetManaged then console
  else { console with budgets := Function.update console.budgets scope none }

/-- The console with the rows. -/
def Console.setRows (console : Console) (scope : Scope) (rows : ScopeRows) : Console :=
  { console with scopes := Function.update console.scopes scope rows }

def Console.deleteQuota (console : Console) (scope : Scope) : Console :=
  if (console.scopes scope).quota.isSome then
    (console.setRows scope { console.scopes scope with quota := none }).quotaDeleted scope
  else console

/-- An operator removes a rate. -/
def Console.deleteBaseRate (console : Console) (scope : Scope) : Console :=
  if (console.scopes scope).baseRateBps.isSome then
    (console.setRows scope { console.scopes scope with baseRateBps := none }).quotaDeleted scope
  else console

/-- `INSERT … ON CONFLICT DO UPDATE` of a quota: a new one is not exhausted. -/
def Console.putQuota (console : Console) (scope : Scope) (limitBytes : ℕ)
    (action : Option QuotaRow → ExhaustedAction) : Console :=
  let old := (console.scopes scope).quota
  console.setRows scope { console.scopes scope with
    quota := some ⟨limitBytes, action old, (old.map (·.exhausted)).getD false⟩ }

/-- The usage of the period against the quota, whatever it is. -/
def Console.evaluate (console : Console) (scope : Scope) (exhausted : Bool) : Console :=
  console.setRows scope { console.scopes scope with
    quota := (console.scopes scope).quota.map fun row => { row with exhausted := exhausted } }

/-- The rate an edit that does not know of it keeps. -/
def Console.keepRate (console : Console) (scope : Scope) (policy : UserTrafficPolicy)
    (replaceBaseRate : Bool) : UserTrafficPolicy :=
  if replaceBaseRate then policy
  else { policy with baseRateBps := (console.scopes scope).baseRateBps }

/-- A rate is written. -/
def Console.writeRate (console : Console) (scope : Scope) (rate : Option ℕ) : Console :=
  (rate.map fun base =>
    console.setRows scope { console.scopes scope with baseRateBps := some base }).getD console

/-- A quota is written. -/
def Console.writeQuota (console : Console) (scope : Scope) (policy : UserTrafficPolicy) : Console :=
  (policy.quotaBytes.map fun quota =>
    console.putQuota scope quota fun _ => policy.exhaustedAction).getD (console.deleteQuota scope)

/-- An administrator writes a scope's policy: the rate before the quota, so that a quota's
deletion finds it. -/
def Console.update (console : Console) (scope : Scope) (policy : UserTrafficPolicy)
    (replaceBaseRate exhausted : Bool) : Console :=
  let policy := console.keepRate scope policy replaceBaseRate
  let written := (console.writeRate scope policy.baseRateBps).writeQuota scope policy
  let written := if policy.baseRateBps.isNone then written.deleteBaseRate scope else written
  written.evaluate scope exhausted

/-- The older form, which knows only the amount. -/
def Console.setUserAppQuota (console : Console) (scope : Scope) (limitBytes : Option ℕ) : Console :=
  (limitBytes.map fun limit =>
    console.putQuota scope limit fun old => (old.map (·.action)).getD .suspend).getD
      (console.deleteQuota scope)

end Brocade.Budget
