/-
What the agent lets through.

A node keeps one entry a source: the credits of the last grant, until when they may be spent,
and when the next bytes may go.  A request waits in `admit` and takes its bytes off the entry
pass by pass; a pass that finds no credits asks the control plane for more while it holds the
entry's lock.  What the clock says is read once a pass.
-/
import Brocade.Budget.Reserve

namespace Brocade.Budget

def MAX_SOURCES : ℕ := 4096
def MAX_REQUEST_BYTES : ℕ := 16384

/-- What an agent holds for one source. -/
structure Entry where
  (credits rate : ℕ)
  (expires next : ℚ)
  (unlimited managed : Bool)
  generation : ℕ
  suspended : Bool
  last : ℚ

def Entry.new (now : ℚ) : Entry := ⟨0, 0, now, now, false, true, 0, false, now⟩

/-- The answer to a connection that asks. -/
inductive Admission where
  | allowed
  | open'
  | pass
  | suspended
deriving DecidableEq

namespace Entry

/-- Nothing of an earlier grant counts. -/
def cleared (entry : Entry) : Entry :=
  { entry with credits := 0, unlimited := false, suspended := false }

/-- An entry of another policy generation starts over. -/
def atGeneration (entry : Entry) (generation : ℕ) (now : ℚ) : Entry :=
  if entry.generation ≠ generation then
    { entry.cleared with expires := now, generation := generation }
  else entry

def unexpired (entry : Entry) (now : ℚ) : Entry :=
  if entry.expires ≤ now then entry.cleared else entry

/-- The entry as a pass finds it. -/
def current (entry : Entry) (generation : ℕ) (now : ℚ) : Entry :=
  (({ entry with last := now } : Entry).atGeneration generation now).unexpired now

end Entry

/-- What a pass comes to. -/
inductive Pass where
  | answered (admission : Admission)
  | fetch
  /-- the next bytes may not go yet -/
  | wait
  | spent (amount : ℕ)

/-- The most a pass takes: a hundredth of a second's worth, of the credits there are. -/
def Entry.amount (entry : Entry) (bytes : ℕ) : ℕ :=
  min (min bytes entry.credits) (max (entry.rate / 800) 1)

/-- Bytes are let through. -/
def Entry.spend (entry : Entry) (amount : ℕ) (now : ℚ) : Entry :=
  { entry with
    credits := entry.credits - amount
    next := now + amount * 8 / entry.rate }

/-- One round of `admit`'s loop, with `bytes` still to pay for. -/
def admitPass (entry : Entry) (generation : ℕ) (now : ℚ) (bytes : ℕ) : Entry × Pass :=
  let state := entry.current generation now
  if state.unlimited then (state, .answered (if state.managed then .open' else .pass))
  else if state.suspended then (state, .answered .suspended)
  else if state.credits = 0 then (state, .fetch)
  else if now < state.next then (state, .wait)
  else (state.spend (state.amount bytes) now, .spent (state.amount bytes))

def expiry (started : ℚ) (validMs : ℕ) : ℚ := started + (validMs : ℚ) / 1000

/-- A grant is taken over, unless it makes no sense or the source cannot be remembered.  It
expires by the instant its request began. -/
def applyGrant (entry : Entry) (started now : ℚ) (remembered : Bool) :
    UserBudgetGrant → Except String Entry
  | .unlimited validMs managed =>
    if remembered = false then .error "user budget checkpoint"
    else .ok { entry with
      unlimited := true, managed := managed
      expires := expiry started (min validMs BUDGET_TTL_MS) }
  | .suspended validMs =>
    if remembered = false then .error "user budget checkpoint"
    else .ok { entry with
      suspended := true, expires := expiry started (min validMs BUDGET_TTL_MS) }
  | .limited bytes rateBps validMs =>
    if bytes = 0 ∨ MAX_BUDGET_BYTES < bytes ∨ rateBps < 1000 ∨ 1000000000000 < rateBps
        ∨ BUDGET_TTL_MS < validMs then .error "invalid global budget grant"
    else if remembered = false then .error "user budget checkpoint"
    else .ok { entry with
      credits := bytes, rate := rateBps, expires := expiry started validMs, next := now }
  | .retry _ => .ok entry

/-! ### A node's service -/

/-- A request to the control plane under way. -/
structure Fetch where
  requestId : String
  started : ℚ

/-- A request inside `admit`; it holds the entry of its source. -/
structure Client where
  source : String
  bytes : ℕ
  fetch : Option Fetch

/-- The grant an entry's credits came with.  No step reads it. -/
@[ext] structure Lease where
  scope : Option Scope
  requestId : String
deriving DecidableEq

/-- The budget service of one agent. -/
structure Service where
  generation : ℕ
  entries : Table String Entry
  clients : Table ℕ Client
  leases : String → Lease

def Service.new : Service := ⟨0, .empty, .empty, fun _ => ⟨none, ""⟩⟩

namespace Service

def holds (service : Service) (source : String) : Bool :=
  service.clients.rows.any fun row => row.2.source = source

/-- A client of the source waits for the control plane, with the entry locked. -/
def locked (service : Service) (source : String) : Bool :=
  service.clients.rows.any fun row => row.2.source = source && row.2.fetch.isSome

/-- What is left of the cache where room is wanted: entries in use, and recent ones. -/
def retained (service : Service) (now : ℚ) : Table String Entry :=
  service.entries.retain fun source entry => service.holds source || decide (now - entry.last < 10)

/-- The entries once the source has one; none where the cache is full. -/
def sourceEntry (service : Service) (source : String) (now : ℚ) : Option (Table String Entry) :=
  if service.entries.contains source then some service.entries
  else if MAX_SOURCES ≤ (service.retained now).rows.length then none
  else some ((service.retained now).put source (.new now))

theorem of_sourceEntry {service : Service} {source other : String} {now : ℚ}
    {entries : Table String Entry} {entry : Entry} (h : service.sourceEntry source now = some entries)
    (hentry : entries.get? other = some entry) :
    service.entries.get? other = some entry ∨ entry = .new now := by
  unfold sourceEntry at h
  split at h
  · cases h
    exact .inl hentry
  split at h
  · cases h
  cases h
  rcases Table.of_get?_put hentry with ⟨-, rfl⟩ | ⟨-, hold⟩
  · exact .inr rfl
  · rw [retained, Table.get?_retain] at hold
    exact .inl (Option.filter_eq_some_iff.mp hold).1

def setEntry (service : Service) (source : String) (entry : Entry) : Service :=
  { service with entries := service.entries.put source entry }

def setClient (service : Service) (id : ℕ) (client : Client) : Service :=
  { service with clients := service.clients.put id client }

/-- A request is answered, or its connection ends. -/
def dropClient (service : Service) (id : ℕ) : Service :=
  { service with clients := service.clients.deleteWhere fun other => other = id }

/-- The assignments changed: credits of earlier ones no longer count. -/
def synchronize (service : Service) : Service :=
  { service with generation := service.generation + 1 }

/-- The service with the lease. -/
def setLease (service : Service) (source : String) (lease : Lease) : Service :=
  { service with leases := Function.update service.leases source lease }

end Service

end Brocade.Budget
