/-
Machines, the control plane, and what happens between them.

Requests that were sent stay sent: the control plane may come to any of them at any time, more
than once or never, and through any of its instances, which share the tables.  Answers stay
given in the same way; a request under way takes at most one of them, or fails.  Operators edit
policies and assignments in between.

Two logs are kept: the bytes of every receipt when it is inserted, and the bytes a pass of
`admit` lets through when it does, on the account of the scope and the request its entry's grant
came with.
-/
import Brocade.Budget.Admit
import Brocade.Lib.Pacing

namespace Brocade.Budget

open Pacing (Move)

/-- On whose account bytes move. -/
structure Account where
  scope : Option Scope
  (node requestId : String)
deriving DecidableEq

/-- A request on its way. -/
structure Sent where
  node : String
  request : UserBudgetRequest
  started : ℚ

/-- An answer on its way back. -/
structure Answer where
  (node requestId : String)
  scope : Option Scope
  grant : UserBudgetGrant

/-- The control plane, the machines and what is between them. -/
structure World where
  now : ℚ
  console : Console
  services : String → Service
  sent : List Sent
  answers : List Answer
  /-- newest first -/
  (issued admitted : List (Move Account ℚ))

/-- The steps of a run. -/
inductive Event where
  | tick (elapsed : ℚ)
  | update (scope : Scope) (policy : UserTrafficPolicy) (replaceBaseRate exhausted : Bool)
  | setUserAppQuota (scope : Scope) (limitBytes : Option ℕ)
  | evaluate (scope : Scope) (exhausted : Bool)
  /-- the control plane comes to a sent request -/
  | budget (dir : Directory) (i : ℕ)
  | serve (node : String) (client : ℕ) (source : String) (bytes : ℕ)
  /-- a round of `admit`'s loop, with the identity of the request it may send -/
  | pass (node : String) (client : ℕ) (requestId : String)
  | answer (node : String) (client i : ℕ) (remembered : Bool)
  /-- a request fails, or its connection ends -/
  | fail (node : String) (client : ℕ)
  | synchronize (node : String)
  | restart (node : String)

namespace World

def setService (w : World) (node : String) (service : Service) : World :=
  { w with services := Function.update w.services node service }

/-! ### The control plane -/

/-- What a call leaves: its answer, and the bytes of a new receipt. -/
def called (w : World) (sent : Sent) (result : Called) : World :=
  { w with
    console := result.console
    answers := ⟨sent.node, sent.request.requestId, result.scope, result.grant⟩ :: w.answers
    issued := match result.issued, result.grant with
      | true, .limited bytes _ _ =>
        ⟨⟨result.scope, sent.node, sent.request.requestId⟩, w.now, bytes⟩ :: w.issued
      | _, _ => w.issued }

/-- A request arrives. -/
def call (w : World) (dir : Directory) (sent : Sent) : World :=
  match Budget.budget dir w.console sent.node sent.request w.now with
  | .ok result => w.called sent result
  | .error _ => w

/-! ### The machines -/

/-- A local request reaches `admit`. -/
def serve (w : World) (node : String) (client : ℕ) (source : String) (bytes : ℕ) : World :=
  let service := w.services node
  if bytes = 0 ∨ MAX_REQUEST_BYTES < bytes ∨ 512 < source.utf8ByteSize
      ∨ service.clients.contains client then w
  else match service.sourceEntry source w.now with
    | none => w
    | some entries =>
      w.setService node
        (({ service with entries := entries } : Service).setClient client ⟨source, bytes, none⟩)

/-- The request a pass sends; its identity is drawn at random and was never drawn before. -/
def fetch (w : World) (node : String) (id : ℕ) (client : Client) (requestId : String) : World :=
  if w.sent.any fun sent => sent.node = node && sent.request.requestId = requestId then w
  else
    { w.setService node ((w.services node).setClient id
        { client with fetch := some ⟨requestId, w.now⟩ }) with
      sent := ⟨node, ⟨client.source, requestId, MAX_BUDGET_BYTES⟩, w.now⟩ :: w.sent }

/-- Bytes go through on the account of the entry's grant. -/
def admitBytes (w : World) (node source : String) (bytes : ℕ) : World :=
  let lease := (w.services node).leases source
  { w with admitted := ⟨⟨lease.scope, node, lease.requestId⟩, w.now, bytes⟩ :: w.admitted }

/-- A request with `bytes` paid for is answered once none are left. -/
def paid (w : World) (node : String) (id : ℕ) (client : Client) (bytes : ℕ) : World :=
  if client.bytes - bytes = 0 then w.setService node ((w.services node).dropClient id)
  else w.setService node ((w.services node).setClient id
    { client with bytes := client.bytes - bytes })

/-- What a pass does beside the entry. -/
def passed (w : World) (node : String) (id : ℕ) (client : Client) (requestId : String) :
    Pass → World
  | .answered .suspended => w.setService node ((w.services node).dropClient id)
  -- an open answer lets everything of the request through
  | .answered _ =>
    (w.admitBytes node client.source client.bytes).setService node
      ((w.services node).dropClient id)
  | .fetch => w.fetch node id client requestId
  | .wait => w
  | .spent amount => (w.admitBytes node client.source amount).paid node id client amount

/-- A client is looked at again. -/
def pass (w : World) (node : String) (id : ℕ) (requestId : String) : World :=
  let service := w.services node
  match service.clients.get? id with
  | none => w
  | some client =>
    match service.entries.get? client.source with
    | none => w
    | some entry =>
      if service.locked client.source then w
      else
        let result := admitPass entry service.generation w.now client.bytes
        (w.setService node (service.setEntry client.source result.1)).passed node id client
          requestId result.2

/-- A grant reaches the request that asked for it. -/
def take (w : World) (node : String) (id : ℕ) (client : Client) (fetch : Fetch) (answer : Answer)
    (remembered : Bool) : World :=
  let service := w.services node
  match (service.entries.get? client.source).map fun entry =>
      applyGrant entry fetch.started w.now remembered answer.grant with
  | some (.ok entry) =>
    w.setService node (((service.setEntry client.source entry).setLease client.source
      ⟨answer.scope, answer.requestId⟩).setClient id { client with fetch := none })
  | _ => w.setService node (service.dropClient id)

/-- An answer arrives. -/
def answer (w : World) (node : String) (id i : ℕ) (remembered : Bool) : World :=
  match (w.services node).clients.get? id, w.answers[i]? with
  | some client, some answer =>
    match client.fetch with
    | none => w
    | some fetch =>
      if answer.node = node ∧ answer.requestId = fetch.requestId then
        w.take node id client fetch answer remembered
      else w
  | _, _ => w

/-! ### Runs -/

/-- The system behind one event. -/
def step (w : World) : Event → World
  | .tick elapsed => if elapsed < 0 then w else { w with now := w.now + elapsed }
  | .update scope policy replaceBaseRate exhausted =>
    { w with console := w.console.update scope policy replaceBaseRate exhausted }
  | .setUserAppQuota scope limitBytes =>
    { w with console := w.console.setUserAppQuota scope limitBytes }
  | .evaluate scope exhausted => { w with console := w.console.evaluate scope exhausted }
  | .budget dir i => (w.sent[i]?.map (w.call dir)).getD w
  | .serve node client source bytes => w.serve node client source bytes
  | .pass node client requestId => w.pass node client requestId
  | .answer node client i remembered => w.answer node client i remembered
  | .fail node client => w.setService node ((w.services node).dropClient client)
  | .synchronize node => w.setService node (w.services node).synchronize
  | .restart node => w.setService node .new

def run (w : World) (events : List Event) : World := events.foldl step w

/-- No budget, no receipt, no entry yet. -/
def start (now : ℚ) (scopes : Scope → ScopeRows) : World :=
  ⟨now, ⟨scopes, fun _ => none⟩, fun _ => .new, [], [], [], []⟩

end World

end Brocade.Budget
