/-
What the data plane admits without asking.

The agent writes its endpoint, a token and a policy generation to a control file.  The data plane
loads the file, asks the agent for bytes, and where the answer is OPEN or PASS it keeps that for the
source: later bytes pass without a request, for a second or for good.  Loading another control
forgets all of it.  An entry carries the generation it was asked under and no more.

The agent publishes policies in three steps, the file, the counter and the effects, with the lock
on the effects held.  Requests and answers are on their way for as long as they like, and answers
outlive the agent that gave them.
-/
import Brocade.Budget.Admit
import Brocade.UserTraffic.Known

namespace Brocade.UserLimit

open Budget (UserTrafficEffect UserBudgetGrant Admission Entry Service BUDGET_TTL_MS
  MAX_REQUEST_BYTES admitPass applyGrant expiry)
open UserTraffic (Write)

/-- Whom the data plane asks. -/
structure Control where
  (endpoint token : String)
  generation : ℕ
deriving DecidableEq

/-! ### The data plane -/

/-- A pass without asking. -/
structure FreeState where
  generation : ℕ
  /-- none where it does not end -/
  ends : Option ℚ
  /-- the control the answer was asked under; no step reads it -/
  under : Control

/-- What the data plane keeps. -/
structure Client where
  current : Control
  refreshed : Option ℚ
  free : Table String FreeState

/-- `New` -/
def Client.new : Client := ⟨⟨"", "", 0⟩, none, .empty⟩

/-- `file` is what the control file holds; it is read four times a second at most. -/
def Client.load (c : Client) (file : Control) (now : ℚ) : Client × Control :=
  if c.refreshed.any fun loaded => decide (now - loaded < 1 / 4) then (c, c.current)
  else
    ({ current := file
       refreshed := some now
       free := if file ≠ c.current then .empty else c.free }, file)

/-- The entry that lets bytes pass without a request. -/
def Client.freePass (c : Client) (cfg : Control) (source : String) (now : ℚ) : Option FreeState :=
  (c.free.get? source).filter fun state =>
    decide (state.generation = cfg.generation) && state.ends.all fun ends => decide (now < ends)

def MAX_FREE : ℕ := 4096

/-- An OPEN or PASS is kept for the source, where there is room. -/
def Client.keep (c : Client) (cfg : Control) (source : String) (now : ℚ) (admission : Admission) :
    Client :=
  if c.free.rows.length < MAX_FREE then
    { c with
      free := c.free.put source
        ⟨cfg.generation, if admission = .open' then some (now + 1) else none, cfg⟩ }
  else c

/-- Where a `wait` is. -/
inductive Stage where
  | checking (cfg : Control)
  /-- before a request, the second one if the first failed -/
  | asking (again : Bool)
  | asked (cfg : Control) (again : Bool) (request : ℕ)

/-- A connection that wants bytes. -/
structure Waiter where
  source : String
  bytes : ℕ
  stage : Stage

/-! ### The agent -/

/-- How far a publication is. -/
inductive Publishing where
  | idle
  /-- the file is written -/
  | filed (effects : OrdMap String UserTrafficEffect)
  /-- and the generation is stored -/
  | counted (effects : OrdMap String UserTrafficEffect)

/-- The service; `service.generation` is the generation that requests read. -/
structure Agent where
  control : Control
  effects : OrdMap String UserTrafficEffect
  updated : Option ℚ
  publishing : Publishing
  service : Service

/-- `initialize` -/
def Agent.new (endpoint token : String) : Agent :=
  ⟨⟨endpoint, token, 0⟩, .empty, none, .idle, .new⟩

/-- The policies are old, or the source needs credits: none. -/
def Agent.assigned (a : Agent) (source : String) (now : ℚ) : Option Admission :=
  if a.updated.all fun updated => decide (expiry updated BUDGET_TTL_MS ≤ now) then none
  else match a.effects.get? source with
    | some (.unlimited true) => some .open'
    | some (.unlimited false) => some .pass
    | some .suspended => some .suspended
    | _ => none

def Agent.next (a : Agent) : Control := { a.control with generation := a.control.generation + 1 }

/-- `checked_add` -/
def MAX_GENERATION : ℕ := 2 ^ 64 - 1

/-! ### The system -/

/-- A request on its way. -/
structure Request where
  (token source : String)
  bytes : ℕ

/-- Bytes that passed, by what let them: an answer, or none. -/
structure Passed where
  source : String
  admission : Option Admission
  /-- the control of the answer, or of the entry -/
  under : Control
  /-- the control that was loaded by then -/
  loaded : Control

/-- An unlimited grant that was taken over. -/
structure Granted where
  token : String
  generation : ℕ
  source : String

/-- The data plane, the agent and what is between them. -/
structure World where
  now : ℚ
  file : Control
  client : Client
  waiters : Table ℕ Waiter
  agent : Agent
  requests : Table ℕ Request
  answers : Table ℕ Admission
  /-- the requests by number, with the control they were asked under -/
  asks : List (Control × String)
  passed : List Passed
  /-- what the agents published, from the control file on, and were granted, and the tokens that
  were drawn -/
  published : List (Control × OrdMap String UserTrafficEffect)
  granted : List Granted
  tokens : List String

/-- An agent has started; nothing was loaded. -/
def World.start (endpoint token : String) : World where
  now := 0
  file := ⟨endpoint, token, 0⟩
  client := .new
  waiters := .empty
  agent := .new endpoint token
  requests := .empty
  answers := .empty
  asks := []
  passed := []
  published := []
  granted := []
  -- no agent draws the token that `New` starts with
  tokens := [token, Client.new.current.token]

/-- The steps of a run. -/
inductive Event where
  | tick (elapsed : ℚ)
  /-- the data plane -/
  | wait (id : ℕ) (source : String) (bytes : ℕ)
  | check (id : ℕ)
  | ask (id : ℕ)
  | receive (id : ℕ)
  /-- a request fails, or the connection it is for ends -/
  | fail (id : ℕ) (canceled : Bool)
  /-- the agent: a request comes in, goes round `admit`'s loop, and gets a grant -/
  | serve (request : ℕ)
  | round (request : ℕ) (requestId : String)
  | grant (request : ℕ) (grant : UserBudgetGrant) (remembered : Bool)
  | drop (request : ℕ)
  | publish (effects : OrdMap String UserTrafficEffect) (write : Write)
  | count
  | install
  | restart (endpoint token : String)

namespace World

def setWaiter (w : World) (id : ℕ) (waiter : Waiter) : World :=
  { w with waiters := w.waiters.put id waiter }

def dropWaiter (w : World) (id : ℕ) : World :=
  { w with waiters := w.waiters.deleteWhere fun other => other = id }

def setService (w : World) (service : Service) : World :=
  { w with agent := { w.agent with service := service } }

/-- `load` -/
def load (w : World) : World := { w with client := (w.client.load w.file w.now).1 }

def loaded (w : World) : Control := (w.client.load w.file w.now).2

def pass (w : World) (p : Passed) : World := { w with passed := p :: w.passed }

/-- A failed request is made once more, with the control read again. -/
def failed (w : World) (id : ℕ) (waiter : Waiter) (again canceled : Bool) : World :=
  if again || canceled then w.dropWaiter id
  else
    { w with client := { w.client with refreshed := none } }.setWaiter id
      { waiter with stage := .asking true }

/-- A connection wants bytes. -/
def wait (w : World) (id : ℕ) (source : String) (bytes : ℕ) : World :=
  if w.waiters.contains id ∨ source = "" ∨ bytes = 0 ∨ MAX_REQUEST_BYTES < bytes then w
  else w.load.setWaiter id ⟨source, bytes, .checking w.loaded⟩

/-- A free pass is looked for. -/
def check (w : World) (id : ℕ) (waiter : Waiter) (cfg : Control) : World :=
  match w.client.freePass cfg waiter.source w.now with
  | some state => (w.pass ⟨waiter.source, none, state.under, w.client.current⟩).dropWaiter id
  | none => w.setWaiter id { waiter with stage := .asking false }

/-- The agent is asked. -/
def ask (w : World) (id : ℕ) (waiter : Waiter) (again : Bool) : World :=
  if 512 < waiter.source.utf8ByteSize then w.failed id waiter again false
  else
    { w.load with
      requests := w.requests.put w.asks.length ⟨w.loaded.token, waiter.source, waiter.bytes⟩
      asks := w.asks ++ [(w.loaded, waiter.source)] }.setWaiter id
        { waiter with stage := .asked w.loaded again w.asks.length }

/-- An answer arrives. -/
def receive (w : World) (id : ℕ) (waiter : Waiter) (cfg : Control) (again : Bool) :
    Admission → World
  | .suspended => w.failed id waiter again false
  | .allowed => (w.pass ⟨waiter.source, some .allowed, cfg, w.client.current⟩).dropWaiter id
  | admission =>
    { w.pass ⟨waiter.source, some admission, cfg, w.client.current⟩ with
      client := w.client.keep cfg waiter.source w.now admission }.dropWaiter id

def answer (w : World) (request : ℕ) (admission : Admission) : World :=
  { w with answers := w.answers.put request admission }

/-- A request is read: it is answered at once, or waits in `admit`. -/
def serve (w : World) (request : ℕ) (r : Request) : World :=
  if r.token ≠ w.agent.control.token ∨ r.bytes = 0 ∨ MAX_REQUEST_BYTES < r.bytes
      ∨ 512 < r.source.utf8ByteSize then w
  else match w.agent.assigned r.source w.now with
    | some admission => w.answer request admission
    | none =>
      match w.agent.service.sourceEntry r.source w.now with
      | none => w
      | some entries =>
        w.setService (({ w.agent.service with entries := entries } : Service).setClient request
          ⟨r.source, r.bytes, none⟩)

/-- A request in `admit` is answered. -/
def done (w : World) (request : ℕ) (admission : Admission) : World :=
  (w.setService (w.agent.service.dropClient request)).answer request admission

/-- What a round does beside the entry. -/
def rounded (w : World) (request : ℕ) (client : Budget.Client) (requestId : String) :
    Budget.Pass → World
  | .answered admission => w.done request admission
  | .fetch =>
    w.setService (w.agent.service.setClient request
      { client with fetch := some ⟨requestId, w.now⟩ })
  | .wait => w
  | .spent amount =>
    if client.bytes - amount = 0 then w.done request .allowed
    else w.setService (w.agent.service.setClient request
      { client with bytes := client.bytes - amount })

/-- A client is looked at again. -/
def round (w : World) (request : ℕ) (client : Budget.Client) (requestId : String) : World :=
  match w.agent.service.entries.get? client.source with
  | none => w
  | some entry =>
    if w.agent.service.locked client.source then w
    else
      let result := admitPass entry w.agent.service.generation w.now client.bytes
      (w.setService (w.agent.service.setEntry client.source result.1)).rounded request client
        requestId result.2

/-- What a grant opens. -/
def noted (w : World) (entry : Entry) (source : String) : UserBudgetGrant → List Granted
  | .unlimited _ _ => ⟨w.agent.control.token, entry.generation, source⟩ :: w.granted
  | _ => w.granted

/-- A grant reaches the request that asked for it. -/
def grant (w : World) (request : ℕ) (client : Budget.Client) (started : ℚ)
    (grant : UserBudgetGrant) (remembered : Bool) : World :=
  match w.agent.service.entries.get? client.source with
  | none => w
  | some entry =>
    match applyGrant entry started w.now remembered grant with
    | .error _ => w.setService (w.agent.service.dropClient request)
    | .ok entry' =>
      { w.setService ((w.agent.service.setEntry client.source entry').setClient request
          { client with fetch := none }) with
        granted := w.noted entry client.source grant }

/-- Other effects start with the control file; `write` is how that goes. -/
def publish (w : World) (effects : OrdMap String UserTrafficEffect) (write : Write) : World :=
  if effects = w.agent.effects then { w with agent := { w.agent with updated := some w.now } }
  else if MAX_GENERATION ≤ w.agent.control.generation then w
  else match write with
    | .written =>
      { w with
        file := w.agent.next
        agent := { w.agent with publishing := .filed effects }
        published := (w.agent.next, effects) :: w.published }
    | .refused _ => w
    | .unsure _ => { w with file := w.agent.next }

/-- The client behind one event. -/
def step (w : World) : Event → Option World
  | .tick elapsed => if elapsed < 0 then none else some { w with now := w.now + elapsed }
  | .wait id source bytes => some (w.wait id source bytes)
  | .check id => match w.waiters.get? id with
      | some waiter => match waiter.stage with
          | .checking cfg => some (w.check id waiter cfg)
          | _ => none
      | none => none
  | .ask id => match w.waiters.get? id with
      | some waiter => match waiter.stage with
          | .asking again => some (w.ask id waiter again)
          | _ => none
      | none => none
  | .receive id => match w.waiters.get? id with
      | some waiter => match waiter.stage with
          | .asked cfg again request =>
            (w.answers.get? request).map fun admission => w.receive id waiter cfg again admission
          | _ => none
      | none => none
  | .fail id canceled => match w.waiters.get? id with
      | some waiter => match waiter.stage with
          | .checking _ => none
          | .asking again => some (w.failed id waiter again canceled)
          | .asked _ again _ => some (w.failed id waiter again canceled)
      | none => none
  | .serve request => match w.agent.publishing with
      | .idle => (w.requests.get? request).map fun r =>
        { w with requests := w.requests.deleteWhere fun other => other = request }.serve request r
      -- `assigned` waits for the lock
      | _ => none
  | .round request requestId =>
    (w.agent.service.clients.get? request).map fun client => w.round request client requestId
  | .grant request grant remembered => match w.agent.service.clients.get? request with
      | some client => client.fetch.map fun fetch =>
        w.grant request client fetch.started grant remembered
      | none => none
  | .drop request => some (w.setService (w.agent.service.dropClient request))
  | .publish effects write => match w.agent.publishing with
      | .idle => some (w.publish effects write)
      | _ => none
  | .count => match w.agent.publishing with
      | .filed effects =>
        some { w with
          agent := { w.agent with
            publishing := .counted effects
            service := { w.agent.service with generation := w.agent.next.generation } } }
      | _ => none
  | .install => match w.agent.publishing with
      | .counted effects =>
        some { w with
          agent := { w.agent with
            control := w.agent.next, effects := effects, updated := some w.now
            publishing := .idle } }
      | _ => none
  | .restart endpoint token =>
    if token ∈ w.tokens then none
    else some { w with
      file := ⟨endpoint, token, 0⟩
      agent := .new endpoint token
      tokens := token :: w.tokens }

end World

end Brocade.UserLimit
