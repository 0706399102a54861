/-
The Agent's budget of a machine, shared by every generation of Xray.

One instant says up to when the machine's rate is spoken for.  A connection takes its turn behind
it: it reads the rate, moves the instant on by what its part costs, and sleeps until its own
part is over.  Between these steps anything may happen to the rate and to the other connections.

A change of the rate is made in steps as well: the file, the control, the rate, and last the
instant, which is set to a time taken just before.  The lock of the control is held throughout,
so that one change is under way at most.
-/
import Brocade.Lib.Steps

namespace Brocade.MachineLimit

/-- The control of the application layer. -/
structure ApplicationControl where
  enabled : Bool
  rateBps : ℕ
  progress : Bool
  (endpoint token : String)
deriving DecidableEq

/-- The cap asked for: none unless it is enabled. -/
def requestedRate (enabled : Bool) (rate : Option ℕ) : ℕ :=
  if enabled then rate.getD 0 else 0

/-- The control that is wanted. -/
def wantedControl (control : ApplicationControl) (enabled : Bool) (rate : Option ℕ) :
    ApplicationControl :=
  { control with
    enabled
    rateBps := requestedRate enabled rate }

/-! ### Reservations -/

/-- The most one reservation is for. -/
def partLimit (rate : ℕ) : ℕ := max 1 (min 16384 (rate / 80))

/-- Nanoseconds a part costs. -/
def partDuration (part rate : ℕ) : ℕ := part * 8000000000 / rate

/-- A part of a request, and the time that was reserved for it. -/
structure Reservation where
  (conn rate part starts ends : ℕ)
deriving DecidableEq

/-- A request on its way: how much is left of it, and the parts it has reserved. -/
structure Request where
  (count remaining : ℕ)
  parts : List Reservation

/-- Where a connection is in serving a request. -/
inductive Phase where
  | idle
  | looping (request : Request)
  | loaded (request : Request) (rate : ℕ)
  | sleeping (request : Request) (reservation : Reservation)
  | finished (request : Request) (zeroRead : Bool)

/-- An answer, and what was reserved for it. -/
structure Answer where
  conn : ℕ
  request : Request
  zeroRead : Bool
  (answeredAt rate : ℕ)

/-- How far a change of the rate is. -/
inductive Change where
  | none
  | stored
  | timed (instant : ℕ)
deriving DecidableEq

/-- The budget, its connections, and what they have done, the last first. -/
structure World where
  now : ℕ
  control : ApplicationControl
  (rate next : ℕ)
  change : Change
  conns : ℕ → Phase
  reservations : List Reservation
  answers : List Answer

namespace World

def setPhase (w : World) (conn : ℕ) (phase : Phase) : World :=
  { w with conns := fun c => if c = conn then phase else w.conns c }

/-- The reservation that comes next for a request. -/
def reservation (w : World) (conn : ℕ) (request : Request) (rate : ℕ) : Reservation :=
  let part := min request.remaining (partLimit rate)
  let starts := max w.next w.now
  { conn, rate, part, starts, ends := starts + partDuration part rate }

end World

/-- The steps of the budget server. -/
inductive Event where
  | tick (elapsed : ℕ)
  | request (conn : ℕ) (token : String) (count : ℕ)
  /-- the top of the loop: the rate is read -/
  | load (conn : ℕ)
  /-- under the lock of the instant -/
  | reserve (conn : ℕ)
  | wake (conn : ℕ)
  | answer (conn : ℕ)
  /-- the connection breaks -/
  | drop (conn : ℕ)
  /-- a change of the rate begins, if its file can be written -/
  | configure (enabled : Bool) (rate : Option ℕ) (written : Bool)
  | readClock
  | resetNext

/-- A request comes in. -/
def serveRequest (w : World) (conn : ℕ) (token : String) (count : ℕ) : Option World :=
  match w.conns conn with
  | .idle =>
    if token = w.control.token ∧ count ≤ 16384 then
      some (w.setPhase conn (.looping { count, remaining := count, parts := [] }))
    else some w
  | _ => none

/-- The rate is read. -/
def serveLoad (w : World) (conn : ℕ) : Option World :=
  match w.conns conn with
  | .looping request =>
    if request.remaining = 0 then some (w.setPhase conn (.finished request false))
    else if w.rate = 0 then some (w.setPhase conn (.finished request true))
    else some (w.setPhase conn (.loaded request w.rate))
  | _ => none

/-- A part is reserved. -/
def serveReserve (w : World) (conn : ℕ) : Option World :=
  match w.conns conn with
  | .loaded request rate =>
    let reservation := w.reservation conn request rate
    some { w.setPhase conn (.sleeping request reservation) with
      next := reservation.ends
      reservations := reservation :: w.reservations }
  | _ => none

/-- A part is over. -/
def serveWake (w : World) (conn : ℕ) : Option World :=
  match w.conns conn with
  | .sleeping request reservation =>
    if reservation.ends ≤ w.now then
      some (w.setPhase conn (.looping {
        request with
        remaining := request.remaining - reservation.part
        parts := reservation :: request.parts }))
    else none
  | _ => none

/-- The answer goes out. -/
def serveAnswer (w : World) (conn : ℕ) : Option World :=
  match w.conns conn with
  | .finished request zeroRead =>
    some { w.setPhase conn .idle with
      answers := { conn, request, zeroRead, answeredAt := w.now, rate := w.rate } :: w.answers }
  | _ => none

/-- A sleeping connection does not notice that it is broken. -/
def serveDrop (w : World) (conn : ℕ) : Option World :=
  match w.conns conn with
  | .loaded _ _ | .sleeping _ _ => none
  | _ => some (w.setPhase conn .idle)

/-- The same cap again changes nothing but the file, and so does a write that fails. -/
def changeRate (w : World) (enabled : Bool) (rate : Option ℕ) (written : Bool) :
    Option World :=
  if w.change = .none then
    if w.control.enabled = enabled ∧ w.control.rateBps = requestedRate enabled rate then some w
    else if written then
      some { w with
        control := wantedControl w.control enabled rate
        rate := requestedRate enabled rate
        change := .stored }
    else some w
  else none

/-- The scopes behind one event. -/
def step (w : World) : Event → Option World
  | .tick elapsed => some { w with now := w.now + elapsed }
  | .request conn token count => serveRequest w conn token count
  | .load conn => serveLoad w conn
  | .reserve conn => serveReserve w conn
  | .wake conn => serveWake w conn
  | .answer conn => serveAnswer w conn
  | .drop conn => serveDrop w conn
  | .configure enabled rate written => changeRate w enabled rate written
  | .readClock => if w.change = .stored then some { w with change := .timed w.now } else none
  | .resetNext =>
    match w.change with
    | .timed instant => some { w with next := instant, change := .none }
    | _ => none

/-- A budget as it is made: no connection yet, and nothing reserved. -/
def started (now : ℕ) (control : ApplicationControl) : World where
  now := now
  control := control
  rate := control.rateBps
  next := now
  change := .none
  conns := fun _ => .idle
  reservations := []
  answers := []

end Brocade.MachineLimit
