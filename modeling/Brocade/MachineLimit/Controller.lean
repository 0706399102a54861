/-
A generation of Xray under the machine's cap.

A controller reads the file of the cap again after a quarter of a second, and at once when a
request went wrong.  A file it cannot use leaves it where it was if bytes could pass anyway, and
closes it otherwise.  Whoever waits for bytes goes through the budget part by part, unless what
the controller last made of the file lets them pass.

Many wait on one controller.  A load is atomic, and so is what follows from it before the next
operation; between the operations of one, those of all others may come.
-/
import Brocade.Lib.Ip
import Brocade.MachineLimit.Control

namespace Brocade.MachineLimit

open Faulty

/-! ### Reading the control -/

/-- The port of an address, by the last colon; brackets stand around a host with colons only. -/
def splitHostPort (endpoint : String) : Option (String × String) :=
  (Text.rsplitOnce? endpoint ':').bind fun parts =>
    let host := parts.1.toList
    let bracketed := host.head? = some '[' && host.getLast? = some ']' && 2 ≤ host.length
    let inner := if bracketed then host.tail.dropLast else host
    if inner.any (fun c => c = '[' || c = ']' || (c = ':' && !bracketed))
        || parts.2.toList.any (fun c => c = '[' || c = ']') then none
    else some (String.ofList inner, parts.2)

/-- An address of the machine itself. -/
def isLoopback (addr : Ip.Addr) : Bool :=
  match addr.canonical with
  | .v4 bits => decide (bits.toNat / 2 ^ 24 = 127)
  | .v6 bits => decide (bits.toNat = 1)

/-- A port number; a sign may stand before it. -/
def validPort (text : String) : Bool :=
  let digits := if text.toList.head? = some '+' then text.toList.tail else text.toList
  !digits.isEmpty && digits.all Address.isDecimal && decide (0 < Address.decimalValue digits)
    && decide (Address.decimalValue digits ≤ 65535)

/-- An endpoint on the machine itself. -/
def validEndpoint (endpoint : String) : Bool :=
  (splitHostPort endpoint).any fun parts => (Ip.parse parts.1).any isLoopback && validPort parts.2

/-- Whether the data plane can use a control. -/
def validConfig (config : ApplicationControl) : Bool :=
  validEndpoint config.endpoint && decide (config.token.length = 32)
    && config.token.toList.all isTokenChar
    && (decide (config.rateBps = 0) || decide (1000 ≤ config.rateBps))
    && decide (config.rateBps ≤ 1000000000000)
    && (config.enabled || decide (config.rateBps = 0))

/-- What a controller last made of the file. -/
inductive ControlState where
  | loaded (config : ApplicationControl)
  | unavailable

/-- No control: bytes pass. -/
def noControl : ApplicationControl where
  enabled := false
  rateBps := 0
  progress := false
  endpoint := ""
  token := ""

/-- `lastValid` is the last file it could use. -/
structure Controller where
  required : Bool
  next : ℕ
  state : Option ControlState
  lastValid : Option ApplicationControl

/-- Bytes could pass so far, or nothing is known and nothing has to be. -/
def Controller.passes (c : Controller) : Bool :=
  match c.state with
  | some (.loaded previous) => inactive previous
  | some .unavailable => false
  | none => !c.required

/-- Read the file, unless that was done just now; `read` is what there is to read. -/
def Controller.load (c : Controller) (now : ℕ) (force : Bool) (read : Option ApplicationControl) :
    Controller × ControlState :=
  match if !force && now < c.next then c.state else none with
  | some state => (c, state)
  | none =>
    let state := match read.filter validConfig with
      | some config => .loaded config
      | none => if c.passes then .loaded noControl else .unavailable
    ({ c with
      next := now + 250000000
      state := some state
      lastValid := (read.filter validConfig).or c.lastValid }, state)

/-! ### Waiting -/

/-- Where someone is who waits for bytes. -/
inductive Waiter where
  | idle
  | entered (n : ℕ)
  /-- the top of the loop over the parts -/
  | waiting (left : ℕ)
  | requesting (left part : ℕ) (config : ApplicationControl)
  | sent (left part : ℕ) (config : ApplicationControl)
  | retrying (left part : ℕ)
deriving DecidableEq

/-- A load, and what follows from it at once: the bytes that pass without the budget. -/
def Waiter.load (waiter : Waiter) (c : Controller) (now : ℕ) (read : Option ApplicationControl) :
    Option (Controller × Waiter × Option ℕ) :=
  match waiter with
  | .entered n =>
    let (c, state) := c.load now false read
    match state with
    | .unavailable => some (c, .idle, none)
    | .loaded config =>
      if inactive config then some (c, .idle, some n) else some (c, .waiting n, none)
  | .waiting left =>
    if left = 0 then some (c, .idle, none)
    else
      let (c, state) := c.load now false read
      match state with
      | .unavailable => some (c, .idle, none)
      | .loaded config =>
        if inactive config then some (c, .idle, some left)
        else some (c, .requesting left (min left (partLimit config.rateBps)) config, none)
  | .retrying left part =>
    let (c, state) := c.load now true read
    match state with
    | .unavailable => some (c, .idle, none)
    | .loaded config =>
      if inactive config then some (c, .waiting (left - part), some part)
      else some (c, .requesting left part config, none)
  | _ => none

/-- The rate in an answer of the budget. -/
def answeredRate (line : String) : Option ℕ :=
  if line.length ≤ 64 then
    (Text.stripPrefix? "OK " line).bind fun rest =>
      let digits := (Text.trim rest).toList
      if !digits.isEmpty && digits.all Address.isDecimal
          && Address.decimalValue digits ≤ 1000000000000 then
        some (Address.decimalValue digits)
      else none
  else none

/-- Bytes that were let through. -/
structure Release where
  generation : ℕ
  required : Bool
  amount : ℕ
  /-- the budget answered for them -/
  answered : Bool
  lastValid : Option ApplicationControl

/-! ### Agent, generations, and what befalls them -/

/-- One process of the data plane. -/
structure Generation where
  controller : Controller
  waiters : ℕ → Waiter

/-- The agent and its processes. -/
structure System (β : Type) where
  now : ℕ
  agent : Agent β
  generations : ℕ → Option Generation
  releases : List Release

variable {β : Type}

/-- What happens to the system. -/
inductive Happening (β : Type) where
  | tick (elapsed : ℕ)
  /-- the files become anything at all -/
  | control (file : File β)
  | desired (file : File β)
  | agentStarts (platform : Platform) (fault : Fault String)
  | ensureConfigured (platform : Platform) (first second : Fault String) (enabled : Bool)
      (rate : Option ℕ)
  | configure (fault : Fault String) (enabled : Bool) (rate : Option ℕ)
  | agentExits
  | generationStarts (generation : ℕ) (required : Bool)
  | wait (generation waiter n : ℕ)
  /-- `readable` unless the reading itself goes wrong -/
  | load (generation waiter : ℕ) (readable : Bool)
  | send (generation waiter : ℕ) (sent : Bool)
  /-- a line comes in for who has sent, or the connection breaks -/
  | receive (generation waiter : ℕ) (line : Option String)
  | giveUp (generation waiter : ℕ)

/-- What Xray reads of the file of the cap. -/
def readConfig (codec : Codec β) (file : File β) (readable : Bool) : Option ApplicationControl :=
  match file with
  | .holds bytes => if readable then codec.config bytes else none
  | _ => none

namespace System

/-- An operation of the Agent; cut off, the Agent is gone. -/
def act (s : System β) (work : Work β Unit) : System β :=
  match work s.agent with
  | (.error .crashed, agent) => { s with agent := { agent with budget := none } }
  | (_, agent) => { s with agent }

/-- A connection gets on. -/
def setWaiter (s : System β) (i : ℕ) (generation : Generation) (j : ℕ) (waiter : Waiter) :
    System β :=
  { s with
    generations := fun k =>
      if k = i then
        some { generation with waiters := fun l => if l = j then waiter else generation.waiters l }
      else s.generations k }

/-- Bytes pass. -/
def release (s : System β) (i : ℕ) (c : Controller) (amount : ℕ) (answered : Bool) : System β :=
  { s with
    releases := {
      generation := i, required := c.required, amount, answered
      lastValid := c.lastValid } :: s.releases }

/-- The file is looked at. -/
def load (codec : Codec β) (s : System β) (i j : ℕ) (readable : Bool) : Option (System β) := do
  let generation ← s.generations i
  let (c, waiter, passed) ←
    (generation.waiters j).load generation.controller s.now
      (readConfig codec s.agent.dir.control readable)
  let s := s.setWaiter i { generation with controller := c } j waiter
  match passed with
  | some amount => some (s.release i c amount false)
  | none => some s

/-- An answer is read. -/
def receive (s : System β) (i j : ℕ) (line : Option String) : Option (System β) := do
  let generation ← s.generations i
  match generation.waiters j with
  | .sent left part _ =>
    if line = some "WAIT\n" then some s
    else
      match line.bind answeredRate with
      | some _ =>
        some ((s.setWaiter i generation j (.waiting (left - part))).release i
          generation.controller part true)
      | none => some (s.setWaiter i generation j (.retrying left part))
  | _ => none

/-- The controller behind one event. -/
def step [DecidableEq β] (codec : Codec β) (s : System β) : Happening β → Option (System β)
  | .tick elapsed => some { s with now := s.now + elapsed }
  | .control file =>
    some { s with
      agent := { s.agent with
        dir := { s.agent.dir with control := file } } }
  | .desired file =>
    some { s with
      agent := { s.agent with
        dir := { s.agent.dir with desired := file } } }
  | .agentStarts platform fault => some (s.act (initializeWithPolicy codec platform fault none))
  | .ensureConfigured platform first second enabled rate =>
    some (s.act (ensureConfigured codec platform first second enabled rate))
  | .configure fault enabled rate => some (s.act (configure codec fault enabled rate))
  | .agentExits => some { s with agent := { s.agent with budget := none } }
  | .generationStarts i required =>
    some { s with
      generations := fun k =>
        if k = i then
          some { controller := { required, next := 0, state := none, lastValid := none }
                 waiters := fun _ => .idle }
        else s.generations k }
  | .wait i j n => do
      let generation ← s.generations i
      if generation.waiters j = .idle then some (s.setWaiter i generation j (.entered n)) else none
  | .load i j readable => s.load codec i j readable
  | .send i j sent => do
      let generation ← s.generations i
      match generation.waiters j with
      | .requesting left part config =>
        some (s.setWaiter i generation j
          (if sent then .sent left part config else .retrying left part))
      | _ => none
  | .receive i j line => s.receive i j line
  | .giveUp i j => do
      let generation ← s.generations i
      some (s.setWaiter i generation j .idle)

/-- A machine with its files, before an Agent or an Xray runs on it. -/
def fresh (dir : Durable β) : System β where
  now := 0
  agent := { dir, budget := none }
  generations := fun _ => none
  releases := []

end System

end Brocade.MachineLimit
