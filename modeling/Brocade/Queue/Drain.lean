/-
Producers, a reporter and a crash.

A push holds the file from its reading to its writing, and so does each of the two places
where a drain touches the file; in between, while its requests are on the way, producers
write.  A request that got no answer may arrive all the same, and at any later time.  A
crash takes the drain with it, and leaves the file as it was or as it was to be.

What was written, accepted, sent, received and answered is kept beside the file; nothing
reads it.
-/
import Brocade.Queue.Push

namespace Brocade.Queue

/-- What becomes of the operations on the file. -/
inductive Fault where
  | nothing
  /-- the file cannot be read -/
  | read
  /-- the new file cannot be written or put in place -/
  | write
  /-- the new file is in place, and its directory cannot be synced -/
  | unsynced
  | crashBefore
  | crashAfter
deriving DecidableEq

/-- The new file is in place. -/
def Fault.renames : Fault → Bool
  | .nothing | .unsynced | .crashAfter => true
  | .read | .write | .crashBefore => false

/-- What the writer is told, if it lives. -/
def Fault.answer : Fault → Option (Except String Unit)
  | .nothing => some (.ok ())
  | .read => some (.error "read")
  | .write => some (.error "write")
  | .unsynced => some (.error "fsync directory")
  | .crashBefore | .crashAfter => none

/-- A drain under way. -/
structure Drain where
  lines : List Line
  sent : ℕ
  /-- a request is on its way -/
  waiting : Bool
  failure : Option String

/-- A push that returned well. -/
structure Accepted where
  number : ℕ
  /-- the line the fact is in, as it was then -/
  line : Line
  text : String

/-- The file, its drain, and what happened. -/
structure State where
  file : List Line
  drain : Option Drain
  dropped : ℕ
  /-- the number of the next push -/
  next : ℕ
  /-- every line as it was written -/
  written : List Line
  accepted : List Accepted
  (sent received : List Line)
  /-- what was answered with success -/
  acked : List Line

def State.empty : State := ⟨[], none, 0, 0, [], [], [], [], []⟩

/-! ### The file -/

/-- A drain reads the file. -/
def spoolRead (spool : Spool) (file : List Line) (fault : Fault) : Except String (List Line) :=
  if fault = .read then .error "read"
  else if spool.droppedKind = .detail ∧ DETAIL_SPOOL_MAX_BYTES < byteLength file then
    .error "detail spool exceeds byte limit"
  else .ok file

/-- The file replaced by what a push comes to. -/
def State.write (s : State) (lines : List Line) (line : Line) (dropped : ℕ) (text : String)
    (fault : Fault) : State where
  file := if fault.renames then lines else s.file
  drain := if fault.answer = none then none else s.drain
  dropped := s.dropped + dropped
  next := s.next + 1
  written := if fault.renames then line :: s.written else s.written
  accepted := if fault = .nothing then ⟨s.next, line, text⟩ :: s.accepted else s.accepted
  sent := s.sent
  received := s.received
  acked := s.acked

/-- A push and what it returns; nothing where the process dies.  `item` is the fact as it is
serialized, if it is. -/
def spoolPush (spool : Spool) (codec : Codec) (s : State) (unique : Bool) (item : Option String)
    (fault : Fault) : State × Option (Except String Unit) :=
  match spoolRead spool s.file fault with
  | .error e => (s, some (.error e))
  | .ok lines =>
    match item with
    | none => (s, some (.error "serialize"))
    | some text =>
      match pushLines spool codec lines s.next unique text with
      | .error e => (s, some (.error e))
      | .ok (.known line) =>
        ({ s with next := s.next + 1, accepted := ⟨s.next, line, text⟩ :: s.accepted },
          some (.ok ()))
      | .ok (.file lines line dropped) => (s.write lines line dropped text fault, fault.answer)

/-! ### A drain -/

/-- A drain begins. -/
def startDrain (spool : Spool) (s : State) (fault : Fault) : State :=
  match s.drain, spoolRead spool s.file fault with
  | none, .ok lines => if lines = [] then s else { s with drain := some ⟨lines, 0, false, none⟩ }
  | _, _ => s

/-- The line a drain sends next. -/
def Drain.body? (d : Drain) : Option Line := if d.failure = none then d.lines[d.sent]? else none

/-- A request goes out. -/
def request (s : State) : State :=
  match s.drain with
  | some d =>
    match d.body? with
    | some body =>
      if d.waiting then s
      else { s with drain := some { d with waiting := true }, sent := body :: s.sent }
    | none => s
  | none => s

/-- A request arrives, sooner or later, answered or not. -/
def arrive (s : State) (i : ℕ) : State :=
  match s.sent[i]? with
  | some body => { s with received := s.received ++ [body] }
  | none => s

def isSuccess (status : ℕ) : Bool := 200 ≤ status && status < 300

/-- An answer comes; of success only to a request that arrived. -/
def answer (spool : Spool) (s : State) (status : ℕ) : State :=
  match s.drain with
  | some d =>
    match d.body? with
    | some body =>
      if !d.waiting then s
      else if isSuccess status then
        if body ∈ s.received then
          { s with
            drain := some { d with waiting := false, sent := d.sent + 1 }
            acked := body :: s.acked }
        else s
      else if status ∈ spool.terminalStatuses then
        { s with
          drain := some { d with waiting := false, sent := d.sent + 1 }
          dropped := s.dropped + 1 }
      else
        { s with drain := some { d with
            waiting := false
            failure := some s!"{spool.what} request failed: HTTP {status}" } }
    | none => s
  | none => s

/-- No answer comes. -/
def lost (s : State) : State :=
  match s.drain with
  | some d =>
    if d.waiting then { s with drain := some { d with waiting := false, failure := some "io" } }
    else s
  | none => s

/-- The texts at the head of the file are those that were sent. -/
def sameHead (current lines : List Line) (sent : ℕ) : Bool :=
  decide (sent ≤ current.length)
    && decide ((current.take sent).map (·.text) = (lines.take sent).map (·.text))

/-- A drain removes what was answered, if the head of the file is still what it sent. -/
def finishDrain (spool : Spool) (s : State) (fault : Fault) : State :=
  match s.drain with
  | some d =>
    if d.waiting || d.body?.isSome then s
    else if d.sent = 0 then { s with drain := none }
    else
      match spoolRead spool s.file fault with
      | .error _ => { s with drain := none }
      | .ok current =>
        if sameHead current d.lines d.sent && fault.renames then
          { s with drain := none, file := current.drop d.sent }
        else { s with drain := none }
  | none => s

/-! ### Runs -/

/-- The steps of a queue. -/
inductive Event where
  | push (unique : Bool) (item : Option String) (fault : Fault)
  | startDrain (fault : Fault)
  | request
  | arrive (i : ℕ)
  | answer (status : ℕ)
  | lost
  | finishDrain (fault : Fault)
  | crash

/-- One step; an event that cannot be changes nothing. -/
def step (spool : Spool) (codec : Codec) (s : State) : Event → State
  | .push unique item fault => (spoolPush spool codec s unique item fault).1
  | .startDrain fault => startDrain spool s fault
  | .request => request s
  | .arrive i => arrive s i
  | .answer status => answer spool s status
  | .lost => lost s
  | .finishDrain fault => finishDrain spool s fault
  | .crash => { s with drain := none }

def run (spool : Spool) (codec : Codec) (events : List Event) : State :=
  events.foldl (step spool codec) .empty

end Brocade.Queue
