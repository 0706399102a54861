/-
The health of one reverse worker.

Both ends of a carrier probe each other.  An end answers a probe with an ack; on the first
ack of its own it tells the other that the carrier is validated, and it is ready once it has
sent and received that.  A probe that is late makes the worker suspect, and a number of acks
in time makes it ready again.

Everything below happens under the worker's lock, so one call is one step.  What other threads
do meanwhile is in `Surroundings`: what the control queue answers to each write, whether the
transport closes between the deadline check and what follows it, and the time, which is read
twice.  Nothing is assumed about the times of different calls.

The log is not in the source: it says what happened to the worker, the newest entry first.
-/
import Mathlib.Data.List.Basic
import Mathlib.Algebra.Group.Nat.Defs

namespace Brocade.Mux

/-- The states of a worker. -/
inductive WorkerState where
  | validating
  | ready
  | suspect
  | draining
  | dead
  | closed
deriving DecidableEq

/-- Two of the callbacks may be missing; what they answer is in `Surroundings`. -/
structure HealthConfig where
  (disconnectOnHealthFailure activeSessions drainIdle : Bool)
  probeJitterPercent : ℕ
  recoverySuccesses : UInt32
  (probeInterval probeTimeout confirmTimeout healthLease readyTimeout : ℤ)

/-- A keep-alive frame with the probe option: a probe, unless one of the other options is set. -/
structure Frame where
  (drain validated ack : Bool)
  probeId : UInt64

/-- The four frames. -/
def Frame.probe (id : UInt64) : Frame := ⟨false, false, false, id⟩
def Frame.pong (id : UInt64) : Frame := ⟨false, false, true, id⟩
def Frame.confirm (id : UInt64) : Frame := ⟨false, true, false, id⟩
def Frame.leave (id : UInt64) : Frame := ⟨true, false, false, id⟩

/-- A probe of this worker: the how many-th it was, and when its ack is due. -/
structure Probe where
  serial : ℕ
  id : UInt64
  deadline : ℤ

/-- An entry of the log. -/
inductive Entry where
  | moved (state : WorkerState)
  | issued (probe : Probe)
  /-- the control queue took the frame -/
  | sent (frame : Frame)
  | accepted (probe : Probe) (time : ℤ)
  /-- a peer's validated frame with the id of its last probe -/
  | confirmed (id : UInt64)
  /-- the confirmation deadline of a suspicion -/
  | bounded (deadline : ℤ)

/-- `answers` is what the control queue will answer to the next writes of this call. -/
structure Health where
  state : WorkerState
  reason : String
  started : ℤ
  lastAck : Option ℤ
  (nextProbe pendingDeadline hardDeadline : ℤ)
  (pendingId nextId peerId drainProbeId : UInt64)
  drainDeadline : Option ℤ
  sentAt : ℤ
  (ownValidated peerValidated : Bool)
  recoveryAcks : ℕ
  rtt : ℤ
  (probes acks timeouts : ℕ)
  done : Bool
  answers : List Bool
  log : List Entry

/-- `newReverseHealth` -/
def Health.fresh (now : ℤ) (seed : UInt64) : Health where
  state := .validating
  reason := "created"
  started := now
  lastAck := none
  nextProbe := now
  pendingDeadline := 0
  hardDeadline := 0
  pendingId := 0
  nextId := seed
  peerId := 0
  drainProbeId := 0
  drainDeadline := none
  sentAt := 0
  ownValidated := false
  peerValidated := false
  recoveryAcks := 0
  rtt := 0
  probes := 0
  acks := 0
  timeouts := 0
  done := false
  answers := []
  log := [.moved .validating]

/-- What the rest of the process does during one call. -/
structure Surroundings where
  now : ℤ
  /-- the clock when a remaining time is computed -/
  later : ℤ
  /-- what the control queue answers to each write; no answer is a refusal -/
  answers : List Bool
  /-- whether the worker has no session, at the deadline check and at an ack -/
  (idle idleAtAck : Bool)
  /-- whether the transport closes after the deadline check -/
  closes : Bool

/-- The time a draining worker gives its last frames. -/
def reverseDrainTimeout : ℤ := 10000000000

namespace Health

/-- The worker changes its state. -/
def transition (h : Health) (state : WorkerState) (reason : String) : Health :=
  if h.state = state then h
  else { h with state := state, reason := reason, log := .moved state :: h.log }

/-- The worker is at its end. -/
def stop (h : Health) (reason : String) : Health :=
  if h.state = .closed then h
  else if reason = "transport_closed" ∧ h.state ≠ .dead then
    (h.transition .dead reason).transition .closed reason
  else h.transition .closed reason

def fail (h : Health) (reason : String) : Health :=
  { h.transition .dead reason with done := true }

/-- Write to the control queue, which may be full or closed. -/
def enqueue (h : Health) (frame : Frame) : Health × Bool :=
  match h.answers with
  | true :: rest => ({ h with answers := rest, log := .sent frame :: h.log }, true)
  | false :: rest => ({ h with answers := rest }, false)
  | [] => (h, false)

/-- The worker fails for its health. -/
def failHealth (c : HealthConfig) (h : Health) (reason : String) : Health :=
  if c.disconnectOnHealthFailure || !c.activeSessions then h.fail reason
  else (({ h with pendingId := 0 }.transition .draining reason).enqueue (.leave h.nextId)).1

/-- A frame, or a failure. -/
def send (c : HealthConfig) (h : Health) (frame : Frame) : Health × Bool :=
  match h.enqueue frame with
  | (h, true) => (h, true)
  | (h, false) => (h.failHealth c "control_queue_full_or_closed", false)

/-- The id after another; zero is left out. -/
def followingId (id : UInt64) : UInt64 :=
  if id + 1 = 0 then id + 1 + 1 else id + 1

/-- A probe becomes the pending one. -/
def issue (h : Health) (now timeout : ℤ) : Health :=
  { h with
    nextId := followingId h.nextId
    pendingId := followingId h.nextId
    sentAt := now
    pendingDeadline := now + timeout
    probes := h.probes + 1
    log := .issued ⟨h.probes + 1, followingId h.nextId, now + timeout⟩ :: h.log }

def probe (c : HealthConfig) (h : Health) (now timeout : ℤ) : Health :=
  ((h.issue now timeout).send c (.probe (followingId h.nextId))).1

/-- The worker becomes suspect until a deadline. -/
def suspected (h : Health) (deadline : ℤ) : Health :=
  { h.transition .suspect "probe_timeout" with
    recoveryAcks := 0
    hardDeadline := deadline
    log := .bounded deadline :: (h.transition .suspect "probe_timeout").log }

/-- Whether the pending probe is late. -/
def expired (h : Health) (now : ℤ) : Bool := h.pendingId != 0 && decide (h.pendingDeadline ≤ now)

def leaseExpired (c : HealthConfig) (h : Health) (now : ℤ) : Bool :=
  h.lastAck.any fun last => decide (last + c.healthLease ≤ now)

/-- From the probe's deadline or the lease, not from when this is noticed. -/
def confirmationDeadline (c : HealthConfig) (h : Health) (now : ℤ) : ℤ :=
  if h.expired now then h.pendingDeadline + c.confirmTimeout
  else h.lastAck.getD 0 + (c.healthLease + c.confirmTimeout)

/-- What a late probe or an old ack leads to. -/
def checkOverdue (c : HealthConfig) (h : Health) (now : ℤ) : Health :=
  if h.expired now || h.leaseExpired c now then
    let h := { h with timeouts := h.timeouts + 1 }
    if h.state = .suspect ∨ h.state = .draining then h.failHealth c "probe_timeout"
    else if h.state = .validating then h.fail "initial_probe_timeout"
    else
      let h := h.suspected (h.confirmationDeadline c now)
      if h.hardDeadline ≤ now then h.failHealth c "confirmation_timeout"
      else h.probe c now (h.hardDeadline - now)
  else h

/-- A drain looks whether it is over. -/
def checkDrain (c : HealthConfig) (h : Health) (now : ℤ) : Health :=
  match h.drainDeadline with
  | none =>
    let h := { h with drainDeadline := some (now + reverseDrainTimeout) }.probe c now
      reverseDrainTimeout
    { h with drainProbeId := h.pendingId }
  | some deadline => if deadline ≤ now then h.fail "drain_confirmation_timeout" else h

/-- The deadlines, which every call looks at first. -/
def check (c : HealthConfig) (h : Health) (now : ℤ) (idle : Bool) : Health :=
  if h.state = .closed ∨ h.state = .dead then h
  else if h.done then h.transition .dead "transport_closed"
  else if h.state = .draining ∧ c.drainIdle ∧ idle then h.checkDrain c now
  else if h.state = .draining ∧ ¬ c.disconnectOnHealthFailure then h
  else if h.state = .validating ∧ h.started + c.readyTimeout ≤ now then h.fail "validation_timeout"
  else if h.state = .suspect ∧ h.hardDeadline ≤ now then h.failHealth c "confirmation_timeout"
  else h.checkOverdue c now

/-- The transport closes, or does not. -/
def interrupt (h : Health) (closes : Bool) : Health := { h with done := h.done || closes }

/-- Whether the worker takes a session. -/
def usable (c : HealthConfig) (h : Health) (env : Surroundings) : Health × Bool :=
  let h := (h.check c env.now env.idle).interrupt env.closes
  (h, decide (h.state = .ready) && !h.done)

/-- The worker is rotated. -/
def drain (c : HealthConfig) (h : Health) : Health :=
  if h.state = .ready then
    ((h.transition .draining "planned_rotation").send c (.leave h.nextId)).1
  else h

/-- Jitter by the id, so that the workers of a fleet probe at different times. -/
def probeDelay (c : HealthConfig) (h : Health) : ℤ :=
  let jitter := c.probeJitterPercent * 10
  (c.probeInterval * (1000 - jitter + (h.nextId.toNat % (2 * jitter + 1) : ℕ))).tdiv 1000

/-- Whether a frame acknowledges the pending probe in time. -/
def acknowledges (h : Health) (id : UInt64) (now : ℤ) : Bool :=
  decide (id = h.pendingId) && h.pendingId != 0 && decide (now < h.pendingDeadline)

/-- An ack of the pending probe. -/
def acked (h : Health) (now : ℤ) : Health :=
  { h with
    acks := h.acks + 1
    rtt := (now - h.sentAt).tdiv 1000000
    lastAck := some now
    pendingId := 0
    log := .accepted ⟨h.probes, h.pendingId, h.pendingDeadline⟩ now :: h.log }

/-- The last line of `receive`. -/
def settle (h : Health) : Health :=
  if h.state = .validating ∧ h.ownValidated ∧ h.peerValidated then
    h.transition .ready "bidirectional_validated"
  else h

/-- The drain probe came back: all frames before it crossed the carrier. -/
def receiveFence (c : HealthConfig) (h : Health) (env : Surroundings) : Health :=
  if c.drainIdle && env.idleAtAck then h.fail "drain_complete"
  else { h with drainProbeId := 0, drainDeadline := none }

/-- An ack while suspect counts towards recovery. -/
def receiveRecovery (c : HealthConfig) (h : Health) (env : Surroundings) : Health :=
  let h := { h with recoveryAcks := h.recoveryAcks + 1 }
  if UInt32.ofNat h.recoveryAcks < c.recoverySuccesses then
    h.probe c env.now (h.hardDeadline - env.later)
  else
    let h := h.transition .ready "confirmed_recovery"
    { h with nextProbe := env.now + h.probeDelay c }

/-- The first ack is passed on to the peer. -/
def validate (c : HealthConfig) (h : Health) (id : UInt64) : Health × Bool :=
  if h.ownValidated then (h, true) else { h with ownValidated := true }.send c (.confirm id)

/-- An ack arrives. -/
def receiveAck (c : HealthConfig) (h : Health) (id : UInt64) (env : Surroundings) :
    Health × Option String :=
  if !h.acknowledges id env.now then (h, none)
  else
    let h := h.acked env.now
    if h.state = .draining ∧ id = h.drainProbeId then (h.receiveFence c env, none)
    else
      match h.validate c id with
      | (h, false) => (h, some "reverse validation write failed")
      | (h, true) =>
        if h.state = .suspect then (h.receiveRecovery c env, none)
        else ({ h with nextProbe := env.now + h.probeDelay c }.settle, none)

/-- A probe arrives. -/
def receiveProbe (c : HealthConfig) (h : Health) (id : UInt64) : Health × Option String :=
  match { h with peerId := id }.send c (.pong id) with
  | (h, false) => (h, some "reverse pong write failed")
  | (h, true) => (h.settle, none)

/-- The peer is ready. -/
def receiveValidated (h : Health) (id : UInt64) : Health :=
  if id = h.peerId ∧ h.peerId ≠ 0 then
    { h with peerValidated := true, log := .confirmed id :: h.log }.settle
  else h.settle

def receiveDrain (h : Health) : Health :=
  if h.state = .ready then (h.transition .draining "peer_rotation").settle else h.settle

/-- A frame, and the error the worker's reader gets. -/
def receive (c : HealthConfig) (h : Health) (frame : Frame) (env : Surroundings) :
    Health × Option String :=
  let h := (h.check c env.now env.idle).interrupt env.closes
  if h.done then (h, some "reverse worker closed")
  else if frame.drain then (h.receiveDrain, none)
  else if frame.validated then (h.receiveValidated frame.probeId, none)
  else if frame.ack then h.receiveAck c frame.probeId env
  else h.receiveProbe c frame.probeId

/-- One turn of `run`'s loop. -/
def tick (c : HealthConfig) (h : Health) (env : Surroundings) : Health :=
  let h := (h.check c env.now env.idle).interrupt env.closes
  if h.state ≠ .closed ∧ ¬ h.done ∧ h.pendingId = 0 ∧ h.nextProbe ≤ env.now then
    h.probe c env.now
      (if h.state = .validating then h.started + c.readyTimeout - env.later else c.probeTimeout)
  else h

end Health

/-- What can happen to a worker. -/
inductive Call where
  | usable
  | snapshot
  | receive (frame : Frame)
  | tick
  | drain
  /-- the first half of the worker's `Close` -/
  | stop
  /-- the transport closes, or the second half of `Close` -/
  | close
  /-- the worker's threads end, which they do when the transport is closed -/
  | transportClosed

/-- The health of a worker behind one call. -/
def Health.step (c : HealthConfig) (h : Health) (event : Call × Surroundings) : Option Health :=
  let h := { h with answers := event.2.answers }
  match event.1 with
  | .usable => some (h.usable c event.2).1
  | .snapshot => some (h.check c event.2.now event.2.idle)
  | .receive frame => some (h.receive c frame event.2).1
  | .tick => some (h.tick c event.2)
  | .drain => some (h.drain c)
  | .stop => some (h.stop "closed")
  | .close => some { h with done := true }
  | .transportClosed => if h.done then some (h.stop "transport_closed") else none

end Brocade.Mux
