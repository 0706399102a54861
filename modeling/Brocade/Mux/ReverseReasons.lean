/-
The reasons a worker gives.

A worker gives its reason with the state it goes to, and where it is already there it keeps the
reason it has.  So what a call may come to say is read off the moves in it, whatever else it does.
-/
import Brocade.Mux.ReverseInvariant

namespace Brocade.Mux

/-- Whether a call looks at the deadlines. -/
def Call.looks : Call → Bool
  | .usable | .snapshot | .receive _ | .tick => true
  | _ => false

/-! ### Properties that a call keeps -/

/-- The fields that the properties below read. -/
def Health.core (h : Health) :=
  (h.state, h.reason, h.done, h.drainProbeId, h.hardDeadline, h.lastAck, h.pendingId,
    h.pendingDeadline)

/-- The states a worker goes to outside of the deadline check and the fence, with the reasons. -/
def turns : List (WorkerState × String) :=
  [(.draining, "peer_rotation"), (.draining, "planned_rotation"),
    (.ready, "bidirectional_validated"), (.ready, "confirmed_recovery")]

/-- The parts of a call that follow its look at the deadlines keep a property. -/
structure Stable (c : HealthConfig) (P : Health → Prop) : Prop where
  core : ∀ {h g : Health}, g.core = h.core → P h → P g
  transition : ∀ {h : Health}, ∀ turn ∈ turns, P h → P (h.transition turn.1 turn.2)
  send : ∀ {h : Health} (frame : Frame), P h → P (h.send c frame).1

namespace Stable

variable {c : HealthConfig} {P : Health → Prop} {h : Health} {env : Surroundings} (hP : Stable c P)

include hP

theorem settle (hin : P h) : P h.settle := by
  unfold Health.settle
  split
  · exact hP.transition (.ready, "bidirectional_validated") (by decide) hin
  · exact hin

theorem drain (hin : P h) : P (h.drain c) := by
  unfold Health.drain
  split
  · exact hP.send _ (hP.transition (.draining, "planned_rotation") (by decide) hin)
  · exact hin

theorem receive {frame : Frame} (hopen : P ((h.check c env.now env.idle).interrupt env.closes))
    (hack : frame.ack = true → ((h.check c env.now env.idle).interrupt env.closes).done = false →
      P (((h.check c env.now env.idle).interrupt env.closes).receiveAck c frame.probeId env).1) :
    P (h.receive c frame env).1 := by
  unfold Health.receive
  generalize (h.check c env.now env.idle).interrupt env.closes = h' at hopen hack
  dsimp only
  split
  · exact hopen
  next hdone =>
  split
  · unfold Health.receiveDrain
    split
    · exact hP.settle (hP.transition (.draining, "peer_rotation") (by decide) hopen)
    · exact hP.settle hopen
  split
  · unfold Health.receiveValidated
    split
    · exact hP.settle (hP.core (h := h') rfl hopen)
    · exact hP.settle hopen
  split
  · next hacks => exact hack hacks (by simpa using hdone)
  · unfold Health.receiveProbe
    have hpeer : P { h' with peerId := frame.probeId } := hP.core (h := h') rfl hopen
    have hsent := hP.send (.pong frame.probeId) hpeer
    generalize ({ h' with peerId := frame.probeId } : Health).send c (.pong frame.probeId) = answer
      at hsent ⊢
    obtain ⟨h'', accepted⟩ := answer
    cases accepted with
    | false => exact hsent
    | true => exact hP.settle hsent

theorem receiveAck {id : UInt64} (hin : P h) (hacked : P (h.acked env.now))
    (hfence : h.acknowledges id env.now = true → h.state = .draining → id = h.drainProbeId →
      P ((h.acked env.now).receiveFence c env))
    (hprobe : ∀ {g : Health} (timeout : ℤ), P g → P (g.probe c env.now timeout)) :
    P (h.receiveAck c id env).1 := by
  unfold Health.receiveAck
  split
  · exact hin
  next hacks =>
  dsimp only
  split
  · next hdrains => exact hfence (by simpa using hacks) hdrains.1 hdrains.2
  have hvalid : P ((h.acked env.now).validate c id).1 := by
    unfold Health.validate
    split
    · exact hacked
    · exact hP.send _ (hP.core (h := h.acked env.now) rfl hacked)
  generalize (h.acked env.now).validate c id = answer at hvalid ⊢
  obtain ⟨h', accepted⟩ := answer
  cases accepted with
  | false => exact hvalid
  | true =>
    dsimp only at hvalid ⊢
    split
    · unfold Health.receiveRecovery
      have hcounted : P { h' with recoveryAcks := h'.recoveryAcks + 1 } :=
        hP.core (h := h') rfl hvalid
      dsimp only
      split
      · exact hprobe _ hcounted
      · refine hP.core ?_ (hP.transition (.ready, "confirmed_recovery") (by decide) hcounted)
        rfl
    · exact hP.settle (hP.core (h := h') rfl hvalid)

end Stable

/-- The worker does not give one of these reasons for one of these states. -/
def Avoids (bad : WorkerState → String → Prop) (h : Health) : Prop := ¬ bad h.state h.reason

/-- None of the reasons that a call gives besides those of the deadline check and of the fence. -/
structure Harmless (bad : WorkerState → String → Prop) : Prop where
  queue : ∀ s, ¬ bad s "control_queue_full_or_closed"
  validated : ∀ s, ¬ bad s "bidirectional_validated"
  recovered : ∀ s, ¬ bad s "confirmed_recovery"
  peer : ∀ s, ¬ bad s "peer_rotation"
  planned : ∀ s, ¬ bad s "planned_rotation"
  closed : ∀ s, ¬ bad s "closed"
  transport : ∀ s, ¬ bad s "transport_closed"

variable {bad : WorkerState → String → Prop} {c : HealthConfig} {h : Health}

section

variable (hin : Avoids bad h)

include hin

theorem Avoids.transition {s : WorkerState} {reason : String} (hreason : ¬ bad s reason) :
    Avoids bad (h.transition s reason) := by
  unfold Health.transition
  by_cases hsame : h.state = s
  · rw [if_pos hsame]
    exact hin
  · rw [if_neg hsame]
    exact hreason

theorem Avoids.enqueue (frame : Frame) : Avoids bad (h.enqueue frame).1 := by
  rcases enqueue_cases h frame with ⟨rest, -, heq⟩ | ⟨-, rest, heq⟩
  · rw [heq]
    exact hin
  · rw [heq]
    exact hin

theorem Avoids.failHealth {reason : String} (hreason : ∀ s, ¬ bad s reason) :
    Avoids bad (h.failHealth c reason) := by
  unfold Health.failHealth
  split
  · exact hin.transition (hreason .dead)
  · have hcleared : Avoids bad { h with pendingId := 0 } := hin
    exact (hcleared.transition (hreason .draining)).enqueue _

theorem Avoids.send (hbad : Harmless bad) (frame : Frame) : Avoids bad (h.send c frame).1 := by
  rcases send_cases c h frame with ⟨rest, -, heq⟩ | ⟨-, rest, heq⟩
  · rw [heq]
    exact hin
  · have hrest : Avoids bad { h with answers := rest } := hin
    rw [heq]
    exact hrest.failHealth hbad.queue

theorem Avoids.probe (hbad : Harmless bad) (now timeout : ℤ) :
    Avoids bad (h.probe c now timeout) := by
  have hissued : Avoids bad (h.issue now timeout) := hin
  exact hissued.send hbad _

end

theorem Avoids.stable (hbad : Harmless bad) : Stable c (Avoids bad) where
  core heq hin := by
    simp only [Health.core, Prod.mk.injEq] at heq
    unfold Avoids
    rw [heq.1, heq.2.1]
    exact hin
  transition turn hturn hin := by
    refine hin.transition ?_
    simp only [turns, List.mem_cons, List.not_mem_nil, or_false] at hturn
    rcases hturn with rfl | rfl | rfl | rfl
    · exact hbad.peer _
    · exact hbad.planned _
    · exact hbad.validated _
    · exact hbad.recovered _
  send frame hin := hin.send hbad frame

theorem Avoids.receive {frame : Frame} {env : Surroundings}
    (hin : Avoids bad (h.check c env.now env.idle)) (hbad : Harmless bad)
    (hfence : (h.check c env.now env.idle).acknowledges frame.probeId env.now = true →
      (h.check c env.now env.idle).state = .draining →
      frame.probeId = (h.check c env.now env.idle).drainProbeId →
      (h.check c env.now env.idle).done = false → frame.ack = true →
      c.drainIdle = true → env.idleAtAck = true → ¬ bad .dead "drain_complete") :
    Avoids bad (h.receive c frame env).1 := by
  refine (stable hbad).receive hin fun hack hdone => ?_
  have hstays : (h.check c env.now env.idle).done = false := by
    simp only [Health.interrupt, Bool.or_eq_false_iff] at hdone
    exact hdone.1
  refine (stable hbad).receiveAck hin hin (fun hacks hdraining hid => ?_) fun _ h => h.probe hbad _ _
  unfold Health.receiveFence
  split
  · next hidle =>
      rw [Bool.and_eq_true] at hidle
      have hacked : Avoids bad (((h.check c env.now env.idle).interrupt env.closes).acked env.now) :=
        hin
      exact hacked.transition (hfence hacks hdraining hid hstays hack hidle.1 hidle.2)
  · exact hin

theorem Avoids.check (hin : Avoids bad h) (hother : ∀ s reason, reason ≠ "drain_complete" →
    ¬ bad s reason) (now : ℤ) (idle : Bool) : Avoids bad (h.check c now idle) := by
  have hbad : Harmless bad := by
    constructor
    all_goals
      intro s
      exact hother s _ (by decide)
  unfold Health.check
  split
  · exact hin
  split
  · exact hin.transition (hother _ _ (by decide))
  split
  · unfold Health.checkDrain
    split
    · have hstarted : Avoids bad { h with drainDeadline := some (now + reverseDrainTimeout) } := hin
      exact hstarted.probe hbad _ _
    · split
      · exact hin.transition (hother _ _ (by decide))
      · exact hin
  split
  · exact hin
  split
  · exact hin.transition (hother _ _ (by decide))
  split
  · exact hin.failHealth fun s => hother s _ (by decide)
  unfold Health.checkOverdue
  split
  · have hcounted : Avoids bad { h with timeouts := h.timeouts + 1 } := hin
    dsimp only
    split
    · exact hcounted.failHealth fun s => hother s _ (by decide)
    split
    · exact hcounted.transition (hother _ _ (by decide))
    have hsuspected : Avoids bad (({ h with timeouts := h.timeouts + 1 } : Health).suspected
        (({ h with timeouts := h.timeouts + 1 } : Health).confirmationDeadline c now)) :=
      hcounted.transition (hother .suspect "probe_timeout" (by decide))
    split
    · exact hsuspected.failHealth fun s => hother s _ (by decide)
    · exact hsuspected.probe hbad _ _
  · exact hin

theorem Avoids.tick {env : Surroundings} (hin : Avoids bad (h.check c env.now env.idle))
    (hbad : Harmless bad) : Avoids bad (h.tick c env) := by
  unfold Health.tick
  have hopen : Avoids bad ((h.check c env.now env.idle).interrupt env.closes) := hin
  dsimp only
  split
  · exact hopen.probe hbad _ _
  · exact hopen

theorem Avoids.drain (hin : Avoids bad h) (hbad : Harmless bad) : Avoids bad (h.drain c) :=
  (stable hbad).drain hin

theorem Avoids.stop (hin : Avoids bad h) {reason : String} (hreason : ∀ s, ¬ bad s reason) :
    Avoids bad (h.stop reason) := by
  unfold Health.stop
  split
  · exact hin
  split
  · exact (hin.transition (hreason .dead)).transition (hreason .closed)
  · exact hin.transition (hreason .closed)

end Brocade.Mux
