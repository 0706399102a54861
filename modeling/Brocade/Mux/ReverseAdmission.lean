/-
What a reverse worker admits, over every order of calls.

Each call first looks at the deadlines.  A worker still ready afterwards has no late probe and
an ack younger than the lease; a worker still suspect has its deadline ahead; and a worker found
closed is as it was.  From there the calls are the updates one after another.
-/
import Brocade.Mux.ReverseInvariant

namespace Brocade.Mux

section
variable {strict : Prop} {c : HealthConfig} {h : Health}

/-! ### The deadline check -/

/-- What the deadline check leaves of `h`. -/
structure Checked (strict : Prop) (c : HealthConfig) (now : ℤ) (h g : Health) : Prop where
  good : Good strict c g
  ready : g.state = .ready → g.expired now = false ∧ g.leaseExpired c now = false
  inTime : g.state = .suspect → now < g.hardDeadline
  closed : g.state = .closed → g = h

theorem Checked.of_lost {now : ℤ} {g : Health} (hgood : Good strict c g)
    (hlost : g.state.lost = true) (hopen : g.state = .closed → g = h) :
    Checked strict c now h g := by
  refine ⟨hgood, fun hs => ?_, fun hs => ?_, hopen⟩
  · rw [hs] at hlost
    cases hlost
  · rw [hs] at hlost
    cases hlost

theorem fail_state (h : Health) (reason : String) : (h.fail reason).state = .dead :=
  transition_state (h := h) _ _

theorem failHealth_open (c : HealthConfig) (h : Health) (reason : String) :
    (h.failHealth c reason).state ≠ .closed := by
  unfold Health.failHealth
  split
  · rw [fail_state]
    decide
  · rw [enqueue_state, transition_state]
    decide

theorem Checked.fail {now : ℤ} (hinv : Inv strict c h) (g : Health) (reason : String)
    (hopen : h.state.gone = false) : Checked strict c now g (h.fail reason) := by
  have hstate := fail_state h reason
  have hlost : (h.fail reason).state.lost = true := by
    rw [hstate]
    rfl
  refine .of_lost ⟨hinv.fail reason fun _ hc => ?_, .of_lost hlost⟩ hlost fun hc => ?_
  · rw [hc] at hopen
    cases hopen
  · rw [hstate] at hc
    cases hc

theorem Checked.failHealth {now : ℤ} (hinv : Inv strict c h) (g : Health) (reason : String)
    (hopen : h.state.gone = false) : Checked strict c now g (h.failHealth c reason) :=
  .of_lost (Good.failHealth hinv reason fun _ => hopen) (failHealth_lost c h reason)
    fun hc => absurd hc (failHealth_open c h reason)

theorem probe_cases (c : HealthConfig) (h : Health) (now timeout : ℤ) :
    ((h.probe c now timeout).state = h.state
        ∧ (h.probe c now timeout).hardDeadline = h.hardDeadline)
      ∨ (h.probe c now timeout).state.lost = true ∧ (h.probe c now timeout).state ≠ .closed := by
  unfold Health.probe
  rcases send_cases c (h.issue now timeout) (.probe (Health.followingId h.nextId))
    with ⟨rest, _, heq⟩ | ⟨_, rest, heq⟩ <;> rw [heq]
  · exact .inl ⟨rfl, rfl⟩
  · exact .inr ⟨failHealth_lost c _ _, failHealth_open c _ _⟩

theorem suspected_state (h : Health) (deadline : ℤ) : (h.suspected deadline).state = .suspect :=
  transition_state (h := h) _ _

theorem Checked.suspected {now : ℤ} (hinv : Inv strict c h) (hready : h.state = .ready)
    (g : Health) (deadline : ℤ) (hahead : ¬ deadline ≤ now) :
    Checked strict c now g ((h.suspected deadline).probe c now (deadline - now)) := by
  have hstate := suspected_state h deadline
  have hgood := Good.probe (hinv.suspected hready deadline) now (deadline - now) fun _ hg => by
    rw [hstate] at hg
    cases hg
  rcases probe_cases c (h.suspected deadline) now (deadline - now) with
    ⟨hprobed, hdeadline⟩ | ⟨hlost, hopen⟩
  · refine ⟨hgood, fun hs => ?_, fun _ => ?_, fun hs => ?_⟩
    · rw [hprobed, hstate] at hs
      cases hs
    · rw [hdeadline]
      exact Int.lt_of_not_ge hahead
    · rw [hprobed, hstate] at hs
      cases hs
  · exact .of_lost hgood hlost fun hs => absurd hs hopen

theorem Checked.overdue (hgood : Good strict c h) {now : ℤ} (hopen : h.state.gone = false)
    (htime : h.state = .suspect → now < h.hardDeadline) :
    Checked strict c now h (h.checkOverdue c now) := by
  unfold Health.checkOverdue
  split
  next hlate =>
    have hcounted : Inv strict c { h with timeouts := h.timeouts + 1 } := hgood.1.of_plain rfl
    dsimp only
    split
    next => exact .failHealth hcounted h _ hopen
    next hrest =>
      split
      next => exact .fail hcounted h _ hopen
      next hvalidating =>
        have hready : h.state = .ready := by
          cases hs : h.state <;> simp_all [WorkerState.gone]
        split
        next =>
          exact .failHealth (hcounted.suspected hready _) h _
            (by rw [suspected_state]; rfl)
        next hahead => exact .suspected hcounted hready h _ hahead
  next hearly =>
    simp only [Bool.or_eq_true, not_or, Bool.not_eq_true] at hearly
    exact ⟨hgood, fun _ => hearly, htime, fun _ => rfl⟩

theorem Checked.drain (hinv : Inv strict c h) {now : ℤ} (hdraining : h.state = .draining) :
    Checked strict c now h (h.checkDrain c now) := by
  have hopen : h.state.gone = false := by
    rw [hdraining]
    rfl
  unfold Health.checkDrain
  split
  next =>
    have hstart : Inv strict c { h with drainDeadline := some (now + reverseDrainTimeout) } :=
      hinv.of_plain rfl
    have hgood := Good.probe hstart now reverseDrainTimeout fun _ hg => by
      rw [hopen] at hg
      cases hg
    have hleft : ({ h with drainDeadline := some (now + reverseDrainTimeout) }.probe c now
          reverseDrainTimeout).state.lost = true
        ∧ ({ h with drainDeadline := some (now + reverseDrainTimeout) }.probe c now
          reverseDrainTimeout).state ≠ .closed := by
      rcases probe_cases c { h with drainDeadline := some (now + reverseDrainTimeout) } now
        reverseDrainTimeout with ⟨hstate, _⟩ | hlost
      · rw [hstate, hdraining]
        exact ⟨rfl, by decide⟩
      · exact hlost
    exact .of_lost ⟨hgood.1.of_plain rfl, .of_lost hleft.1⟩ hleft.1 fun hc => absurd hc hleft.2
  next deadline _ =>
    split
    next => exact .fail hinv h _ hopen
    next =>
      have hlost : h.state.lost = true := by
        rw [hdraining]
        rfl
      exact .of_lost ⟨hinv, .of_lost hlost⟩ hlost fun _ => rfl

theorem check_spec (hgood : Good strict c h) (now : ℤ) (idle : Bool) :
    Checked strict c now h (h.check c now idle) := by
  unfold Health.check
  split
  next hgone =>
    have hlost : h.state.lost = true := by
      rcases hgone with hs | hs <;> rw [hs] <;> rfl
    exact .of_lost hgood hlost fun _ => rfl
  next hopen =>
    have hopen : h.state.gone = false := by
      cases hs : h.state <;> simp_all [WorkerState.gone]
    split
    next hdone =>
      have hstate := transition_state (h := h) .dead "transport_closed"
      have hlost : (h.transition .dead "transport_closed").state.lost = true := by
        rw [hstate]
        rfl
      refine .of_lost ⟨hgood.1.leave _ rfl (fun _ hg => ?_) fun _ => hdone, .of_lost hlost⟩ hlost
        fun hc => ?_
      · rw [hopen] at hg
        cases hg
      · rw [hstate] at hc
        cases hc
    next =>
      split
      next hdraining => exact .drain hgood.1 hdraining.1
      next =>
        split
        next hdraining =>
          have hlost : h.state.lost = true := by
            rw [hdraining.1]
            rfl
          exact .of_lost hgood hlost fun _ => rfl
        next =>
          split
          next => exact .fail hgood.1 h _ hopen
          next =>
            split
            next => exact .failHealth hgood.1 h _ hopen
            next hahead =>
              exact .overdue hgood hopen fun hs => Int.lt_of_not_ge fun hl => hahead ⟨hs, hl⟩

/-! ### Frames -/

theorem Good.interrupt (hgood : Good strict c h) (closes : Bool) :
    Good strict c (h.interrupt closes) :=
  ⟨hgood.1.interrupt closes, hgood.2⟩

theorem Good.settle (hgood : Good strict c h) : Good strict c h.settle := by
  unfold Health.settle
  split
  next hvalid =>
    have hstate := transition_state (h := h) .ready "bidirectional_validated"
    refine ⟨hgood.1.transition _ ?_ (fun hd => by cases hd) (fun _ => hvalid.2) ?_ (by decide),
      fun hs => ?_⟩
    · rw [hvalid.1]
      exact ⟨fun hl => absurd hl (by decide), fun _ hg => absurd hg (by decide)⟩
    · intro _ hs
      rw [hvalid.1] at hs
      cases hs
    · rw [hstate] at hs
      cases hs
  next => exact hgood

theorem Good.receiveDrain (hgood : Good strict c h) : Good strict c h.receiveDrain := by
  unfold Health.receiveDrain
  split
  next hready =>
    have hstate := transition_state (h := h) .draining "peer_rotation"
    refine Good.settle ⟨hgood.1.leave _ rfl (fun _ hg => ?_) (fun hd => by cases hd), fun hs => ?_⟩
    · rw [hready] at hg
      cases hg
    · rw [hstate] at hs
      cases hs
  next => exact hgood.settle

theorem Good.receiveValidated (hgood : Good strict c h) (id : UInt64) :
    Good strict c (h.receiveValidated id) := by
  unfold Health.receiveValidated
  split
  next hid =>
    rw [hid.1]
    exact Good.settle ⟨hgood.1.confirm hid.2, fun hs hp => List.mem_cons_of_mem _ (hgood.2 hs hp)⟩
  next => exact hgood.settle

theorem transition_peerId (h : Health) (id : UInt64) (s : WorkerState) (reason : String) :
    { h with peerId := id }.transition s reason = { h.transition s reason with peerId := id } := by
  by_cases hs : h.state = s <;> simp [Health.transition, hs]

theorem enqueue_peerId (h : Health) (id : UInt64) (frame : Frame) :
    ({ h with peerId := id }.enqueue frame).1 = { (h.enqueue frame).1 with peerId := id } := by
  unfold Health.enqueue
  split <;> simp_all

theorem failHealth_peerId (c : HealthConfig) (h : Health) (reason : String) (id : UInt64) :
    { h with peerId := id }.failHealth c reason = { h.failHealth c reason with peerId := id } := by
  unfold Health.failHealth
  split
  · unfold Health.fail
    rw [transition_peerId]
  · rw [← enqueue_peerId, ← transition_peerId]

theorem Good.receiveProbe (hgood : Good strict c h) (id : UInt64)
    (hgone : strict → h.state.gone = true → h.answers.head? = some true) :
    Good strict c (h.receiveProbe c id).1 := by
  unfold Health.receiveProbe
  rcases send_cases c { h with peerId := id } (.pong id) with
    ⟨rest, _, heq⟩ | ⟨hrefused, rest, heq⟩ <;> rw [heq] <;> dsimp only
  · refine Good.settle ⟨?_, fun hs hp => List.mem_cons_of_mem _ (hgood.2 hs hp)⟩
    exact ((hgood.1.note (.sent (.pong id)) rfl rfl rfl).answered id
      (.inr List.mem_cons_self)).of_plain rfl
  · have hinv : Inv strict c { h with answers := rest } := hgood.1.of_plain rfl
    have hfailed := Good.failHealth hinv "control_queue_full_or_closed" fun hst => by
      by_contra hg
      exact hrefused (hgone hst (by simpa using hg))
    have hlost := failHealth_lost c { h with answers := rest } "control_queue_full_or_closed"
    have hsame := failHealth_peerId c { h with answers := rest } "control_queue_full_or_closed" id
    refine ⟨?_, ?_⟩
    · exact hsame ▸ hfailed.1.answered id (.inl hlost)
    · exact hsame ▸ Watched.of_lost hlost

/-! ### Acks -/

theorem Good.receiveFence (hgood : Good strict c h) (env : Surroundings)
    (hdraining : h.state = .draining) : Good strict c (h.receiveFence c env) := by
  unfold Health.receiveFence
  split
  · refine ⟨hgood.1.fail _ fun _ => ?_, .of_lost ?_⟩
    · rw [hdraining]
      decide
    · rw [fail_state]
      rfl
  · exact ⟨hgood.1.of_plain rfl, hgood.2⟩

theorem toNat_le_of_not_lt {k : ℕ} {n : UInt32} (h : ¬ UInt32.ofNat k < n) : n.toNat ≤ k := by
  have hle := UInt32.le_iff_toNat_le.mp (UInt32.not_lt.mp h)
  rw [UInt32.toNat_ofNat'] at hle
  exact hle.trans (Nat.mod_le _ _)

theorem Inv.recovery (hinv : Inv strict c h) (hsuspect : h.state = .suspect)
    (hcounted : ¬ UInt32.ofNat h.recoveryAcks < c.recoverySuccesses) : Recovered c h.log := by
  obtain ⟨hbound, hcount, htime⟩ := hinv.suspicion hsuspect
  have hsub := (sinceMove_sublist h.log).filterMap Entry.acceptance?
  refine ⟨h.hardDeadline, hbound, (toNat_le_of_not_lt hcounted).trans hcount, ?_, fun a ha => ?_⟩
  · refine List.pairwise_map.mpr ((hinv.distinct.sublist hsub).imp fun hlt heq => ?_)
    rw [heq] at hlt
    exact Nat.lt_irrefl _ hlt
  · exact ⟨(htime a ha).1, (htime a ha).2, (hinv.timely a (hsub.subset ha)).2⟩

theorem Good.receiveRecovery (hinv : Inv strict c h) (env : Surroundings)
    (hsuspect : h.state = .suspect)
    (hcount : h.recoveryAcks + 1 ≤ (acceptances (sinceMove h.log)).length) :
    Good strict c (h.receiveRecovery c env) := by
  have hcounted : Inv strict c { h with recoveryAcks := h.recoveryAcks + 1 } :=
    { hinv with
      suspicion := fun hs => ⟨(hinv.suspicion hs).bound, hcount, (hinv.suspicion hs).inTime⟩ }
  unfold Health.receiveRecovery
  dsimp only
  split
  next =>
    refine Good.probe hcounted _ _ fun _ hg => ?_
    rw [hsuspect] at hg
    cases hg
  next henough =>
    have hstate := transition_state (h := { h with recoveryAcks := h.recoveryAcks + 1 }) .ready
      "confirmed_recovery"
    have hready := hcounted.transition (s := .ready) "confirmed_recovery"
      (by
        rw [hsuspect]
        exact ⟨fun hl => absurd hl (by decide), fun _ hg => absurd hg (by decide)⟩)
      (fun hd => by cases hd) (fun _ => hinv.validated (.inr hsuspect))
      (fun _ hs => hcounted.recovery hs henough) (by decide)
    refine ⟨hready.of_plain rfl, fun hs => ?_⟩
    exact absurd (hs.symm.trans hstate) (by decide)

section

variable (hgood : Good strict c h)

include hgood

theorem Good.validate (id : UInt64) (hack : h.lastAck.isSome = true)
    (hgone : strict → h.state.gone = true → h.ownValidated = false →
      h.answers.head? = some true) : Good strict c (h.validate c id).1
      ∧ ((h.validate c id).1.state = .suspect → (h.validate c id).1 = h) := by
  unfold Health.validate
  by_cases hown : h.ownValidated = true
  · rw [if_pos hown]
    exact ⟨hgood, fun _ => rfl⟩
  · rw [if_neg hown]
    have hpassed : Good strict c { h with ownValidated := true } :=
      ⟨hgood.1.ownValidated hack, hgood.2⟩
    refine ⟨hpassed.send fun hst hg => hgone hst hg (by simpa using hown), fun hsuspect => ?_⟩
    rcases send_state c { h with ownValidated := true } (.confirm id) with hstate | hlost
    · exact absurd (hgood.1.validated (.inr (hstate.symm.trans hsuspect))).1 hown
    · rw [hsuspect] at hlost
      cases hlost

theorem Good.receiveAck {id : UInt64} {env : Surroundings}
    (hhard : h.state = .suspect → env.now < h.hardDeadline)
    (hgone : strict → h.state.gone = true → h.acknowledges id env.now = true →
      h.ownValidated = false → h.answers.head? = some true) :
    Good strict c (h.receiveAck c id env).1 := by
  unfold Health.receiveAck
  split
  next => exact hgood
  next hack =>
    have hack : h.acknowledges id env.now = true := by simpa using hack
    have hparts := hack
    simp only [Health.acknowledges, Bool.and_eq_true, decide_eq_true_eq, bne_iff_ne] at hparts
    have hacked : Inv strict c (h.acked env.now) :=
      hgood.1.acked hgood.2 hparts.1.2 hparts.2 hhard
    have hgood' : Good strict c (h.acked env.now) := ⟨hacked, fun _ hp => absurd rfl hp⟩
    dsimp only
    split
    next hfence => exact hgood'.receiveFence env hfence.1
    next =>
      have hvalidate := hgood'.validate id rfl fun hst hg hown =>
        hgone hst hg hack hown
      revert hvalidate
      rcases (h.acked env.now).validate c id with ⟨g, ok⟩
      rintro ⟨hvalid, hsame⟩
      cases ok with
      | false => exact hvalid
      | true =>
        dsimp only at hvalid hsame ⊢
        split
        next hsuspect =>
          have heq := hsame hsuspect
          rw [heq] at hsuspect ⊢
          exact Good.receiveRecovery hacked env hsuspect
            (Nat.succ_le_succ (hgood.1.suspicion hsuspect).counted)
        next => exact Good.settle ⟨hvalid.1.of_plain rfl, hvalid.2⟩

/-! ### Calls -/

theorem Good.usable (env : Surroundings) : Good strict c (h.usable c env).1 :=
  (check_spec hgood env.now env.idle).good.interrupt env.closes

theorem Good.drain : Good strict c (h.drain c) := by
  unfold Health.drain
  split
  next hready =>
    have hstate := transition_state (h := h) .draining "planned_rotation"
    refine Good.send ⟨hgood.1.leave _ rfl (fun _ hg => ?_) (fun hd => by cases hd), fun hs => ?_⟩
      fun _ hg => ?_
    · rw [hready] at hg
      cases hg
    · rw [hstate] at hs
      cases hs
    · rw [hstate] at hg
      cases hg
  next => exact hgood

theorem Good.tick (env : Surroundings) : Good strict c (h.tick c env) := by
  have hchecked := (check_spec hgood env.now env.idle).good.interrupt env.closes
  unfold Health.tick
  dsimp only
  split
  next hopen =>
    refine Good.probe hchecked.1 _ _ fun _ hg => ?_
    -- a dead worker's transport is closed
    have hdead := hchecked.1.dead
    cases hs : (h.check c env.now env.idle).interrupt env.closes |>.state <;>
      simp_all [WorkerState.gone]
  next => exact hchecked

theorem Good.stop (reason : String) (hdone : reason = "transport_closed" → h.done = true) :
    Good strict c (h.stop reason) := by
  unfold Health.stop
  split
  next => exact hgood
  next =>
    have hlost (g : Health) : (g.transition .closed reason).state.lost = true := by
      rw [transition_state]
      rfl
    split
    next hdead =>
      have hmoved : Inv strict c (h.transition .dead reason) := by
        refine hgood.1.leave reason rfl (fun _ hg => ?_) fun _ => hdone hdead.1
        cases hs : h.state <;> simp_all [WorkerState.gone]
      exact ⟨hmoved.leave reason rfl (fun _ _ => rfl) (fun hd => by cases hd), .of_lost (hlost _)⟩
    next =>
      exact ⟨hgood.1.leave reason rfl (fun _ _ => rfl) (fun hd => by cases hd), .of_lost (hlost _)⟩

end

end

/-! ### Runs -/

/-- Whether the worker has to write something because of a frame. -/
def Health.needsWrite (h : Health) (frame : Frame) (now : ℤ) : Bool :=
  !frame.drain && !frame.validated
    && (!frame.ack || h.acknowledges frame.probeId now && !h.ownValidated)

/-- A frame comes between the two halves of `Close`, and the control queue refuses its answer. -/
def Health.refused (h : Health) (event : Call × Surroundings) : Bool :=
  match event.1 with
  | .receive frame =>
    decide (h.state = .closed) && !h.done && !event.2.closes && h.needsWrite frame event.2.now
      && event.2.answers.head? != some true
  | _ => false

section
variable {strict : Prop} {c : HealthConfig} {h : Health}

theorem interrupt_open {closes : Bool} (hopen : (h.interrupt closes).done = false) :
    h.interrupt closes = h := by
  cases h
  simp_all [Health.interrupt]

theorem Good.receive (hgood : Good strict c h) (frame : Frame) (env : Surroundings)
    (hanswers : h.answers = env.answers)
    (hrefused : strict → h.refused (.receive frame, env) = false) :
    Good strict c (h.receive c frame env).1 := by
  have hchecked := check_spec hgood env.now env.idle
  have hgood' := hchecked.good.interrupt env.closes
  unfold Health.receive
  dsimp only
  split
  next => exact hgood'
  next hopen =>
    -- a worker at its end whose transport is open is one that was closed before the call
    have hsame : ((h.check c env.now env.idle).interrupt env.closes).state.gone = true →
        h.state = .closed ∧ (h.check c env.now env.idle).interrupt env.closes = h := by
      intro hg
      have hdead := hgood'.1.dead
      have hstate : (h.check c env.now env.idle).state = .closed := by
        cases hs : (h.check c env.now env.idle).state <;>
          simp_all [WorkerState.gone, Health.interrupt]
      have heq := hchecked.closed hstate
      rw [heq] at hstate hopen ⊢
      exact ⟨hstate, interrupt_open (by simpa using hopen)⟩
    have hwrites : strict → ((h.check c env.now env.idle).interrupt env.closes).state.gone = true →
        h.needsWrite frame env.now = true → h.answers.head? = some true := by
      intro hst hg hneeds
      obtain ⟨hclosed, heq⟩ := hsame hg
      have hno := hrefused hst
      rw [heq] at hopen
      have hcloses : env.closes = false := by
        have := congrArg Health.done heq
        simp only [Health.interrupt] at this
        cases hcl : env.closes <;> simp_all
      simp_all [Health.refused]
    split
    next => exact hgood'.receiveDrain
    next hdrain =>
      split
      next => exact hgood'.receiveValidated _
      next hvalidated =>
        split
        next hack =>
          refine hgood'.receiveAck hchecked.inTime fun hst hg hacks hown => ?_
          rw [(hsame hg).2] at hacks hown ⊢
          exact hwrites hst hg (by simp_all [Health.needsWrite])
        next hack =>
          refine hgood'.receiveProbe _ fun hst hg => ?_
          rw [(hsame hg).2]
          exact hwrites hst hg (by simp_all [Health.needsWrite])

theorem Good.step (hgood : Good strict c h) {event : Call × Surroundings} {g : Health}
    (hrefused : strict → h.refused event = false) (hstep : h.step c event = some g) :
    Good strict c g := by
  obtain ⟨call, env⟩ := event
  have hstart : Good strict c { h with answers := env.answers } :=
    ⟨hgood.1.of_plain rfl, hgood.2⟩
  unfold Health.step at hstep
  cases call with
  | usable =>
    injection hstep with hstep
    exact hstep ▸ hstart.usable env
  | snapshot =>
    injection hstep with hstep
    exact hstep ▸ (check_spec hstart env.now env.idle).good
  | receive frame =>
    injection hstep with hstep
    exact hstep ▸ hstart.receive frame env rfl hrefused
  | tick =>
    injection hstep with hstep
    exact hstep ▸ hstart.tick env
  | drain =>
    injection hstep with hstep
    exact hstep ▸ hstart.drain
  | stop =>
    injection hstep with hstep
    exact hstep ▸ hstart.stop "closed" fun hr => absurd hr (by decide)
  | close =>
    injection hstep with hstep
    have hclosed := hstart.interrupt true
    simp only [Health.interrupt, Bool.or_true] at hclosed
    exact hstep ▸ hclosed
  | transportClosed =>
    dsimp only at hstep
    split at hstep
    next hdone =>
      injection hstep with hstep
      exact hstep ▸ hstart.stop "transport_closed" fun _ => hdone
    next => cases hstep

theorem Good.run {events : List (Call × Surroundings)} : ∀ {h g : Health}, Good strict c h →
      (strict → ∀ before event after, events = before ++ event :: after →
        ∀ m, before.foldlM (Health.step c) h = some m → m.refused event = false) →
      events.foldlM (Health.step c) h = some g → Good strict c g := by
  induction events with
  | nil =>
    intro h g hgood _ hrun
    injection hrun with hrun
    exact hrun ▸ hgood
  | cons event rest ih =>
    intro h g hgood hrefused hrun
    rw [List.foldlM_cons] at hrun
    obtain ⟨m, hstep, hrest⟩ := Option.bind_eq_some_iff.mp hrun
    refine ih (hgood.step (fun hst => ?_) hstep) (fun hst before e after hsplit n hbefore => ?_)
      hrest
    · exact hrefused hst [] event rest rfl h rfl
    · refine hrefused hst (event :: before) e after (by rw [hsplit]; rfl) n ?_
      rw [List.foldlM_cons]
      exact Option.bind_eq_some_iff.mpr ⟨m, hstep, hbefore⟩

end

/-! ### What is known of a worker that takes sessions -/

/-- What a worker went through that is usable now. -/
structure Admissible (c : HealthConfig) (now : ℤ) (h : Health) : Prop where
  /-- One of its own probes was acknowledged before its deadline. -/
  acknowledged : ∃ a ∈ acceptances h.log, Entry.issued a.1 ∈ h.log ∧ a.2 < a.1.deadline
  /-- The peer confirmed an id that this end acknowledged. -/
  confirmed : ∃ id, Entry.confirmed id ∈ h.log ∧ Entry.sent (.pong id) ∈ h.log
  /-- The last accepted ack is younger than the lease. -/
  young : ∃ last, (acceptances h.log).head?.map Prod.snd = some last ∧ now < last + c.healthLease
  prompt : h.pendingId ≠ 0 → now < h.pendingDeadline

theorem Good.admissible {c : HealthConfig} {h : Health} (hgood : Good False c h)
    (env : Surroundings) (husable : (h.usable c env).2 = true) :
    Admissible c env.now (h.usable c env).1 := by
  have hinv := (hgood.usable env).1
  have hready : (h.usable c env).1.state = .ready := by
    simp only [Health.usable, Bool.and_eq_true, decide_eq_true_eq] at husable
    exact husable.1
  obtain ⟨hpending, hlease⟩ := (check_spec hgood env.now env.idle).ready hready
  obtain ⟨hown, hpeer⟩ := hinv.validated (.inl hready)
  obtain ⟨last, hlast⟩ := Option.isSome_iff_exists.mp (hinv.own hown)
  have hhead := hinv.last.trans hlast
  obtain ⟨a, ha, _⟩ := Option.map_eq_some_iff.mp hhead
  have hmem := List.mem_of_mem_head? ha
  refine ⟨⟨a, hmem, hinv.timely a hmem⟩, ?_, ⟨last, hhead, ?_⟩, fun hid => ?_⟩
  · refine (hinv.confirmed hpeer).resolve_left ?_
    rw [hready]
    decide
  · have hfresh : ¬ last + c.healthLease ≤ env.now := by
      have hcheck : (h.check c env.now env.idle).lastAck = some last := hlast
      simpa [Health.leaseExpired, hcheck] using hlease
    exact Int.lt_of_not_ge hfresh
  · have hid' : (h.check c env.now env.idle).pendingId ≠ 0 := hid
    refine Int.lt_of_not_ge fun hlate => ?_
    have : (h.check c env.now env.idle).pendingDeadline ≤ env.now := hlate
    simp [Health.expired, hid', this] at hpending

/-- A worker takes sessions only on evidence of both directions that is still good, becomes ready
again only after enough acks in time, and never leaves the drain.  It stays at its end unless an
answer is refused while it is being closed. -/
theorem worker_lifecycle (c : HealthConfig) (now : ℤ) (seed : UInt64)
    (events : List (Call × Surroundings)) (h : Health)
    (hrun : events.foldlM (Health.step c) (Health.fresh now seed) = some h) :
    (∀ env : Surroundings, ({ h with answers := env.answers }.usable c env).2 = true →
        Admissible c env.now ({ h with answers := env.answers }.usable c env).1)
      ∧ (∀ older, (.moved .ready :: older) <:+ h.log →
        (states older).head? = some .suspect → Recovered c older)
      ∧ (states h.log).Pairwise (fun newer older => older = .draining →
        newer ≠ .validating ∧ newer ≠ .suspect ∧ newer ≠ .ready)
      ∧ ((∀ before event after, events = before ++ event :: after →
          ∀ m, before.foldlM (Health.step c) (Health.fresh now seed) = some m →
            m.refused event = false) →
        (states h.log).Pairwise fun newer older =>
          older = .dead ∨ older = .closed → newer = .closed) := by
  have hfresh (strict : Prop) : Good strict c (Health.fresh now seed) :=
    ⟨Inv.fresh now seed, fun hs => by cases hs⟩
  have hgood : Good False c h := (hfresh False).run (fun hf => hf.elim) hrun
  refine ⟨fun env => ?_, hgood.1.recovered, hgood.1.path.imp ?_, fun hrefused => ?_⟩
  · have hstart : Good False c { h with answers := env.answers } :=
      ⟨hgood.1.of_plain rfl, hgood.2⟩
    exact hstart.admissible env
  · intro newer older hfollows hdraining
    have hlost := hfollows.1 (by rw [hdraining]; rfl)
    refine ⟨?_, ?_, ?_⟩
    all_goals
      rintro rfl
      cases hlost
  · have hstrict : Good True c h := (hfresh True).run (fun _ => hrefused) hrun
    refine hstrict.1.path.imp ?_
    intro newer older hfollows hgone
    refine hfollows.2 trivial ?_
    rcases hgone with hs | hs <;> rw [hs] <;> rfl

/-- Sessions are counted, and a worker that fails is drained. -/
def drainingConfig : HealthConfig where
  disconnectOnHealthFailure := false
  activeSessions := true
  drainIdle := true
  probeJitterPercent := 10
  recoverySuccesses := 2
  probeInterval := 1000
  probeTimeout := 750
  confirmTimeout := 750
  healthLease := 3000
  readyTimeout := 2000

/-- The control queue has room for one frame. -/
def quiet (now : ℤ) : Surroundings := ⟨now, now, [true], false, false, false⟩

/-- The worker is probed, probes, and both ends validate; then it is asked for a session. -/
def validatedRun : List (Call × Surroundings) :=
  [(.tick, quiet 0), (.receive (.probe 7), quiet 10), (.receive (.pong 1), quiet 20),
    (.receive (.confirm 7), quiet 30)]

theorem worker_lifecycle_validated : ∃ h,
    validatedRun.foldlM (Health.step drainingConfig) (Health.fresh 0 0) = some h
      ∧ (h.usable drainingConfig (quiet 40)).2 = true
      ∧ (states h.log).Pairwise fun newer older =>
          older = .dead ∨ older = .closed → newer = .closed := by
  have hsome : ((validatedRun.foldlM (Health.step drainingConfig) (Health.fresh 0 0)).map
      fun h => (h.usable drainingConfig (quiet 40)).2) = some true := by
    decide +kernel
  obtain ⟨h, hrun, husable⟩ := Option.map_eq_some_iff.mp hsome
  refine ⟨h, hrun, husable, (worker_lifecycle drainingConfig 0 0 validatedRun h hrun).2.2.2 ?_⟩
  have hrefused : ∀ n < validatedRun.length, ((validatedRun.take n).foldlM
      (Health.step drainingConfig) (Health.fresh 0 0)).all
        (fun m => (validatedRun[n]?).all fun event => !m.refused event) = true := by
    decide +kernel
  intro before event after hsplit m hbefore
  have hlength : before.length < validatedRun.length := by
    rw [hsplit, List.length_append, List.length_cons]
    omega
  have htake : validatedRun.take before.length = before := by
    rw [hsplit]
    exact List.take_left
  have hevent : validatedRun[before.length]? = some event := by
    rw [hsplit]
    simp
  have := hrefused before.length hlength
  rw [htake, hbefore, hevent] at this
  simpa using this

/-- The worker is closed, and a probe comes while the control queue is full. -/
def overtakenRun : List (Call × Surroundings) :=
  [(.stop, quiet 0), (.receive (.probe 7), ⟨10, 10, [], false, false, false⟩)]

theorem closed_drains : ¬ ∀ (c : HealthConfig) (now : ℤ) (seed : UInt64)
    (events : List (Call × Surroundings)) (h : Health),
    events.foldlM (Health.step c) (Health.fresh now seed) = some h →
      (states h.log).Pairwise fun newer older =>
        older = .dead ∨ older = .closed → newer = .closed := by
  intro hclaim
  have hstates : ((overtakenRun.foldlM (Health.step drainingConfig) (Health.fresh 0 0)).map
      fun h => states h.log) = some [.draining, .closed, .validating] := by
    decide +kernel
  obtain ⟨h, hrun, hs⟩ := Option.map_eq_some_iff.mp hstates
  have hpath := hclaim drainingConfig 0 0 overtakenRun h hrun
  rw [hs] at hpath
  have := (List.pairwise_cons.mp hpath).1 .closed (by simp) (.inr rfl)
  cases this

end Brocade.Mux
