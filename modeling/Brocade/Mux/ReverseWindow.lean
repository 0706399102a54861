/-
The confirmation window of a suspect worker.

A worker that becomes suspect gets a deadline and a probe, and the acks of that probe and the
following ones may still make it ready.  But every look at the deadlines also looks at the health
lease, and the lease does not know of the window: where it ends first, the worker fails at its end.
-/
import Brocade.Mux.ReverseReasons

namespace Brocade.Mux

/-! ### The policy -/

/-- The fleet's tuning. -/
structure ReverseHealthTuning where
  (probeJitterPercent recoverySuccesses spareWorkers maxHealthyWorkers : UInt32)
  (maxSessionsPerWorker reconnectBackoffBaseMs : UInt32)

/-- The health settings of one link. -/
structure ReverseHealth where
  disconnectOnHealthFailure : Bool
  (probeIntervalMs probeTimeoutMs confirmTimeoutMs healthLeaseMs minHealthyWorkers : UInt32)
  (maxIdleReadyWorkers maxParallelDialsPerPair dialReadyTimeoutMs reconnectBackoffCapMs : UInt32)
  tuning : ReverseHealthTuning

/-- Whether the tuning is accepted. -/
def ReverseHealthTuning.validate (t : ReverseHealthTuning) : Except String Unit :=
  if 100 < t.probeJitterPercent ∨ t.recoverySuccesses = 0 ∨ t.maxHealthyWorkers = 0
      ∨ 65535 < t.maxSessionsPerWorker ∨ t.reconnectBackoffBaseMs = 0 then
    .error "反向隧道高级参数超出有效范围"
  else .ok ()

def saturatingMul (a b : UInt32) : UInt32 := UInt32.ofNat (min (a.toNat * b.toNat) (2 ^ 32 - 1))

/-- Whether the settings are accepted. -/
def ReverseHealth.validate (p : ReverseHealth) : Except String Unit := do
  p.tuning.validate
  if p.reconnectBackoffCapMs < p.tuning.reconnectBackoffBaseMs
      ∨ p.tuning.maxHealthyWorkers < p.maxIdleReadyWorkers
      ∨ p.maxIdleReadyWorkers < p.tuning.spareWorkers
      ∨ p.probeIntervalMs = 0 ∨ p.probeTimeoutMs = 0 ∨ p.probeIntervalMs ≤ p.probeTimeoutMs
      ∨ p.confirmTimeoutMs = 0
      ∨ p.healthLeaseMs < saturatingMul p.probeIntervalMs (100 + p.tuning.probeJitterPercent) / 100
          + p.probeTimeoutMs
      ∨ p.minHealthyWorkers = 0 ∨ p.maxIdleReadyWorkers < p.minHealthyWorkers
      ∨ p.maxParallelDialsPerPair = 0 ∨ p.dialReadyTimeoutMs = 0 ∨ p.reconnectBackoffCapMs = 0 then
    .error "reverse health 参数超出范围，或探活超时/健康租约/备用连接数量不一致"
  else .ok ()

def milliseconds (ms : UInt32) : ℤ := ms.toNat * 1000000

/-- `HealthConfig` of the data plane, with the callbacks that a worker has. -/
def ReverseHealth.healthConfig (p : ReverseHealth) (activeSessions drainIdle : Bool) :
    HealthConfig where
  disconnectOnHealthFailure := p.disconnectOnHealthFailure
  activeSessions := activeSessions
  drainIdle := drainIdle
  probeJitterPercent := p.tuning.probeJitterPercent.toNat
  recoverySuccesses := p.tuning.recoverySuccesses
  probeInterval := milliseconds p.probeIntervalMs
  probeTimeout := milliseconds p.probeTimeoutMs
  confirmTimeout := milliseconds p.confirmTimeoutMs
  healthLease := milliseconds p.healthLeaseMs
  readyTimeout := milliseconds p.dialReadyTimeoutMs

/-! ### Failing for its health -/

/-- The state and the reason are of failed health. -/
def Sick (state : WorkerState) (reason : String) : Prop :=
  (state = .draining ∨ state = .dead) ∧ (reason = "probe_timeout" ∨ reason = "confirmation_timeout")

/-- The worker takes no session any more because of its health. -/
def Unhealthy (h : Health) : Prop := Sick h.state h.reason

instance (h : Health) : Decidable (Unhealthy h) := inferInstanceAs (Decidable (_ ∧ _))

/-- A call ends a suspicion before its deadline: one that it found, or one that it started. -/
def CutShort (c : HealthConfig) (h : Health) (event : Call × Surroundings) (g : Health) : Prop :=
  ((h.state = .suspect ∧ event.2.now < h.hardDeadline)
      ∨ (h.state = .ready ∧ event.2.now < h.confirmationDeadline c event.2.now))
    ∧ Unhealthy g

instance (c : HealthConfig) (h : Health) (event : Call × Surroundings) (g : Health) :
    Decidable (CutShort c h event g) := inferInstanceAs (Decidable (_ ∧ _))

/-- A look at the deadlines in a window comes when the lease has ended or the pending probe is
late. -/
def Overtaken (c : HealthConfig) (h : Health) (event : Call × Surroundings) : Prop :=
  event.1.looks = true ∧ h.state = .suspect ∧ h.done = false ∧ event.2.now < h.hardDeadline
    ∧ (h.expired event.2.now || h.leaseExpired c event.2.now) = true

instance (c : HealthConfig) (h : Health) (event : Call × Surroundings) :
    Decidable (Overtaken c h event) := inferInstanceAs (Decidable (_ ∧ _))

/-- Where the window of a suspicion ends: a `ConfirmTimeout` behind the deadline of the late probe,
and where no probe is late, behind the end of the lease. -/
def WindowEnd (c : HealthConfig) (h : Health) (now deadline : ℤ) : Prop :=
  (h.pendingId ≠ 0 ∧ h.pendingDeadline ≤ now ∧ deadline = h.pendingDeadline + c.confirmTimeout)
    ∨ ¬ (h.pendingId ≠ 0 ∧ h.pendingDeadline ≤ now) ∧ ∃ last, h.lastAck = some last
      ∧ last + c.healthLease ≤ now ∧ deadline = last + c.healthLease + c.confirmTimeout

/-- A suspicion that a call leaves is the one it found, with the deadline of that, or one that it
started, with the whole window before it. -/
def Windowed (c : HealthConfig) (h g : Health) (now : ℤ) : Prop :=
  g.state = .suspect → h.state = .suspect ∧ g.hardDeadline = h.hardDeadline
    ∨ h.state = .ready ∧ WindowEnd c h now g.hardDeadline

section Parts

variable {c : HealthConfig} {h : Health}

theorem sick_harmless : Harmless Sick where
  queue := by simp [Sick]
  validated := by simp [Sick]
  recovered := by simp [Sick]
  peer := by simp [Sick]
  planned := by simp [Sick]
  closed := by simp [Sick]
  transport := by simp [Sick]

theorem avoids_of_state (h : Health) (hstate : h.state ≠ .draining ∧ h.state ≠ .dead) :
    Avoids Sick h := by
  intro hout
  rcases hout.1 with hdraining | hdead
  · exact hstate.1 hdraining
  · exact hstate.2 hdead

/-! ### A failure of health stays one -/

/-- A worker that failed for its health: its transport is closed, or it drains and waits for no
ack. -/
structure Failed (c : HealthConfig) (h : Health) : Prop where
  unhealthy : Unhealthy h
  dead : h.state = .dead → h.done = true
  draining : h.state = .draining →
    (c.disconnectOnHealthFailure || !c.activeSessions) = false ∧ h.pendingId = 0

theorem failHealth_failed (hsuspect : h.state = .suspect) :
    Failed c (h.failHealth c "probe_timeout") := by
  unfold Health.failHealth
  split
  · next hdisconnect =>
      have hmoved : h.transition .dead "probe_timeout"
          = { h with state := .dead, reason := "probe_timeout", log := .moved .dead :: h.log } := by
        simp [Health.transition, hsuspect]
      unfold Health.fail
      rw [hmoved]
      exact ⟨⟨.inr rfl, .inl rfl⟩, fun _ => rfl, fun hdraining => by simp at hdraining⟩
  · next hdrains =>
      have hmoved : ({ h with pendingId := 0 } : Health).transition .draining "probe_timeout"
          = { h with
              pendingId := 0
              state := .draining
              reason := "probe_timeout"
              log := .moved .draining :: h.log } := by
        simp [Health.transition, hsuspect]
      rw [hmoved]
      unfold Health.enqueue
      split
      · exact ⟨⟨.inl rfl, .inl rfl⟩, fun hdead => by simp at hdead, fun _ => ⟨by simpa using hdrains, rfl⟩⟩
      · exact ⟨⟨.inl rfl, .inl rfl⟩, fun hdead => by simp at hdead, fun _ => ⟨by simpa using hdrains, rfl⟩⟩
      · exact ⟨⟨.inl rfl, .inl rfl⟩, fun hdead => by simp at hdead, fun _ => ⟨by simpa using hdrains, rfl⟩⟩

/-- A draining worker that keeps its sessions stays as it is, whatever its queue answers. -/
theorem send_unhealthy (hout : Unhealthy h) (hdraining : h.state = .draining)
    (hkeeps : (c.disconnectOnHealthFailure || !c.activeSessions) = false) (frame : Frame) :
    Unhealthy (h.send c frame).1 ∧ (h.send c frame).1.state = .draining := by
  have hfail : ∀ h' : Health, Unhealthy h' → h'.state = .draining →
      Unhealthy (h'.failHealth c "control_queue_full_or_closed")
        ∧ (h'.failHealth c "control_queue_full_or_closed").state = .draining := by
    intro h' hout' hdraining'
    have hsame : ({ h' with pendingId := 0 } : Health).transition .draining
        "control_queue_full_or_closed" = { h' with pendingId := 0 } := by
      simp [Health.transition, hdraining']
    unfold Health.failHealth
    rw [hkeeps, if_neg (by simp), hsame]
    unfold Health.enqueue
    split
    · exact ⟨hout', hdraining'⟩
    · exact ⟨hout', hdraining'⟩
    · exact ⟨hout', hdraining'⟩
  rcases send_cases c h frame with ⟨rest, -, heq⟩ | ⟨-, rest, heq⟩
  · rw [heq]
    exact ⟨hout, hdraining⟩
  · rw [heq]
    exact hfail _ hout hdraining

theorem settle_draining (hdraining : h.state = .draining) : h.settle = h := by
  unfold Health.settle
  rw [if_neg (by simp [hdraining])]

variable {env : Surroundings} {now : ℤ} {event : Call × Surroundings} {g : Health}

theorem Failed.receive {frame : Frame} (hout : Failed c (h.check c env.now env.idle)) :
    Unhealthy (h.receive c frame env).1 := by
  have hfailed : Failed c ((h.check c env.now env.idle).interrupt env.closes) :=
    ⟨hout.unhealthy, fun hdead => by simp [Health.interrupt, hout.dead hdead], hout.draining⟩
  unfold Health.receive
  generalize (h.check c env.now env.idle).interrupt env.closes = h' at hfailed
  dsimp only
  by_cases hdone : h'.done = true
  · rw [if_pos hdone]
    exact hfailed.unhealthy
  rw [if_neg hdone]
  have hdraining : h'.state = .draining := by
    rcases hfailed.unhealthy.1 with hdraining | hdead
    · exact hdraining
    · exact absurd (hfailed.dead hdead) hdone
  obtain ⟨hkeeps, hpending⟩ := hfailed.draining hdraining
  split
  · unfold Health.receiveDrain
    rw [if_neg (by simp [hdraining]), settle_draining hdraining]
    exact hfailed.unhealthy
  split
  · unfold Health.receiveValidated
    split
    · rw [settle_draining (by exact hdraining)]
      exact hfailed.unhealthy
    · rw [settle_draining hdraining]
      exact hfailed.unhealthy
  split
  · unfold Health.receiveAck
    have hnone : h'.acknowledges frame.probeId env.now = false := by
      simp [Health.acknowledges, hpending]
    rw [hnone, if_pos (by rfl)]
    exact hfailed.unhealthy
  · unfold Health.receiveProbe
    have hsent := send_unhealthy (h := { h' with peerId := frame.probeId }) hfailed.unhealthy
      hdraining hkeeps (.pong frame.probeId)
    generalize ({ h' with peerId := frame.probeId } : Health).send c (.pong frame.probeId) = answer
      at hsent ⊢
    obtain ⟨h'', accepted⟩ := answer
    cases accepted with
    | false => exact hsent.1
    | true =>
      dsimp only at hsent ⊢
      rw [settle_draining hsent.2]
      exact hsent.1

theorem Failed.tick (hout : Failed c (h.check c env.now env.idle)) : Unhealthy (h.tick c env) := by
  have hfailed : Failed c ((h.check c env.now env.idle).interrupt env.closes) :=
    ⟨hout.unhealthy, fun hdead => by simp [Health.interrupt, hout.dead hdead], hout.draining⟩
  unfold Health.tick
  generalize (h.check c env.now env.idle).interrupt env.closes = h' at hfailed
  dsimp only
  split
  · next hprobes =>
      have hdraining : h'.state = .draining := by
        rcases hfailed.unhealthy.1 with hdraining | hdead
        · exact hdraining
        · exact absurd (hfailed.dead hdead) hprobes.2.1
      exact (send_unhealthy (h := h'.issue env.now _) hfailed.unhealthy hdraining
        (hfailed.draining hdraining).1 _).1
  · exact hfailed.unhealthy

/-! ### The deadline check -/

theorem check_suspect (hsuspect : h.state = .suspect) (hopen : h.done = false)
    (hwindow : now < h.hardDeadline) (idle : Bool) : h.check c now idle = h.checkOverdue c now := by
  have hlater : ¬ h.hardDeadline ≤ now := by omega
  simp [Health.check, hsuspect, hopen, hlater]

theorem check_ready (hready : h.state = .ready) (hopen : h.done = false) (now : ℤ) (idle : Bool) :
    h.check c now idle = h.checkOverdue c now := by
  simp [Health.check, hready, hopen]

theorem check_done (hstate : h.state = .suspect ∨ h.state = .ready) (hdone : h.done = true)
    (now : ℤ) (idle : Bool) : ¬ Unhealthy (h.check c now idle) := by
  have hin : ¬ Unhealthy h := by
    apply avoids_of_state
    rcases hstate with hsuspect | hready
    · simp [hsuspect]
    · simp [hready]
  have hcheck : h.check c now idle = h.transition .dead "transport_closed" := by
    rcases hstate with hsuspect | hready
    · simp [Health.check, hsuspect, hdone]
    · simp [Health.check, hready, hdone]
  rw [hcheck]
  exact Avoids.transition hin (sick_harmless.transport .dead)

theorem check_in_window (hsuspect : h.state = .suspect) (hopen : h.done = false)
    (hwindow : now < h.hardDeadline) (idle : Bool) :
    if h.expired now || h.leaseExpired c now then Failed c (h.check c now idle)
    else h.check c now idle = h := by
  rw [check_suspect hsuspect hopen hwindow]
  unfold Health.checkOverdue
  by_cases hover : (h.expired now || h.leaseExpired c now) = true
  · rw [if_pos hover, if_pos hover]
    dsimp only
    rw [if_pos (.inl hsuspect)]
    exact failHealth_failed (h := { h with timeouts := h.timeouts + 1 }) hsuspect
  · rw [if_neg hover, if_neg hover]

theorem check_starts (hready : h.state = .ready) (hopen : h.done = false)
    (hwindow : now < h.confirmationDeadline c now) (idle : Bool) :
    ¬ Unhealthy (h.check c now idle) := by
  rw [check_ready hready hopen]
  have hin : ¬ Unhealthy h := avoids_of_state h (by simp [hready])
  unfold Health.checkOverdue
  split
  · dsimp only
    rw [if_neg (by simp [hready]), if_neg (by simp [hready])]
    have hdeadline : ¬ (({ h with timeouts := h.timeouts + 1 } : Health).suspected
        (({ h with timeouts := h.timeouts + 1 } : Health).confirmationDeadline c now)).hardDeadline
          ≤ now := by
      show ¬ h.confirmationDeadline c now ≤ now
      omega
    rw [if_neg hdeadline]
    refine Avoids.probe ?_ sick_harmless _ _
    apply avoids_of_state
    simp [Health.suspected, Health.transition, hready]
  · exact hin

/-! ### Calls -/

variable (event) in
/-- A call that looks, and does with a failed worker nothing, and with another nothing that fails
it for its health. -/
theorem cutShort_iff_of_looks (hlooks : event.1.looks = true)
    (hkeep : ¬ Unhealthy (h.check c event.2.now event.2.idle) → ¬ Unhealthy g)
    (hfail : Failed c (h.check c event.2.now event.2.idle) → Unhealthy g) :
    CutShort c h event g ↔ Overtaken c h event := by
  constructor
  · intro hcut
    obtain ⟨hwhere, hout⟩ := hcut
    have hstate : h.state = .suspect ∨ h.state = .ready := by
      rcases hwhere with hsuspect | hready
      · exact .inl hsuspect.1
      · exact .inr hready.1
    by_cases hdone : h.done = true
    · exact absurd hout (hkeep (check_done hstate hdone _ _))
    have hopen : h.done = false := by simpa using hdone
    rcases hwhere with ⟨hsuspect, hwindow⟩ | ⟨hready, hwindow⟩
    · refine ⟨hlooks, hsuspect, hopen, hwindow, ?_⟩
      by_contra hnot
      have hcheck := check_in_window (c := c) hsuspect hopen hwindow event.2.idle
      rw [if_neg hnot] at hcheck
      refine hkeep ?_ hout
      rw [hcheck]
      exact avoids_of_state _ (by simp [hsuspect])
    · exact absurd hout (hkeep (check_starts hready hopen hwindow _))
  · intro hover
    obtain ⟨-, hsuspect, hopen, hwindow, hlate⟩ := hover
    have hcheck := check_in_window (c := c) hsuspect hopen hwindow event.2.idle
    rw [if_pos hlate] at hcheck
    exact ⟨.inl ⟨hsuspect, hwindow⟩, hfail hcheck⟩

/-- **A call ends a suspicion before its deadline exactly where the lease or the pending probe has
run out before it.** -/
theorem cutShort_iff (hstep : h.step c event = some g) :
    CutShort c h event g ↔ Overtaken c h event := by
  obtain ⟨call, env⟩ := event
  have hlook := fun g => cutShort_iff_of_looks (call, env) (c := c) (g := g)
    (h := { h with answers := env.answers })
  have hidle : call.looks = false →
      (¬ Unhealthy { h with answers := env.answers } → ¬ Unhealthy g) →
      (CutShort c h (call, env) g ↔ Overtaken c h (call, env)) := by
    intro hlooks hkeep
    constructor
    · intro hcut
      refine absurd hcut.2 (hkeep (avoids_of_state _ ?_))
      rcases hcut.1 with hsuspect | hready
      · simp [hsuspect.1]
      · simp [hready.1]
    · intro hover
      rw [Overtaken, hlooks] at hover
      exact absurd hover.1 (by simp)
  unfold Health.step at hstep
  cases call with
  | usable =>
    rw [← Option.some.inj hstep]
    exact hlook _ rfl (fun hin => hin) fun hout => hout.unhealthy
  | snapshot =>
    rw [← Option.some.inj hstep]
    exact hlook _ rfl (fun hin => hin) fun hout => hout.unhealthy
  | receive frame =>
    rw [← Option.some.inj hstep]
    exact hlook _ rfl (fun hin => Avoids.receive hin sick_harmless fun _ _ _ _ _ _ _ => by
      simp [Sick]) Failed.receive
  | tick =>
    rw [← Option.some.inj hstep]
    exact hlook _ rfl (fun hin => Avoids.tick hin sick_harmless) Failed.tick
  | drain =>
    apply hidle rfl
    intro hin
    rw [← Option.some.inj hstep]
    exact Avoids.drain (h := { h with answers := env.answers }) hin sick_harmless
  | stop =>
    apply hidle rfl
    intro hin
    rw [← Option.some.inj hstep]
    exact Avoids.stop (h := { h with answers := env.answers }) hin sick_harmless.closed
  | close =>
    apply hidle rfl
    intro hin
    rw [← Option.some.inj hstep]
    exact hin
  | transportClosed =>
    apply hidle rfl
    intro hin
    dsimp only at hstep
    split at hstep
    · rw [← Option.some.inj hstep]
      exact Avoids.stop (h := { h with answers := env.answers }) hin sick_harmless.transport
    · simp at hstep

/-! ### The window of a suspicion -/

/-- A suspicion that is left is one that was there, with its deadline. -/
def Keeps (h g : Health) : Prop :=
  g.state = .suspect → h.state = .suspect ∧ g.hardDeadline = h.hardDeadline

theorem Keeps.rfl' (h : Health) : Keeps h h := fun hstate => ⟨hstate, rfl⟩

theorem Keeps.of_state (hstate : g.state ≠ .suspect) : Keeps h g :=
  fun hsuspect => absurd hsuspect hstate

theorem Keeps.trans {k : Health} (hg : Keeps h g) (hk : Keeps g k) : Keeps h k := by
  intro hstate
  obtain ⟨hmid, hdeadline⟩ := hk hstate
  obtain ⟨hfirst, hdeadline'⟩ := hg hmid
  exact ⟨hfirst, hdeadline.trans hdeadline'⟩

theorem Windowed.trans {k : Health} (hg : Windowed c h g now) (hk : Keeps g k) :
    Windowed c h k now := by
  intro hstate
  obtain ⟨hmid, hdeadline⟩ := hk hstate
  rw [hdeadline]
  exact hg hmid

theorem Keeps.windowed (hkeeps : Keeps h g) : Windowed c h g now :=
  fun hstate => .inl (hkeeps hstate)

theorem transition_keeps {s : WorkerState} (hs : s ≠ .suspect) (reason : String) :
    Keeps h (h.transition s reason) := by
  apply Keeps.of_state
  rw [transition_state]
  exact hs

theorem not_suspect_of_lost (hlost : h.state.lost = true) : h.state ≠ .suspect := by
  intro hstate
  rw [hstate] at hlost
  cases hlost

theorem failHealth_keeps (reason : String) : Keeps h (h.failHealth c reason) :=
  .of_state (not_suspect_of_lost (failHealth_lost _ _ _))

theorem send_keeps (frame : Frame) : Keeps h (h.send c frame).1 := by
  rcases send_cases c h frame with ⟨rest, -, heq⟩ | ⟨-, rest, heq⟩
  · rw [heq]
    exact fun hstate => ⟨hstate, rfl⟩
  · rw [heq]
    exact .of_state (not_suspect_of_lost (failHealth_lost _ _ _))

theorem probe_keeps (now timeout : ℤ) : Keeps h (h.probe c now timeout) := by
  have hissued : Keeps h (h.issue now timeout) := fun hstate => ⟨hstate, rfl⟩
  exact hissued.trans (send_keeps _)

theorem fail_keeps (reason : String) : Keeps h (h.fail reason) :=
  .of_state (by simp [Health.fail, transition_state])

theorem windowEnd_confirmationDeadline (hover : (h.expired now || h.leaseExpired c now) = true) :
    WindowEnd c h now (h.confirmationDeadline c now) := by
  unfold Health.confirmationDeadline
  by_cases hexpired : h.expired now = true
  · rw [if_pos hexpired]
    simp only [Health.expired, Bool.and_eq_true, bne_iff_ne, decide_eq_true_eq] at hexpired
    exact .inl ⟨hexpired.1, hexpired.2, rfl⟩
  · rw [if_neg hexpired]
    have hlease : h.leaseExpired c now = true := by simpa [hexpired] using hover
    obtain ⟨last, hlast, hle⟩ := (Option.any_eq_true _ _).mp hlease
    simp only [Health.expired, Bool.and_eq_true, bne_iff_ne, decide_eq_true_eq] at hexpired
    refine .inr ⟨hexpired, last, hlast, of_decide_eq_true hle, ?_⟩
    rw [hlast, Option.getD_some]
    omega

theorem check_windowed (now : ℤ) (idle : Bool) : Windowed c h (h.check c now idle) now := by
  unfold Health.check
  split
  · exact (Keeps.rfl' h).windowed
  split
  · exact (transition_keeps (by simp) _).windowed
  split
  · next hdrains =>
      have hstarted : Keeps h { h with drainDeadline := some (now + reverseDrainTimeout) } :=
        fun hstate => ⟨hstate, rfl⟩
      unfold Health.checkDrain
      split
      · refine Keeps.windowed fun hstate => ?_
        exact (hstarted.trans (probe_keeps _ _)) hstate
      · split
        · exact (fail_keeps _).windowed
        · exact (Keeps.rfl' h).windowed
  split
  · exact (Keeps.rfl' h).windowed
  split
  · exact (fail_keeps _).windowed
  split
  · exact (failHealth_keeps _).windowed
  unfold Health.checkOverdue
  split
  · next hgone hdone _ _ _ _ hover =>
      dsimp only
      split
      · exact Keeps.windowed (.of_state (not_suspect_of_lost (failHealth_lost _ _ _)))
      split
      · exact Keeps.windowed (.of_state (by simp [Health.fail, transition_state]))
      · next hleft hvalidating =>
          have hready : h.state = .ready := by
            cases hstate : h.state <;> simp_all
          have hstart : Windowed c h (({ h with timeouts := h.timeouts + 1 } : Health).suspected
              (({ h with timeouts := h.timeouts + 1 } : Health).confirmationDeadline c now)) now :=
            fun _ => .inr ⟨hready, windowEnd_confirmationDeadline hover⟩
          split
          · exact hstart.trans (failHealth_keeps _)
          · exact hstart.trans (probe_keeps _ _)
  · exact (Keeps.rfl' h).windowed

theorem windowed_stable : Stable c fun g => Windowed c h g now where
  core heq hin hstate := by
    simp only [Health.core, Prod.mk.injEq] at heq
    rw [heq.1] at hstate
    rw [heq.2.2.2.2.1]
    exact hin hstate
  transition turn hturn hin := by
    refine hin.trans (transition_keeps ?_ _)
    simp only [turns, List.mem_cons, List.not_mem_nil, or_false] at hturn
    rcases hturn with rfl | rfl | rfl | rfl <;> simp
  send frame hin := hin.trans (send_keeps frame)

theorem receive_windowed (frame : Frame) : Windowed c h (h.receive c frame env).1 env.now := by
  have hopen : Windowed c h ((h.check c env.now env.idle).interrupt env.closes) env.now :=
    check_windowed env.now env.idle
  refine windowed_stable.receive hopen fun _ _ => ?_
  refine windowed_stable.receiveAck hopen hopen (fun _ _ _ => ?_) fun _ hin =>
    hin.trans (probe_keeps _ _)
  unfold Health.receiveFence
  split
  · exact hopen.trans (fail_keeps _)
  · exact hopen

/-- **A call that starts a suspicion gives it its whole window, and none shortens one.** -/
theorem step_windowed (hstep : h.step c event = some g) : Windowed c h g event.2.now := by
  obtain ⟨call, env⟩ := event
  have hstart : Keeps h { h with answers := env.answers } := fun hstate => ⟨hstate, rfl⟩
  have hstopped : ∀ reason, Keeps h (({ h with answers := env.answers } : Health).stop reason) := by
    intro reason
    unfold Health.stop
    split
    · exact hstart
    split
    · exact .of_state (by simp [transition_state])
    · exact .of_state (by simp [transition_state])
  unfold Health.step at hstep
  cases call with
  | usable =>
    rw [← Option.some.inj hstep]
    exact check_windowed (h := { h with answers := env.answers }) env.now env.idle
  | snapshot =>
    rw [← Option.some.inj hstep]
    exact check_windowed (h := { h with answers := env.answers }) env.now env.idle
  | receive frame =>
    rw [← Option.some.inj hstep]
    exact receive_windowed (h := { h with answers := env.answers }) frame
  | tick =>
    rw [← Option.some.inj hstep]
    have hopen : Windowed c h ((({ h with answers := env.answers } : Health).check c env.now
        env.idle).interrupt env.closes) env.now :=
      check_windowed (h := { h with answers := env.answers }) env.now env.idle
    show Windowed c h (({ h with answers := env.answers } : Health).tick c env) env.now
    unfold Health.tick
    dsimp only
    split
    · exact hopen.trans (probe_keeps _ _)
    · exact hopen
  | drain =>
    rw [← Option.some.inj hstep]
    exact windowed_stable.drain hstart.windowed
  | stop =>
    rw [← Option.some.inj hstep]
    exact (hstopped "closed").windowed
  | close =>
    rw [← Option.some.inj hstep]
    exact hstart.windowed
  | transportClosed =>
    dsimp only at hstep
    split at hstep
    · rw [← Option.some.inj hstep]
      exact (hstopped "transport_closed").windowed
    · cases hstep

/-! ### A window that nothing overtakes -/

/-- The lease reaches to the end of the window, and so does the pending probe. -/
def Covered (c : HealthConfig) (h : Health) : Prop :=
  h.state = .suspect → (∃ last, h.lastAck = some last ∧ h.hardDeadline ≤ last + c.healthLease)
    ∧ h.pendingId ≠ 0 ∧ h.hardDeadline ≤ h.pendingDeadline

/-- A suspicion that a call starts is one of a late probe, with a lease that reaches to the end of
the window; and the clock stands still during the call. -/
structure Sound (c : HealthConfig) (h : Health) (env : Surroundings) : Prop where
  starts : h.state = .ready → (h.expired env.now || h.leaseExpired c env.now) = true →
    h.expired env.now = true ∧ ∃ last, h.lastAck = some last ∧
      h.pendingDeadline + c.confirmTimeout ≤ last + c.healthLease
  clock : env.later ≤ env.now ∧ ∀ last, h.lastAck = some last → last ≤ env.now

/-- A suspicion that is left is the one that was there. -/
def Leaves (h g : Health) : Prop :=
  g.state = .suspect → h.state = .suspect ∧ g.lastAck = h.lastAck ∧ g.hardDeadline = h.hardDeadline
    ∧ g.pendingId = h.pendingId ∧ g.pendingDeadline = h.pendingDeadline

theorem Leaves.rfl' (h : Health) : Leaves h h := fun hstate => ⟨hstate, rfl, rfl, rfl, rfl⟩

theorem Leaves.of_state (hstate : g.state ≠ .suspect) : Leaves h g :=
  fun hsuspect => absurd hsuspect hstate

theorem Leaves.trans {k : Health} (hg : Leaves h g) (hk : Leaves g k) : Leaves h k := by
  intro hstate
  obtain ⟨hmid, hack, hdeadline, hpending, hdue⟩ := hk hstate
  obtain ⟨hfirst, hack', hdeadline', hpending', hdue'⟩ := hg hmid
  exact ⟨hfirst, hack.trans hack', hdeadline.trans hdeadline', hpending.trans hpending',
    hdue.trans hdue'⟩

theorem Leaves.covered (hleaves : Leaves h g) (hcovered : Covered c h) : Covered c g := by
  intro hstate
  obtain ⟨hsuspect, hack, hdeadline, hpending, hdue⟩ := hleaves hstate
  rw [hack, hdeadline, hpending, hdue]
  exact hcovered hsuspect

theorem transition_leaves {s : WorkerState} (hs : s ≠ .suspect) (reason : String) :
    Leaves h (h.transition s reason) := by
  apply Leaves.of_state
  rw [transition_state]
  exact hs

theorem send_leaves (frame : Frame) : Leaves h (h.send c frame).1 := by
  rcases send_cases c h frame with ⟨rest, -, heq⟩ | ⟨-, rest, heq⟩
  · rw [heq]
    exact fun hstate => ⟨hstate, rfl, rfl, rfl, rfl⟩
  · rw [heq]
    exact .of_state (not_suspect_of_lost (failHealth_lost _ _ _))

theorem covered_stable : Stable c (Covered c) where
  core heq hin hstate := by
    simp only [Health.core, Prod.mk.injEq] at heq
    obtain ⟨hsame, -, -, -, hdeadline, hack, hpending, hdue⟩ := heq
    rw [hdeadline, hack, hpending, hdue]
    exact hin (hsame ▸ hstate)
  transition turn hturn hin := by
    refine (transition_leaves ?_ _).covered hin
    simp only [turns, List.mem_cons, List.not_mem_nil, or_false] at hturn
    rcases hturn with rfl | rfl | rfl | rfl <;> simp
  send frame hin := (send_leaves frame).covered hin

theorem followingId_ne_zero (id : UInt64) : Health.followingId id ≠ 0 := by
  unfold Health.followingId
  split
  · next hzero =>
      rw [hzero]
      decide
  · assumption

theorem probe_covered {timeout : ℤ} (hlease : h.state = .suspect → (∃ last, h.lastAck = some last ∧
      h.hardDeadline ≤ last + c.healthLease) ∧ h.hardDeadline ≤ now + timeout) :
    Covered c (h.probe c now timeout) := by
  have hissued : Covered c (h.issue now timeout) := fun hstate =>
    ⟨(hlease hstate).1, followingId_ne_zero _, (hlease hstate).2⟩
  exact (send_leaves _).covered hissued

section

variable (hcovered : Covered c h)

include hcovered

theorem check_covered (hsound : Sound c h env) : Covered c (h.check c env.now env.idle) ∧
      ((h.check c env.now env.idle).state = .suspect →
        (h.check c env.now env.idle).lastAck = h.lastAck) := by
  have hended : ∀ g : Health, g.state ≠ .suspect →
      Covered c g ∧ (g.state = .suspect → g.lastAck = h.lastAck) := fun g hstate =>
    ⟨fun hsuspect => absurd hsuspect hstate, fun hsuspect => absurd hsuspect hstate⟩
  have hfailed : ∀ (g : Health) (reason : String), (g.failHealth c reason).state ≠ .suspect :=
    fun g reason => not_suspect_of_lost (failHealth_lost _ _ _)
  unfold Health.check
  by_cases hgone : h.state = .closed ∨ h.state = .dead
  · rw [if_pos hgone]
    exact ⟨hcovered, fun _ => rfl⟩
  rw [if_neg hgone]
  split
  · exact hended _ (by simp [transition_state])
  split
  · next hdrains =>
      have hnot : h.state ≠ .suspect := by
        rw [hdrains.1]
        simp
      unfold Health.checkDrain
      split
      · have hprobe : Leaves { h with drainDeadline := some (env.now + reverseDrainTimeout) }
            (({ h with drainDeadline := some (env.now + reverseDrainTimeout) } : Health).probe c
              env.now reverseDrainTimeout) := by
          refine Leaves.trans (g := Health.issue _ env.now reverseDrainTimeout) ?_ (send_leaves _)
          exact .of_state hnot
        exact hended _ fun hsuspect => hnot (hprobe hsuspect).1
      · split
        · exact hended _ (by simp [Health.fail, transition_state])
        · exact hended _ hnot
  split
  · exact ⟨hcovered, fun _ => rfl⟩
  split
  · exact hended _ (by simp [Health.fail, transition_state])
  split
  · exact hended _ (hfailed _ _)
  unfold Health.checkOverdue
  split
  · next hover =>
      dsimp only
      split
      · exact hended _ (hfailed _ _)
      split
      · exact hended _ (by simp [Health.fail, transition_state])
      split
      · exact hended _ (hfailed _ _)
      · next hleft hvalidating hdeadline =>
          have hready : h.state = .ready := by
            cases hstate : h.state <;> simp_all
          obtain ⟨hlate, last, hack, hreach⟩ := hsound.starts hready hover
          have hbound : h.confirmationDeadline c env.now = h.pendingDeadline + c.confirmTimeout := by
            unfold Health.confirmationDeadline
            rw [if_pos hlate]
          have hsame : (({ h with timeouts := h.timeouts + 1 } : Health).suspected
              (h.confirmationDeadline c env.now)).lastAck = h.lastAck := by
            unfold Health.suspected Health.transition
            split
            · rfl
            · rfl
          refine ⟨?_, fun hsuspect => ((send_leaves _) hsuspect).2.1.trans hsame⟩
          apply probe_covered
          intro _
          refine ⟨⟨last, hsame.trans hack, ?_⟩, ?_⟩
          · show h.confirmationDeadline c env.now ≤ _
            rw [hbound]
            exact hreach
          · show h.confirmationDeadline c env.now
              ≤ env.now + (h.confirmationDeadline c env.now - env.now)
            omega
  · exact ⟨hcovered, fun _ => rfl⟩

theorem receiveAck_covered {id : UInt64} (hlater : env.later ≤ env.now)
    (hack : h.state = .suspect → ∀ last, h.lastAck = some last → last ≤ env.now) :
    Covered c (h.receiveAck c id env).1 := by
  unfold Health.receiveAck
  split
  · exact hcovered
  dsimp only
  have hlease : h.state = .suspect → h.hardDeadline ≤ env.now + c.healthLease := by
    intro hstate
    obtain ⟨⟨last, hlast, hreach⟩, -⟩ := hcovered hstate
    have hle := hack hstate last hlast
    omega
  split
  · next hfence =>
      have hnot : h.state ≠ .suspect := by
        rw [show h.state = .draining from hfence.1]
        simp
      unfold Health.receiveFence
      split
      · exact fun hstate => absurd hstate (by simp [Health.fail, transition_state])
      · exact fun hstate => absurd hstate hnot
  have hvalid : Leaves (h.acked env.now) ((h.acked env.now).validate c id).1
      ∧ (((h.acked env.now).validate c id).2 = false →
        ((h.acked env.now).validate c id).1.state ≠ .suspect) := by
    unfold Health.validate
    split
    · exact ⟨.rfl' _, by simp⟩
    · refine ⟨send_leaves (h := { h.acked env.now with ownValidated := true }) _, ?_⟩
      rcases send_cases c { h.acked env.now with ownValidated := true } (.confirm id) with
        ⟨rest, -, heq⟩ | ⟨-, rest, heq⟩
      · rw [heq]
        simp
      · rw [heq]
        exact fun _ => not_suspect_of_lost (failHealth_lost _ _ _)
  generalize (h.acked env.now).validate c id = answer at hvalid ⊢
  obtain ⟨h', accepted⟩ := answer
  cases accepted with
  | false => exact fun hstate => absurd hstate (hvalid.2 rfl)
  | true =>
    dsimp only at hvalid ⊢
    split
    · unfold Health.receiveRecovery
      dsimp only
      split
      · apply probe_covered
        intro hstate
        obtain ⟨hsuspect, hnow, hdeadline, -⟩ := hvalid.1 hstate
        refine ⟨⟨env.now, hnow, ?_⟩, ?_⟩
        · show h'.hardDeadline ≤ _
          rw [hdeadline]
          exact hlease hsuspect
        · show h'.hardDeadline ≤ env.now + (h'.hardDeadline - env.later)
          omega
      · exact fun hstate => absurd hstate (by simp [transition_state])
    · next hnot => exact covered_stable.settle fun hstate => absurd hstate hnot

theorem receive_covered (hsound : Sound c h env) (frame : Frame) :
    Covered c (h.receive c frame env).1 := by
  obtain ⟨hchecked, hlast⟩ := check_covered hcovered hsound
  have hopen : Covered c ((h.check c env.now env.idle).interrupt env.closes) := hchecked
  have hack : ((h.check c env.now env.idle).interrupt env.closes).state = .suspect →
      ∀ last, ((h.check c env.now env.idle).interrupt env.closes).lastAck = some last →
        last ≤ env.now := by
    intro hstate last hsome
    exact hsound.clock.2 last ((hlast hstate).symm.trans hsome)
  exact covered_stable.receive hopen fun _ _ => receiveAck_covered hopen hsound.clock.1 hack

theorem tick_covered (hsound : Sound c h env) : Covered c (h.tick c env) := by
  have hopen : Covered c ((h.check c env.now env.idle).interrupt env.closes) :=
    (check_covered hcovered hsound).1
  unfold Health.tick
  generalize (h.check c env.now env.idle).interrupt env.closes = h' at hopen
  dsimp only
  split
  · next hprobes =>
      -- a covered suspicion waits for a probe already
      exact probe_covered fun hstate => absurd hprobes.2.2.1 (hopen hstate).2.1
  · exact hopen

theorem step_covered (hsound : Sound c h event.2) (hstep : h.step c event = some g) :
    Covered c g := by
  obtain ⟨call, env⟩ := event
  have hstart : Covered c { h with answers := env.answers } := hcovered
  have hsound' : Sound c { h with answers := env.answers } env := ⟨hsound.starts, hsound.clock⟩
  have hstopped : ∀ reason, Covered c (({ h with answers := env.answers } : Health).stop reason) := by
    intro reason hstate
    unfold Health.stop at hstate
    split at hstate
    · next hclosed =>
        rw [hclosed] at hstate
        simp at hstate
    · split at hstate
      · simp [transition_state] at hstate
      · simp [transition_state] at hstate
  unfold Health.step at hstep
  cases call with
  | usable =>
    rw [← Option.some.inj hstep]
    exact (check_covered hstart hsound').1
  | snapshot =>
    rw [← Option.some.inj hstep]
    exact (check_covered hstart hsound').1
  | receive frame =>
    rw [← Option.some.inj hstep]
    exact receive_covered hstart hsound' frame
  | tick =>
    rw [← Option.some.inj hstep]
    exact tick_covered hstart hsound'
  | drain =>
    rw [← Option.some.inj hstep]
    exact covered_stable.drain hstart
  | stop =>
    rw [← Option.some.inj hstep]
    exact hstopped "closed"
  | close =>
    rw [← Option.some.inj hstep]
    exact hstart
  | transportClosed =>
    dsimp only at hstep
    split at hstep
    · rw [← Option.some.inj hstep]
      exact hstopped "transport_closed"
    · simp at hstep

theorem Covered.not_overtaken (event : Call × Surroundings) : ¬ Overtaken c h event := by
  intro hover
  obtain ⟨-, hsuspect, -, hwindow, hlate⟩ := hover
  obtain ⟨⟨last, hack, hreach⟩, -, hdue⟩ := hcovered hsuspect
  rw [Bool.or_eq_true] at hlate
  rcases hlate with hexpired | hlease
  · simp only [Health.expired, Bool.and_eq_true, decide_eq_true_eq] at hexpired
    omega
  · rw [Health.leaseExpired, hack] at hlease
    simp only [Option.any_some, decide_eq_true_eq] at hlease
    omega

end

end Parts

/-! ### Runs -/

/-- What a run's calls find. -/
def Throughout (c : HealthConfig) (start : Health) (events : List (Call × Surroundings))
    (P : Health → Call × Surroundings → Prop) : Prop :=
  ∀ before event after h, events = before ++ event :: after →
    before.foldlM (Health.step c) start = some h → P h event

theorem Throughout.of_take {c : HealthConfig} {start : Health} {events : List (Call × Surroundings)}
    {P : Health → Call × Surroundings → Prop} [∀ h event, Decidable (P h event)]
    (hall : ∀ n < events.length, ((events.take n).foldlM (Health.step c) start).all
      (fun h => (events[n]?).all fun event => decide (P h event)) = true) :
    Throughout c start events P := by
  intro before event after h hsplit hbefore
  have hlength : before.length < events.length := by
    rw [hsplit, List.length_append, List.length_cons]
    omega
  have htake : events.take before.length = before := by
    rw [hsplit]
    exact List.take_left
  have hevent : events[before.length]? = some event := by
    rw [hsplit]
    simp
  have hfound := hall before.length hlength
  rw [htake, hbefore, hevent] at hfound
  simpa using hfound

theorem Covered.run {c : HealthConfig} {events : List (Call × Surroundings)} :
    ∀ {start g : Health}, Covered c start →
      Throughout c start events (fun h event => Sound c h event.2) →
      events.foldlM (Health.step c) start = some g → Covered c g := by
  induction events with
  | nil =>
    intro start g hstart _ hrun
    rw [← Option.some.inj hrun]
    exact hstart
  | cons event events ih =>
    intro start g hstart hsound hrun
    rw [List.foldlM_cons, Option.bind_eq_bind, Option.bind_eq_some_iff] at hrun
    obtain ⟨h, hstep, hrest⟩ := hrun
    refine ih (step_covered hstart (hsound [] event events start rfl rfl) hstep) ?_ hrest
    intro before next after m hsplit hbefore
    refine hsound (event :: before) next after m (by rw [hsplit]; rfl) ?_
    rw [List.foldlM_cons, hstep]
    exact hbefore

/-- **The window of a suspicion is kept exactly where nothing overtakes it.**  The call that starts
a suspicion sets its deadline a `ConfirmTimeout` behind the late probe's or the lease's, and no call
moves it.  In a run the calls leave every suspicion that window if and only if none of them looks at
the deadlines in it when the lease or the pending probe has run out; and they do not where every
suspicion is one of a late probe whose window the lease reaches to the end of. -/
theorem confirmation_window (c : HealthConfig) (now : ℤ) (seed : UInt64)
    (events : List (Call × Surroundings)) :
    Throughout c (Health.fresh now seed) events (fun h event =>
      ∀ g, h.step c event = some g → Windowed c h g event.2.now) ∧
    (Throughout c (Health.fresh now seed) events (fun h event =>
        ∀ g, h.step c event = some g → ¬ CutShort c h event g)
      ↔ Throughout c (Health.fresh now seed) events fun h event => ¬ Overtaken c h event) ∧
    (Throughout c (Health.fresh now seed) events (fun h event => Sound c h event.2) →
      Throughout c (Health.fresh now seed) events fun h event => ¬ Overtaken c h event) := by
  refine ⟨fun _ _ _ _ _ _ _ hstep => step_windowed hstep, ⟨fun hkept => ?_, fun hnot => ?_⟩,
    fun hsound => ?_⟩
  · intro before event after h hsplit hbefore hover
    -- a call that looks at the deadlines always takes place
    obtain ⟨g, hstep⟩ : ∃ g, h.step c event = some g := by
      obtain ⟨call, env⟩ := event
      cases call with
      | usable => exact ⟨_, rfl⟩
      | snapshot => exact ⟨_, rfl⟩
      | receive frame => exact ⟨_, rfl⟩
      | tick => exact ⟨_, rfl⟩
      | drain => simp [Overtaken, Call.looks] at hover
      | stop => simp [Overtaken, Call.looks] at hover
      | close => simp [Overtaken, Call.looks] at hover
      | transportClosed => simp [Overtaken, Call.looks] at hover
    exact hkept before event after h hsplit hbefore g hstep ((cutShort_iff hstep).mpr hover)
  · intro before event after h hsplit hbefore g hstep hcut
    exact hnot before event after h hsplit hbefore ((cutShort_iff hstep).mp hcut)
  · intro before event after h hsplit hbefore
    have hfresh : Covered c (Health.fresh now seed) := fun hstate => by simp [Health.fresh] at hstate
    refine (hfresh.run ?_ hbefore).not_overtaken event
    intro before' event' after' h' hsplit' hbefore'
    refine hsound before' event' (after' ++ event :: after) h' ?_ hbefore'
    rw [hsplit, hsplit', List.append_assoc, List.cons_append]

/-- The default policy, but for the lease, which is as short as the policy allows. -/
def shortLease : ReverseHealth where
  disconnectOnHealthFailure := false
  probeIntervalMs := 1000
  probeTimeoutMs := 750
  confirmTimeoutMs := 750
  healthLeaseMs := 1850
  minHealthyWorkers := 2
  maxIdleReadyWorkers := 2
  maxParallelDialsPerPair := 2
  dialReadyTimeoutMs := 2000
  reconnectBackoffCapMs := 2000
  tuning := ⟨10, 2, 1, 32, 16, 250⟩

/-- Undisturbed, at a time in milliseconds. -/
def atMs (ms : ℤ) : Surroundings := ⟨ms * 1000000, ms * 1000000, [true, true], false, false, false⟩

/-- Both ends validate, a probe after an interval is not answered, and the worker is suspect. -/
def unansweredRun : List (Call × Surroundings) :=
  [(.tick, atMs 0), (.receive (.probe 7), atMs 1), (.receive (.confirm 7), atMs 2),
    (.receive (.pong 100), atMs 10), (.tick, atMs 1010), (.tick, atMs 1760)]

/-- The window is open until 2510 ms, and the lease ends at 1860 ms. -/
theorem lease_overtakes_window : ¬ ∀ p : ReverseHealth, p.validate = .ok () →
    ∀ (activeSessions drainIdle : Bool) (now : ℤ) (seed : UInt64)
      (events : List (Call × Surroundings)),
      Throughout (p.healthConfig activeSessions drainIdle) (Health.fresh now seed) events
        fun h event => ∀ g, h.step (p.healthConfig activeSessions drainIdle) event = some g →
          ¬ CutShort (p.healthConfig activeSessions drainIdle) h event g := by
  intro hclaim
  have hcut : ((unansweredRun.foldlM (Health.step (shortLease.healthConfig true true))
      (Health.fresh 0 99)).any fun h =>
        (h.step (shortLease.healthConfig true true) (.tick, atMs 1860)).any fun g =>
          decide (CutShort (shortLease.healthConfig true true) h (.tick, atMs 1860) g)) = true := by
    decide +kernel
  obtain ⟨h, hrun, hlast⟩ := (Option.any_eq_true _ _).mp hcut
  obtain ⟨g, hstep, hshort⟩ := (Option.any_eq_true _ _).mp hlast
  exact hclaim shortLease rfl true true 0 99 (unansweredRun ++ [(.tick, atMs 1860)]) unansweredRun
    (.tick, atMs 1860) [] h rfl hrun g hstep (of_decide_eq_true hshort)

/-- The same run with the last probe answered in time keeps every window. -/
theorem confirmation_window_answered :
    Throughout (shortLease.healthConfig true true) (Health.fresh 0 99) (unansweredRun
        ++ [(.receive (.pong 102), atMs 1800)]) fun h event =>
      ∀ g, h.step (shortLease.healthConfig true true) event = some g →
        ¬ CutShort (shortLease.healthConfig true true) h event g := by
  refine (confirmation_window _ 0 99 _).2.1.mpr (Throughout.of_take ?_)
  decide +kernel

end Brocade.Mux
