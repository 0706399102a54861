/-
The fence of a draining worker.

A draining worker without a session may still have their last frames in its transport.  It sends a
probe behind them, and the ack of that probe says that they arrived.  When the ack comes the worker
looks whether it has a session again; one that came and went in between is not seen.  Only a New
frame brings one, so the drain is fenced where none is taken between the two looks.

The history is not in the source: it says what happened to the sessions, with how many there were
afterwards, the newest moment first.
-/
import Brocade.Mux.ReverseAdmission
import Brocade.Mux.ReverseReasons

namespace Brocade.Mux

/-! ### Sessions -/

/-- Where the sessions of a worker are. -/
structure Sessions where
  /-- admitted, and not yet in the session map -/
  (arriving inMap : ℕ)
  /-- out of the map, with their End not yet written -/
  ending : ℕ
deriving DecidableEq

/-- What becomes of a session. -/
inductive Move where
  | started
  /-- the writer took a frame of a session -/
  | wrote
  /-- out of the map, as a server's session leaves before its End -/
  | left
  /-- out of the map after its End, as a client's session leaves -/
  | closed
  /-- the End is written, or given up -/
  | ended
deriving DecidableEq

/-- `DrainIdle`, where the worker has it. -/
def Sessions.idle (s : Sessions) : Bool := s.inMap = 0 && s.ending = 0

/-- What becomes of the sessions. -/
def Sessions.move (s : Sessions) : Move → Option Sessions
  | .started =>
    if 0 < s.arriving then some { s with arriving := s.arriving - 1, inMap := s.inMap + 1 }
    else none
  | .wrote => if 0 < s.inMap + s.ending then some s else none
  | .left =>
    if 0 < s.inMap then some { s with inMap := s.inMap - 1, ending := s.ending + 1 } else none
  | .closed => if 0 < s.inMap then some { s with inMap := s.inMap - 1 } else none
  | .ended => if 0 < s.ending then some { s with ending := s.ending - 1 } else none

/-- What the fence sees. -/
inductive Happening where
  | admitted
  | moved (move : Move)
  /-- a look found the worker idle, and is about to send its drain probe -/
  | sampled
  /-- the drain probe is in the control queue -/
  | fence (id : UInt64)
deriving DecidableEq

/-- What happened, and the sessions then. -/
structure Moment where
  what : Happening
  sessions : Sessions
deriving DecidableEq

/-! ### The worker with its sessions -/

/-- A worker and its history. -/
structure Worker where
  health : Health
  sessions : Sessions
  history : List Moment

def Worker.fresh (now : ℤ) (seed : UInt64) : Worker := ⟨Health.fresh now seed, ⟨0, 0, 0⟩, []⟩

/-- A session gets on. -/
def Worker.move (w : Worker) (m : Move) : Option Worker :=
  (w.sessions.move m).map fun s => { w with sessions := s, history := ⟨.moved m, s⟩ :: w.history }

/-- The drain probe that a look at the deadlines sends. -/
def Health.fenced (c : HealthConfig) (h : Health) (now : ℤ) (idle : Bool) : Option UInt64 :=
  let g := h.check c now idle
  if h.drainDeadline = none ∧ g.drainDeadline.isSome ∧ g.done = false ∧ g.drainProbeId ≠ 0 then
    some g.drainProbeId
  else none

/-- The moment at which a look that sends a drain probe asks for the sessions. -/
def Worker.sample (w : Worker) : Option UInt64 → Worker
  | none => w
  | some _ => { w with history := ⟨.sampled, w.sessions⟩ :: w.history }

def Worker.fence (w : Worker) : Option UInt64 → Worker
  | none => w
  | some id => { w with history := ⟨.fence id, w.sessions⟩ :: w.history }

/-- A look at the deadlines, with what the sessions do until its probe is queued. -/
def Worker.look (c : HealthConfig) (w : Worker) (env : Surroundings) (moves : List Move) :
    Option Worker :=
  let sent := ({ w.health with answers := env.answers } : Health).fenced c env.now w.sessions.idle
  (moves.foldlM Worker.move (w.sample sent)).map fun w' => w'.fence sent

/-- What a call starts with. -/
def Worker.enter (c : HealthConfig) (w : Worker) (call : Call) (env : Surroundings)
    (moves : List Move) : Option Worker :=
  if call.looks then w.look c env moves else moves.foldlM Worker.move w

/-- What can happen to a worker and its sessions. -/
inductive Happens where
  /-- a call, with what the sessions do before and behind its look at the deadlines -/
  | call (call : Call) (env : Surroundings) (before behind : List Move)
  /-- a New frame: it looks at the deadlines, and is admitted or not -/
  | new (env : Surroundings) (before : List Move)
  | move (move : Move)

/-- Where a New frame is taken: a worker that is rotated takes what is on its way to it. -/
def Health.takesNew (h : Health) : Bool :=
  decide (h.state = .ready) || decide (h.state = .draining)
    && (h.reason == "planned_rotation" || h.reason == "peer_rotation")

/-- What happens to the worker. -/
def Worker.step (c : HealthConfig) (w : Worker) : Happens → Option Worker
  | .call call env before behind => do
      let entered ← w.enter c call env before
      let w' ← behind.foldlM Worker.move entered
      let health ← w.health.step c
        (call, { env with idle := w.sessions.idle, idleAtAck := w'.sessions.idle })
      some { w' with health := health }
  | .new env before => do
      let w' ← w.look c env before
      let health ← w.health.step c (.snapshot, { env with idle := w.sessions.idle })
      if health.takesNew then
        let sessions := { w'.sessions with arriving := w'.sessions.arriving + 1 }
        some ⟨health, sessions, ⟨.admitted, sessions⟩ :: w'.history⟩
      else some { w' with health := health }
  | .move m => w.move m

/-! ### Completion -/

/-- The worker died of a completed drain. -/
def Complete (state : WorkerState) (reason : String) : Prop :=
  state = .dead ∧ reason = "drain_complete"

instance (state : WorkerState) (reason : String) : Decidable (Complete state reason) :=
  inferInstanceAs (Decidable (_ ∧ _))

/-- The latest drain probe of a history, with the sample that led to it, and what is older and what
is newer; between the two there are only moves of the sessions. -/
structure FencedBy (history : List Moment) (id : UInt64) (newer : List Moment) (fence : Moment)
    (between : List Moment) (sample : Moment) (older : List Moment) : Prop where
  split : history = newer ++ fence :: (between ++ sample :: older)
  is : fence.what = .fence id
  sampled : sample.what = .sampled
  latest : ∀ m ∈ newer, ∀ other, m.what ≠ .fence other
  moves : ∀ m ∈ between, ∃ move, m.what = .moved move

/-! ### The drain probe of a worker -/

section Probe

variable {c : HealthConfig} {h g : Health}

/-- A worker that goes on with a drain probe has had it before. -/
def Kept (h g : Health) : Prop :=
  g.done = false → g.drainProbeId ≠ 0 → h.done = false ∧ h.drainProbeId = g.drainProbeId

theorem Kept.refl (h : Health) : Kept h h := fun hopen _ => ⟨hopen, rfl⟩

theorem Kept.trans {k : Health} (hg : Kept h g) (hk : Kept g k) : Kept h k := by
  intro hopen hprobe
  obtain ⟨hopen', hsame⟩ := hk hopen hprobe
  obtain ⟨hopen'', hsame'⟩ := hg hopen' (by rwa [hsame])
  exact ⟨hopen'', hsame'.trans hsame⟩

theorem Kept.of_eq (hdone : g.done = h.done) (hprobe : g.drainProbeId = h.drainProbeId) :
    Kept h g := fun hopen _ => ⟨hdone ▸ hopen, hprobe.symm⟩

theorem Kept.of_done (hdone : g.done = true) : Kept h g := by
  intro hopen
  rw [hdone] at hopen
  cases hopen

theorem transition_kept (s : WorkerState) (reason : String) : Kept h (h.transition s reason) := by
  unfold Health.transition
  split
  · exact .refl h
  · exact .of_eq rfl rfl

theorem failHealth_kept (reason : String) : Kept h (h.failHealth c reason) := by
  unfold Health.failHealth
  split
  · exact .of_done rfl
  · have hcleared : Kept h { h with pendingId := 0 } := .of_eq rfl rfl
    refine (hcleared.trans (transition_kept .draining reason)).trans ?_
    rcases enqueue_cases ({ h with pendingId := 0 }.transition .draining reason)
      (.leave h.nextId) with ⟨rest, -, heq⟩ | ⟨-, rest, heq⟩
    · rw [heq]
      exact .of_eq rfl rfl
    · rw [heq]
      exact .of_eq rfl rfl

theorem send_kept (frame : Frame) : Kept h (h.send c frame).1 := by
  rcases send_cases c h frame with ⟨rest, -, heq⟩ | ⟨-, rest, heq⟩
  · rw [heq]
    exact .of_eq rfl rfl
  · rw [heq]
    have hrest : Kept h { h with answers := rest } := .of_eq rfl rfl
    exact hrest.trans (failHealth_kept _)

theorem probe_kept (now timeout : ℤ) : Kept h (h.probe c now timeout) := by
  have hissued : Kept h (h.issue now timeout) := .of_eq rfl rfl
  exact hissued.trans (send_kept _)

theorem kept_stable : Stable c (Kept h) where
  core heq hin := by
    simp only [Health.core, Prod.mk.injEq] at heq
    exact hin.trans (.of_eq heq.2.2.1 heq.2.2.2.1)
  transition _ _ hin := hin.trans (transition_kept _ _)
  send frame hin := hin.trans (send_kept frame)

theorem transition_drainDeadline (s : WorkerState) (reason : String) :
    (h.transition s reason).drainDeadline = h.drainDeadline := by
  unfold Health.transition
  split
  · rfl
  · rfl

theorem failHealth_drainDeadline (reason : String) :
    (h.failHealth c reason).drainDeadline = h.drainDeadline := by
  unfold Health.failHealth
  split
  · exact transition_drainDeadline _ _
  · rcases enqueue_cases ({ h with pendingId := 0 }.transition .draining reason)
      (.leave h.nextId) with ⟨rest, -, heq⟩ | ⟨-, rest, heq⟩
    · rw [heq]
      exact transition_drainDeadline (h := { h with pendingId := 0 }) _ _
    · rw [heq]
      exact transition_drainDeadline (h := { h with pendingId := 0 }) _ _

theorem probe_drainDeadline (now timeout : ℤ) :
    (h.probe c now timeout).drainDeadline = h.drainDeadline := by
  unfold Health.probe
  rcases send_cases c (h.issue now timeout) (.probe (Health.followingId h.nextId)) with
    ⟨rest, -, heq⟩ | ⟨-, rest, heq⟩
  · rw [heq]
    rfl
  · rw [heq]
    exact failHealth_drainDeadline (h := { h.issue now timeout with answers := rest }) _

theorem check_kept {now : ℤ} {idle : Bool} (hfenced : h.fenced c now idle = none) :
    Kept h (h.check c now idle) := by
  have hdrain : h.drainDeadline = none → (h.check c now idle).drainDeadline.isSome = true →
      Kept h (h.check c now idle) := by
    intro hnone hsome hopen hprobe
    unfold Health.fenced at hfenced
    simp only [hnone, hsome, hopen, hprobe, ne_eq, not_false_iff, and_self, if_true] at hfenced
    cases hfenced
  revert hdrain
  unfold Health.check
  intro hdrain
  split
  · exact .refl h
  split
  · exact transition_kept _ _
  split
  · next hgone hdone hdrains =>
      rw [if_neg hgone, if_neg hdone, if_pos hdrains] at hdrain
      unfold Health.checkDrain at hdrain ⊢
      cases hdeadline : h.drainDeadline with
      | none =>
        rw [hdeadline] at hdrain
        refine hdrain rfl ?_
        have hstarted := probe_drainDeadline (c := c)
          (h := { h with drainDeadline := some (now + reverseDrainTimeout) }) now
          reverseDrainTimeout
        show (({ h with drainDeadline := some (now + reverseDrainTimeout) } : Health).probe c now
          reverseDrainTimeout).drainDeadline.isSome = true
        rw [hstarted]
        rfl
      | some deadline =>
        dsimp only
        split
        · exact .of_done rfl
        · exact .refl h
  split
  · exact .refl h
  split
  · exact .of_done rfl
  split
  · exact failHealth_kept _
  unfold Health.checkOverdue
  split
  · have hcounted : Kept h { h with timeouts := h.timeouts + 1 } := .of_eq rfl rfl
    dsimp only
    split
    · exact hcounted.trans (failHealth_kept _)
    split
    · exact .of_done rfl
    have hsuspected : Kept h (({ h with timeouts := h.timeouts + 1 } : Health).suspected
        (({ h with timeouts := h.timeouts + 1 } : Health).confirmationDeadline c now)) :=
      hcounted.trans ((transition_kept .suspect "probe_timeout").trans (.of_eq rfl rfl))
    split
    · exact hsuspected.trans (failHealth_kept _)
    · exact hsuspected.trans (probe_kept _ _)
  · exact .refl h

theorem idle_of_fenced {now : ℤ} {idle : Bool} {id : UInt64} (h' : h.fenced c now idle = some id) :
    idle = true := by
  by_contra hbusy
  have hsame : (h.check c now idle).drainDeadline = h.drainDeadline := by
    unfold Health.check
    split
    · rfl
    split
    · exact transition_drainDeadline _ _
    split
    · next hdrains => exact absurd hdrains.2.2 hbusy
    split
    · rfl
    split
    · exact transition_drainDeadline _ _
    split
    · exact failHealth_drainDeadline _
    unfold Health.checkOverdue
    split
    · have hsuspected : (({ h with timeouts := h.timeouts + 1 } : Health).suspected
          (({ h with timeouts := h.timeouts + 1 } : Health).confirmationDeadline c now)).drainDeadline
            = h.drainDeadline :=
        transition_drainDeadline (h := { h with timeouts := h.timeouts + 1 }) _ _
      dsimp only
      split
      · exact failHealth_drainDeadline (h := { h with timeouts := h.timeouts + 1 }) _
      split
      · exact transition_drainDeadline (h := { h with timeouts := h.timeouts + 1 }) _ _
      split
      · exact (failHealth_drainDeadline _).trans hsuspected
      · exact (probe_drainDeadline _ _).trans hsuspected
    · rfl
  unfold Health.fenced at h'
  dsimp only at h'
  split at h'
  · next hsent =>
      rw [hsame, hsent.1] at hsent
      cases hsent.2.1
  · cases h'

theorem interrupt_kept (closes : Bool) : Kept h (h.interrupt closes) := by
  intro hstays _
  simp only [Health.interrupt, Bool.or_eq_false_iff] at hstays
  exact ⟨hstays.1, rfl⟩

theorem receive_kept (frame : Frame) (env : Surroundings) :
    Kept (h.check c env.now env.idle) (h.receive c frame env).1 := by
  have hopen := interrupt_kept (h := h.check c env.now env.idle) env.closes
  refine kept_stable.receive hopen fun _ _ => ?_
  refine kept_stable.receiveAck hopen (hopen.trans (.of_eq rfl rfl)) (fun _ _ _ => ?_) fun _ hin =>
    hin.trans (probe_kept _ _)
  unfold Health.receiveFence
  split
  · exact .of_done rfl
  · exact fun _ hprobe => absurd rfl hprobe

theorem tick_kept (env : Surroundings) : Kept (h.check c env.now env.idle) (h.tick c env) := by
  unfold Health.tick
  refine (interrupt_kept env.closes).trans ?_
  dsimp only
  split
  · exact probe_kept _ _
  · exact .refl _

theorem step_kept {call : Call} {env : Surroundings} (hstep : h.step c (call, env) = some g) :
    Kept (if call.looks then
      ({ h with answers := env.answers } : Health).check c env.now env.idle else h) g := by
  have hstart : Kept h { h with answers := env.answers } := .of_eq rfl rfl
  have hstopped : ∀ reason, Kept h (({ h with answers := env.answers } : Health).stop reason) := by
    intro reason
    unfold Health.stop
    split
    · exact hstart
    split
    · exact hstart.trans ((transition_kept _ _).trans (transition_kept _ _))
    · exact hstart.trans (transition_kept _ _)
  unfold Health.step at hstep
  cases call with
  | usable =>
    rw [← Option.some.inj hstep]
    exact interrupt_kept env.closes
  | snapshot =>
    rw [← Option.some.inj hstep]
    exact .refl _
  | receive frame =>
    rw [← Option.some.inj hstep]
    exact receive_kept frame env
  | tick =>
    rw [← Option.some.inj hstep]
    exact tick_kept env
  | drain =>
    rw [← Option.some.inj hstep]
    exact kept_stable.drain hstart
  | stop =>
    rw [← Option.some.inj hstep]
    exact hstopped "closed"
  | close =>
    rw [← Option.some.inj hstep]
    exact .of_done rfl
  | transportClosed =>
    dsimp only at hstep
    split at hstep
    · rw [← Option.some.inj hstep]
      exact hstopped "transport_closed"
    · cases hstep

end Probe

/-! ### The history -/

/-- What a moment does to the sessions. -/
def Effect (what : Happening) (before after : Sessions) : Prop :=
  match what with
  | .admitted => after = { before with arriving := before.arriving + 1 }
  | .moved m => before.move m = some after
  | .sampled => after = before
  | .fence _ => after = before

/-- Each moment of a history follows from the one before, up to these sessions. -/
inductive Linked : List Moment → Sessions → Prop where
  | fresh : Linked [] ⟨0, 0, 0⟩
  | next {history : List Moment} {before : Sessions} {m : Moment} (hlinked : Linked history before)
      (heffect : Effect m.what before m.sessions) : Linked (m :: history) m.sessions

/-- The drain probe is the latest of the history, and the worker was idle at its sample. -/
def Behind (history : List Moment) (id : UInt64) : Prop :=
  ∃ newer fence between sample older, FencedBy history id newer fence between sample older
    ∧ sample.sessions.idle = true

variable {history older : List Moment} {m : Moment} {s : Sessions}

theorem Behind.cons {id : UInt64} (h : Behind history id) (hm : ∀ other, m.what ≠ .fence other) :
    Behind (m :: history) id := by
  obtain ⟨newer, fence, between, sample, older, hfenced, hidle⟩ := h
  refine ⟨m :: newer, fence, between, sample, older, ⟨?_, hfenced.is, hfenced.sampled, ?_,
    hfenced.moves⟩, hidle⟩
  · rw [hfenced.split, List.cons_append]
  · exact List.forall_mem_cons.mpr ⟨hm, hfenced.latest⟩

/-- What holds between the steps: the drain probe that is waited for is the latest fence. -/
structure Tracks (w : Worker) (h : Health) : Prop where
  probe : h.done = false → h.drainProbeId ≠ 0 → Behind w.history h.drainProbeId
  linked : Linked w.history w.sessions

section Run

variable {c : HealthConfig} {w w' : Worker} {h : Health}

theorem Tracks.moves {moves : List Move} : ∀ {w w' : Worker}, Tracks w h →
    moves.foldlM Worker.move w = some w' → Tracks w' h ∧ w'.health = w.health := by
  induction moves with
  | nil =>
    intro w w' htracks hmoves
    rw [← Option.some.inj hmoves]
    exact ⟨htracks, rfl⟩
  | cons m moves ih =>
    intro w w' htracks hmoves
    rw [List.foldlM_cons, Option.bind_eq_bind, Option.bind_eq_some_iff] at hmoves
    obtain ⟨mid, hmid, hrest⟩ := hmoves
    obtain ⟨s, hs, hmid⟩ := Option.map_eq_some_iff.mp hmid
    subst hmid
    have hnext : Tracks { w with sessions := s, history := ⟨.moved m, s⟩ :: w.history } h :=
      ⟨fun hopen hprobe => (htracks.probe hopen hprobe).cons (by simp), .next htracks.linked hs⟩
    obtain ⟨htracked, hsame⟩ := ih hnext hrest
    exact ⟨htracked, hsame⟩

theorem moves_history {moves : List Move} : ∀ {w w' : Worker},
    moves.foldlM Worker.move w = some w' → ∃ moved, w'.history = moved ++ w.history ∧
      ∀ m ∈ moved, ∃ move, m.what = .moved move := by
  induction moves with
  | nil =>
    intro w w' hmoves
    rw [← Option.some.inj hmoves]
    exact ⟨[], rfl, by simp⟩
  | cons m moves ih =>
    intro w w' hmoves
    rw [List.foldlM_cons, Option.bind_eq_bind, Option.bind_eq_some_iff] at hmoves
    obtain ⟨mid, hmid, hrest⟩ := hmoves
    obtain ⟨s, -, hmid⟩ := Option.map_eq_some_iff.mp hmid
    subst hmid
    obtain ⟨moved, hmoved, hall⟩ := ih hrest
    refine ⟨moved ++ [⟨.moved m, s⟩], by simp [hmoved], fun n hn => ?_⟩
    rcases List.mem_append.mp hn with hin | hlast
    · exact hall n hin
    · rw [List.mem_singleton.mp hlast]
      exact ⟨m, rfl⟩

theorem Tracks.look {env : Surroundings} {moves : List Move} (htracks : Tracks w w.health)
    (hlook : w.look c env moves = some w') :
    Tracks w' (({ w.health with answers := env.answers } : Health).check c env.now w.sessions.idle)
      ∧ w'.health = w.health := by
  unfold Worker.look at hlook
  dsimp only at hlook
  obtain ⟨mid, hmid, hfence⟩ := Option.map_eq_some_iff.mp hlook
  cases hsent : ({ w.health with answers := env.answers } : Health).fenced c env.now
      w.sessions.idle with
  | none =>
    rw [hsent] at hmid hfence
    obtain ⟨hmoved, hhealth⟩ := htracks.moves hmid
    subst hfence
    refine ⟨⟨fun hopen hprobe => ?_, hmoved.linked⟩, hhealth⟩
    obtain ⟨hopen', hsame⟩ := check_kept hsent hopen hprobe
    rw [← hsame] at hprobe ⊢
    exact hmoved.probe hopen' hprobe
  | some id =>
    rw [hsent] at hmid hfence
    have hsampled : Tracks { w with history := ⟨.sampled, w.sessions⟩ :: w.history } w.health :=
      ⟨fun hopen hprobe => (htracks.probe hopen hprobe).cons (by simp), .next htracks.linked rfl⟩
    obtain ⟨hmoved, hhealth⟩ := hsampled.moves hmid
    obtain ⟨between, hbetween, hall⟩ := moves_history hmid
    subst hfence
    refine ⟨⟨fun _ _ => ?_, .next hmoved.linked rfl⟩, hhealth⟩
    have hid : (({ w.health with answers := env.answers } : Health).check c env.now
        w.sessions.idle).drainProbeId = id := by
      unfold Health.fenced at hsent
      dsimp only at hsent
      split at hsent
      · exact Option.some.inj hsent
      · cases hsent
    rw [hid]
    exact ⟨[], ⟨.fence id, mid.sessions⟩, between, ⟨.sampled, w.sessions⟩, w.history,
      ⟨congrArg _ hbetween, rfl, rfl, by simp, hall⟩, idle_of_fenced hsent⟩

theorem Tracks.call {call : Call} {env : Surroundings} {before behind : List Move}
    (htracks : Tracks w w.health) (hstep : w.step c (.call call env before behind) = some w') :
    ∃ checked, Tracks w' checked ∧ checked = (if call.looks then
        ({ w.health with answers := env.answers } : Health).check c env.now w.sessions.idle
        else w.health) ∧
      w.health.step c (call, { env with idle := w.sessions.idle, idleAtAck := w'.sessions.idle })
        = some w'.health := by
  unfold Worker.step at hstep
  simp only [Option.bind_eq_bind, Option.bind_eq_some_iff] at hstep
  obtain ⟨looked, hlooked, acked, hacked, health, hhealth, hlast⟩ := hstep
  rw [← Option.some.inj hlast]
  have hfirst : Tracks looked (if call.looks then
      ({ w.health with answers := env.answers } : Health).check c env.now w.sessions.idle
      else w.health) := by
    unfold Worker.enter at hlooked
    by_cases hlooks : call.looks = true
    · rw [if_pos hlooks] at hlooked ⊢
      exact (htracks.look hlooked).1
    · rw [if_neg hlooks] at hlooked ⊢
      exact (htracks.moves hlooked).1
  have hsecond := (hfirst.moves hacked).1
  exact ⟨_, ⟨hsecond.probe, hsecond.linked⟩, rfl, hhealth⟩

theorem Tracks.kept {g : Health} (htracks : Tracks w h) (hkept : Kept h g) : Tracks w g := by
  refine ⟨fun hopen hprobe => ?_, htracks.linked⟩
  obtain ⟨hopen', hsame⟩ := hkept hopen hprobe
  rw [← hsame] at hprobe ⊢
  exact htracks.probe hopen' hprobe

theorem Tracks.step {event : Happens} (htracks : Tracks w w.health)
    (hstep : w.step c event = some w') : Tracks w' w'.health := by
  cases event with
  | call call env before behind =>
    obtain ⟨checked, hchecked, hmid, hhealth⟩ := htracks.call hstep
    have hkept := step_kept hhealth
    rw [hmid] at hchecked
    exact hchecked.kept hkept
  | new env before =>
    unfold Worker.step at hstep
    simp only [Option.bind_eq_bind, Option.bind_eq_some_iff] at hstep
    obtain ⟨looked, hlooked, health, hhealth, hlast⟩ := hstep
    have hchecked := (htracks.look hlooked).1
    have hkept := step_kept hhealth
    have hafter : Tracks looked health := hchecked.kept hkept
    split at hlast
    · rw [← Option.some.inj hlast]
      exact ⟨fun hopen hprobe => (hafter.probe hopen hprobe).cons (by simp),
        .next hafter.linked rfl⟩
    · rw [← Option.some.inj hlast]
      exact ⟨hafter.probe, hafter.linked⟩
  | move m =>
    obtain ⟨s, hs, hlast⟩ := Option.map_eq_some_iff.mp hstep
    subst hlast
    exact ⟨fun hopen hprobe => (htracks.probe hopen hprobe).cons (by simp), .next htracks.linked hs⟩

theorem Tracks.run {events : List Happens} : ∀ {w w' : Worker}, Tracks w w.health →
    events.foldlM (Worker.step c) w = some w' → Tracks w' w'.health := by
  induction events with
  | nil =>
    intro w w' htracks hrun
    rw [← Option.some.inj hrun]
    exact htracks
  | cons event events ih =>
    intro w w' htracks hrun
    rw [List.foldlM_cons, Option.bind_eq_bind, Option.bind_eq_some_iff] at hrun
    obtain ⟨mid, hmid, hrest⟩ := hrun
    exact ih (htracks.step hmid) hrest

theorem Tracks.fresh (now : ℤ) (seed : UInt64) :
    Tracks (Worker.fresh now seed) (Worker.fresh now seed).health :=
  ⟨fun _ hprobe => absurd rfl hprobe, .fresh⟩

end Run

/-! ### What a complete drain had behind its fence -/

/-- A drain is complete only by the ack of the drain probe that a look found or sent. -/
theorem complete_cases {c : HealthConfig} {h g : Health} {call : Call} {env : Surroundings}
    (hstep : h.step c (call, env) = some g) (hopen : Avoids Complete h)
    (hdone : Complete g.state g.reason) :
    ∃ frame checked, call = .receive frame ∧ frame.ack = true ∧
      checked = ({ h with answers := env.answers } : Health).check c env.now env.idle ∧
      checked.done = false ∧ checked.drainProbeId = frame.probeId ∧ frame.probeId ≠ 0 ∧
      env.idleAtAck = true := by
  have hbad : Harmless Complete := by
    constructor
    all_goals
      intro s
      simp [Complete]
  have hother : ∀ s reason, reason ≠ "drain_complete" → ¬ Complete s reason :=
    fun s reason hreason hcomplete => hreason hcomplete.2
  have hchecked : Avoids Complete (({ h with answers := env.answers } : Health).check c env.now
      env.idle) := Avoids.check (h := { h with answers := env.answers }) hopen hother _ _
  unfold Health.step at hstep
  cases call with
  | usable =>
    rw [← Option.some.inj hstep] at hdone
    exact absurd hdone hchecked
  | snapshot =>
    rw [← Option.some.inj hstep] at hdone
    exact absurd hdone hchecked
  | receive frame =>
    rw [← Option.some.inj hstep] at hdone
    by_contra hnone
    refine hchecked.receive hbad (fun hacks hdraining hid hstays hack _ hidle => ?_) hdone
    simp only [Health.acknowledges, Bool.and_eq_true, decide_eq_true_eq, bne_iff_ne] at hacks
    exact absurd ⟨frame, _, rfl, hack, rfl, hstays, hid.symm, hacks.1.1 ▸ hacks.1.2, hidle⟩ hnone
  | tick =>
    rw [← Option.some.inj hstep] at hdone
    exact absurd hdone (hchecked.tick hbad)
  | drain =>
    rw [← Option.some.inj hstep] at hdone
    exact absurd hdone (Avoids.drain (h := { h with answers := env.answers }) hopen hbad)
  | stop =>
    rw [← Option.some.inj hstep] at hdone
    exact absurd hdone (Avoids.stop (h := { h with answers := env.answers }) hopen hbad.closed)
  | close =>
    rw [← Option.some.inj hstep] at hdone
    exact absurd hdone hopen
  | transportClosed =>
    dsimp only at hstep
    split at hstep
    · rw [← Option.some.inj hstep] at hdone
      exact absurd hdone
        (Avoids.stop (h := { h with answers := env.answers }) hopen hbad.transport)
    · cases hstep

/-- The New frames that were taken. -/
def taken (history : List Moment) : ℕ := history.countP (·.what = .admitted)

/-- The sessions that came into the map. -/
def entered (history : List Moment) : ℕ := history.countP (·.what = .moved .started)

end Brocade.Mux
