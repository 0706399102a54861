/-
What a reverse worker went through when it takes sessions.

`Inv` holds in every state of a run.  Each call is made of a few updates: a frame that is sent,
a probe that is issued, an ack that is accepted, a change of state.  What one of them keeps is
shown once, and the calls follow by their branches.

One thing goes wrong.  `Close` marks the worker closed before it closes the transport, and a
frame that comes in between is still answered; where the control queue refuses the answer, the
closed worker is taken to have failed.  `strict` says that this does not happen.
-/
import Brocade.Mux.ReverseHealth
import Mathlib.Data.List.Chain

namespace Brocade.Mux

/-! ### Reading the log -/

def Entry.state? : Entry → Option WorkerState
  | .moved state => some state
  | _ => none

def Entry.acceptance? : Entry → Option (Probe × ℤ)
  | .accepted probe time => some (probe, time)
  | _ => none

def Entry.bound? : Entry → Option ℤ
  | .bounded deadline => some deadline
  | _ => none

/-- The states a worker was in, the newest first. -/
def states (log : List Entry) : List WorkerState := log.filterMap Entry.state?

/-- The acks it accepted, with the probe and the time of each. -/
def acceptances (log : List Entry) : List (Probe × ℤ) := log.filterMap Entry.acceptance?

/-- What happened in the state it is in. -/
def sinceMove (log : List Entry) : List Entry := log.takeWhile fun entry => entry.state?.isNone

/-- The state is one that takes no session any more. -/
def WorkerState.lost : WorkerState → Bool
  | .draining | .dead | .closed => true
  | _ => false

/-- The worker is at its end. -/
def WorkerState.gone : WorkerState → Bool
  | .dead | .closed => true
  | _ => false

@[simp] theorem states_moved (s : WorkerState) (log : List Entry) :
    states (.moved s :: log) = s :: states log := rfl

@[simp] theorem states_cons {entry : Entry} (h : entry.state? = none) (log : List Entry) :
    states (entry :: log) = states log := by
  simp [states, h]

@[simp] theorem acceptances_accepted (probe : Probe) (time : ℤ) (log : List Entry) :
    acceptances (.accepted probe time :: log) = (probe, time) :: acceptances log := rfl

@[simp] theorem acceptances_cons {entry : Entry} (h : entry.acceptance? = none)
    (log : List Entry) : acceptances (entry :: log) = acceptances log := by
  simp [acceptances, h]

@[simp] theorem sinceMove_moved (s : WorkerState) (log : List Entry) :
    sinceMove (.moved s :: log) = [] := rfl

@[simp] theorem sinceMove_cons {entry : Entry} (h : entry.state? = none) (log : List Entry) :
    sinceMove (entry :: log) = entry :: sinceMove log := by
  simp [sinceMove, h]

theorem sinceMove_sublist (log : List Entry) : (sinceMove log).Sublist log :=
  List.takeWhile_sublist _

/-! ### What a log may say -/

/-- A state may come after another one.  A worker that takes no session any more never takes one
again, and nothing but `closed` follows the end of a worker. -/
def Follows (strict : Prop) (newer older : WorkerState) : Prop :=
  (older.lost = true → newer.lost = true) ∧ (strict → older.gone = true → newer = .closed)

/-- Enough probes of the suspicion a log ends with were acknowledged before its deadline. -/
def Recovered (c : HealthConfig) (log : List Entry) : Prop :=
  ∃ deadline, (sinceMove log).filterMap Entry.bound? = [deadline]
    ∧ c.recoverySuccesses.toNat ≤ (acceptances (sinceMove log)).length
    ∧ ((acceptances (sinceMove log)).map fun a => a.1.serial).Nodup
    ∧ ∀ a ∈ acceptances (sinceMove log),
        Entry.issued a.1 ∈ sinceMove log ∧ a.2 < deadline ∧ a.2 < a.1.deadline

/-- What holds while a worker is suspect. -/
structure Suspicion (h : Health) : Prop where
  bound : (sinceMove h.log).filterMap Entry.bound? = [h.hardDeadline]
  counted : h.recoveryAcks ≤ (acceptances (sinceMove h.log)).length
  inTime : ∀ a ∈ acceptances (sinceMove h.log),
    Entry.issued a.1 ∈ sinceMove h.log ∧ a.2 < h.hardDeadline

/-- What holds of a worker after every call. -/
structure Inv (strict : Prop) (c : HealthConfig) (h : Health) : Prop where
  current : (states h.log).head? = some h.state
  path : (states h.log).Pairwise (Follows strict)
  dead : h.state = .dead → h.done = true
  /-- Both directions are validated in a worker that is or was ready. -/
  validated : h.state = .ready ∨ h.state = .suspect → h.ownValidated = true ∧ h.peerValidated = true
  own : h.ownValidated = true → h.lastAck.isSome = true
  last : (acceptances h.log).head?.map Prod.snd = h.lastAck
  timely : ∀ a ∈ acceptances h.log, Entry.issued a.1 ∈ h.log ∧ a.2 < a.1.deadline
  /-- The pending probe has no accepted ack yet. -/
  serials : ∀ a ∈ acceptances h.log,
    a.1.serial ≤ h.probes ∧ (h.pendingId ≠ 0 → a.1.serial < h.probes)
  distinct : (acceptances h.log).Pairwise fun a b => b.1.serial < a.1.serial
  pending : h.pendingId ≠ 0 → Entry.issued ⟨h.probes, h.pendingId, h.pendingDeadline⟩ ∈ h.log
  /-- The peer's last probe was answered, unless the answer was refused. -/
  peer : h.peerId ≠ 0 → h.state.lost = true ∨ Entry.sent (.pong h.peerId) ∈ h.log
  confirmed : h.peerValidated = true → h.state.lost = true ∨
    ∃ id, Entry.confirmed id ∈ h.log ∧ Entry.sent (.pong id) ∈ h.log
  recovered : ∀ older, (.moved .ready :: older) <:+ h.log →
    (states older).head? = some .suspect → Recovered c older
  suspicion : h.state = .suspect → Suspicion h

/-- The pending probe of a suspect worker was issued after the suspicion. -/
def Watched (h : Health) : Prop :=
  h.state = .suspect → h.pendingId ≠ 0 →
    Entry.issued ⟨h.probes, h.pendingId, h.pendingDeadline⟩ ∈ sinceMove h.log

theorem Follows.trans {strict : Prop} {a b d : WorkerState} (h₁ : Follows strict a b)
    (h₂ : Follows strict b d) : Follows strict a d := by
  refine ⟨fun h => h₁.1 (h₂.1 h), fun hs h => h₁.2 hs ?_⟩
  rw [h₂.2 hs h]
  rfl

theorem suffix_of_cons {entry : Entry} (hstate : entry.state? = none) {older log : List Entry}
    (h : (.moved .ready :: older) <:+ (entry :: log)) : (.moved .ready :: older) <:+ log := by
  rcases List.suffix_cons_iff.mp h with h | h
  · injection h with hentry
    rw [← hentry] at hstate
    exact absurd hstate (by simp [Entry.state?])
  · exact h

namespace Inv

variable {strict : Prop} {c : HealthConfig} {h : Health}

theorem fresh (now : ℤ) (seed : UInt64) : Inv strict c (Health.fresh now seed) where
  current := rfl
  path := List.pairwise_singleton _ _
  dead := by simp [Health.fresh]
  validated := by simp [Health.fresh]
  own := by simp [Health.fresh]
  last := rfl
  timely := by simp [Health.fresh, acceptances, Entry.acceptance?]
  serials := by simp [Health.fresh, acceptances, Entry.acceptance?]
  distinct := List.Pairwise.nil
  pending := by simp [Health.fresh]
  peer := by simp [Health.fresh]
  confirmed := by simp [Health.fresh]
  recovered := by
    intro older hold
    simp [Health.fresh, List.suffix_cons_iff] at hold
  suspicion := by simp [Health.fresh]

/-! ### The updates -/

/-- The fields no property of a worker reads. -/
def plain (h : Health) : Health :=
  { h with
    reason := "", started := 0, nextProbe := 0, nextId := 0, drainProbeId := 0
    drainDeadline := none, sentAt := 0, rtt := 0, acks := 0, timeouts := 0, answers := [] }

section

variable (hinv : Inv strict c h)

include hinv

theorem of_plain {g : Health} (heq : plain g = plain h) : Inv strict c g := by
  have hplain : Inv strict c (plain h) :=
    ⟨hinv.current, hinv.path, hinv.dead, hinv.validated, hinv.own, hinv.last, hinv.timely,
      hinv.serials, hinv.distinct, hinv.pending, hinv.peer, hinv.confirmed, hinv.recovered,
      fun hs => ⟨(hinv.suspicion hs).bound, (hinv.suspicion hs).counted,
        (hinv.suspicion hs).inTime⟩⟩
  rw [← heq] at hplain
  exact ⟨hplain.current, hplain.path, hplain.dead, hplain.validated, hplain.own, hplain.last,
    hplain.timely, hplain.serials, hplain.distinct, hplain.pending, hplain.peer,
    hplain.confirmed, hplain.recovered,
    fun hs => ⟨(hplain.suspicion hs).bound, (hplain.suspicion hs).counted,
      (hplain.suspicion hs).inTime⟩⟩

theorem interrupt (closes : Bool) : Inv strict c (h.interrupt closes) where
  __ := hinv
  dead := fun hs => by simp [Health.interrupt, hinv.dead hs]
  suspicion := fun hs =>
    ⟨(hinv.suspicion hs).bound, (hinv.suspicion hs).counted, (hinv.suspicion hs).inTime⟩

theorem note (entry : Entry) (hstate : entry.state? = none) (hacceptance : entry.acceptance? = none)
    (hbound : entry.bound? = none) : Inv strict c { h with log := entry :: h.log } where
  __ := hinv
  current := by simpa [hstate] using hinv.current
  path := by simpa [hstate] using hinv.path
  last := by simpa [hacceptance] using hinv.last
  timely := by
    intro a ha
    rw [acceptances_cons hacceptance] at ha
    exact ⟨List.mem_cons_of_mem _ (hinv.timely a ha).1, (hinv.timely a ha).2⟩
  serials := by simpa [hacceptance] using hinv.serials
  distinct := by simpa [hacceptance] using hinv.distinct
  pending := fun hp => List.mem_cons_of_mem _ (hinv.pending hp)
  peer := fun hp => (hinv.peer hp).imp_right fun hs => List.mem_cons_of_mem _ hs
  confirmed := fun hp => (hinv.confirmed hp).imp_right fun ⟨id, hid, hsent⟩ =>
    ⟨id, List.mem_cons_of_mem _ hid, List.mem_cons_of_mem _ hsent⟩
  recovered := fun older hold => hinv.recovered older (suffix_of_cons hstate hold)
  suspicion := by
    intro hs
    obtain ⟨hbounds, hcount, htime⟩ := hinv.suspicion hs
    refine ⟨?_, ?_, ?_⟩
    · simpa [hstate, hbound] using hbounds
    · simpa [hstate, hacceptance] using hcount
    · intro a ha
      simp only [sinceMove_cons hstate, acceptances_cons hacceptance] at ha ⊢
      exact ⟨List.mem_cons_of_mem _ (htime a ha).1, (htime a ha).2⟩

theorem issue (now timeout : ℤ) : Inv strict c (h.issue now timeout) := by
  have hnote := hinv.note
    (.issued ⟨h.probes + 1, Health.followingId h.nextId, now + timeout⟩) rfl rfl rfl
  exact { hnote with
    serials := fun a ha => by
      have := (hnote.serials a ha).1
      simp only [Health.issue] at this ⊢
      omega
    pending := fun _ => List.mem_cons_self
    suspicion := fun hs => ⟨(hnote.suspicion hs).bound, (hnote.suspicion hs).counted,
      (hnote.suspicion hs).inTime⟩ }

theorem answered (id : UInt64) (hsent : h.state.lost = true ∨ Entry.sent (.pong id) ∈ h.log) :
    Inv strict c { h with peerId := id } where
  __ := hinv
  peer := fun _ => hsent
  suspicion := fun hs =>
    ⟨(hinv.suspicion hs).bound, (hinv.suspicion hs).counted, (hinv.suspicion hs).inTime⟩

theorem confirm (hid : h.peerId ≠ 0) :
    Inv strict c { h with peerValidated := true, log := .confirmed h.peerId :: h.log } := by
  have hnote := hinv.note (.confirmed h.peerId) rfl rfl rfl
  exact { hnote with
    validated := fun hs => ⟨(hnote.validated hs).1, rfl⟩
    confirmed := fun _ => (hnote.peer hid).imp_right fun hsent =>
      ⟨h.peerId, List.mem_cons_self, hsent⟩
    suspicion := fun hs => ⟨(hnote.suspicion hs).bound, (hnote.suspicion hs).counted,
      (hnote.suspicion hs).inTime⟩ }

theorem ownValidated (hack : h.lastAck.isSome = true) :
    Inv strict c { h with ownValidated := true } where
  __ := hinv
  validated := fun hs => ⟨rfl, (hinv.validated hs).2⟩
  own := fun _ => hack
  suspicion := fun hs =>
    ⟨(hinv.suspicion hs).bound, (hinv.suspicion hs).counted, (hinv.suspicion hs).inTime⟩

theorem cleared : Inv strict c { h with pendingId := 0 } where
  __ := hinv
  serials := fun a ha => ⟨(hinv.serials a ha).1, fun hp => absurd rfl hp⟩
  pending := fun hp => absurd rfl hp
  suspicion := fun hs =>
    ⟨(hinv.suspicion hs).bound, (hinv.suspicion hs).counted, (hinv.suspicion hs).inTime⟩

theorem acked {now : ℤ} (hwatched : Watched h) (hid : h.pendingId ≠ 0)
    (hdeadline : now < h.pendingDeadline) (hhard : h.state = .suspect → now < h.hardDeadline) :
    Inv strict c (h.acked now) where
  __ := hinv
  own := fun _ => rfl
  last := rfl
  timely := by
    simp only [Health.acked, acceptances_accepted]
    rintro a (_ | ⟨_, ha⟩)
    · exact ⟨List.mem_cons_of_mem _ (hinv.pending hid), hdeadline⟩
    · exact ⟨List.mem_cons_of_mem _ (hinv.timely a ha).1, (hinv.timely a ha).2⟩
  serials := by
    simp only [Health.acked, acceptances_accepted]
    rintro a (_ | ⟨_, ha⟩)
    · exact ⟨Nat.le_refl _, fun hp => absurd rfl hp⟩
    · exact ⟨(hinv.serials a ha).1, fun hp => absurd rfl hp⟩
  distinct := by
    simp only [Health.acked, acceptances_accepted]
    exact List.pairwise_cons.mpr ⟨fun a ha => (hinv.serials a ha).2 hid, hinv.distinct⟩
  pending := fun hp => absurd rfl hp
  peer := fun hp => (hinv.peer hp).imp_right fun hs => List.mem_cons_of_mem _ hs
  confirmed := fun hp => (hinv.confirmed hp).imp_right fun ⟨id, hconfirmed, hsent⟩ =>
    ⟨id, List.mem_cons_of_mem _ hconfirmed, List.mem_cons_of_mem _ hsent⟩
  recovered := fun older hold => hinv.recovered older (suffix_of_cons rfl hold)
  suspicion := by
    intro hs
    obtain ⟨hbounds, hcount, htime⟩ := hinv.suspicion hs
    have hsince : sinceMove (h.acked now).log
        = .accepted ⟨h.probes, h.pendingId, h.pendingDeadline⟩ now :: sinceMove h.log := rfl
    refine ⟨?_, ?_, ?_⟩
    · rw [hsince]
      exact hbounds
    · rw [hsince, acceptances_accepted]
      exact Nat.le_succ_of_le hcount
    · rw [hsince, acceptances_accepted]
      rintro a (_ | ⟨_, ha⟩)
      · exact ⟨List.mem_cons_of_mem _ (hwatched hs hid), hhard hs⟩
      · exact ⟨List.mem_cons_of_mem _ (htime a ha).1, (htime a ha).2⟩

/-! ### Moves -/

theorem path_cons {s : WorkerState} (hfollows : Follows strict s h.state) :
    (s :: states h.log).Pairwise (Follows strict) := by
  refine List.pairwise_cons.mpr ⟨fun older hold => ?_, hinv.path⟩
  have hcurrent := hinv.current
  have hpath := hinv.path
  revert hcurrent hpath hold
  cases states h.log with
  | nil => simp
  | cons newest rest =>
    intro hold hcurrent hpath
    have hnewest : newest = h.state := by simpa using hcurrent
    rw [← hnewest] at hfollows
    rcases List.mem_cons.mp hold with rfl | hold
    · exact hfollows
    · exact hfollows.trans ((List.pairwise_cons.mp hpath).1 older hold)

theorem transition {s : WorkerState} (reason : String) (hfollows : Follows strict s h.state)
    (hdead : s = .dead → h.done = true)
    (hready : s = .ready → h.ownValidated = true ∧ h.peerValidated = true)
    (hrecovered : s = .ready → h.state = .suspect → Recovered c h.log) (hs : s ≠ .suspect) :
    Inv strict c (h.transition s reason) := by
  unfold Health.transition
  split
  · exact hinv
  have hlost : s.lost = false → h.state.lost = false := by
    intro hl
    by_contra hc
    rw [hfollows.1 (by simpa using hc)] at hl
    cases hl
  exact { hinv with
    current := rfl
    path := hinv.path_cons hfollows
    dead := hdead
    validated := fun hv => hready (hv.resolve_right hs)
    timely := fun a ha =>
      ⟨List.mem_cons_of_mem _ (hinv.timely a ha).1, (hinv.timely a ha).2⟩
    pending := fun hp => List.mem_cons_of_mem _ (hinv.pending hp)
    peer := fun hp => by
      rcases hinv.peer hp with hl | hsent
      · exact .inl (hfollows.1 hl)
      · exact .inr (List.mem_cons_of_mem _ hsent)
    confirmed := fun hp => by
      rcases hinv.confirmed hp with hl | ⟨id, hconfirmed, hsent⟩
      · exact .inl (hfollows.1 hl)
      · exact .inr ⟨id, List.mem_cons_of_mem _ hconfirmed, List.mem_cons_of_mem _ hsent⟩
    recovered := fun older hold hfrom => by
      rcases List.suffix_cons_iff.mp hold with heq | hold
      · injection heq with hmoved hlog
        injection hmoved with hstate
        subst hlog
        rw [hinv.current] at hfrom
        exact hrecovered hstate.symm (by simpa using hfrom)
      · exact hinv.recovered older hold hfrom
    suspicion := fun hsus => absurd hsus hs }

theorem suspected (hready : h.state = .ready) (deadline : ℤ) :
    Inv strict c (h.suspected deadline) := by
  have hmove : h.transition .suspect "probe_timeout" = { h with
          state := .suspect
          reason := "probe_timeout"
          log := .moved .suspect :: h.log } := by
    rw [Health.transition, if_neg (by rw [hready]; decide)]
  unfold Health.suspected
  rw [hmove]
  exact { hinv with
    current := rfl
    path := hinv.path_cons (by
      rw [hready]
      exact ⟨fun hl => absurd hl (by decide), fun _ hg => absurd hg (by decide)⟩)
    dead := fun hd => by cases hd
    validated := fun _ => hinv.validated (.inl hready)
    timely := fun a ha => by
      exact ⟨List.mem_cons_of_mem _ (List.mem_cons_of_mem _ (hinv.timely a ha).1),
        (hinv.timely a ha).2⟩
    pending := fun hp => List.mem_cons_of_mem _ (List.mem_cons_of_mem _ (hinv.pending hp))
    peer := fun hp => by
      rcases hinv.peer hp with hl | hsent
      · rw [hready] at hl
        cases hl
      · exact .inr (List.mem_cons_of_mem _ (List.mem_cons_of_mem _ hsent))
    confirmed := fun hp => by
      rcases hinv.confirmed hp with hl | ⟨id, hconfirmed, hsent⟩
      · rw [hready] at hl
        cases hl
      · exact .inr ⟨id, List.mem_cons_of_mem _ (List.mem_cons_of_mem _ hconfirmed),
          List.mem_cons_of_mem _ (List.mem_cons_of_mem _ hsent)⟩
    recovered := fun older hold hfrom => by
      have hold := suffix_of_cons rfl hold
      rcases List.suffix_cons_iff.mp hold with heq | hold
      · injection heq with hmoved
        injection hmoved with hstate
        cases hstate
      · exact hinv.recovered older hold hfrom
    suspicion := fun _ => ⟨rfl, Nat.zero_le _, by simp [sinceMove, Entry.state?, acceptances,
      Entry.acceptance?]⟩ }

theorem leave {s : WorkerState} (reason : String) (hs : s.lost = true)
    (hgone : strict → h.state.gone = true → s = .closed) (hdead : s = .dead → h.done = true) :
    Inv strict c (h.transition s reason) := by
  refine hinv.transition reason ⟨fun _ => hs, hgone⟩ hdead ?_ ?_ ?_
  all_goals
    rintro rfl
    cases hs

theorem fail (reason : String) (hopen : strict → h.state ≠ .closed) :
    Inv strict c (h.fail reason) := by
  by_cases hdead : h.state = .dead
  · have hfail : h.fail reason = h.interrupt true := by
      simp [Health.fail, Health.transition, Health.interrupt, hdead]
    rw [hfail]
    exact hinv.interrupt true
  · have hfail : h.fail reason = (h.interrupt true).transition .dead reason := by
      simp [Health.fail, Health.transition, Health.interrupt, hdead]
    rw [hfail]
    refine (hinv.interrupt true).leave reason rfl (fun hst hg => ?_)
      fun _ => by simp [Health.interrupt]
    cases hstate : h.state <;> simp_all [Health.interrupt, WorkerState.gone]

end

end Inv

/-! ### The writes -/

section
variable {c : HealthConfig} {h : Health}

theorem transition_state (s : WorkerState) (reason : String) :
    (h.transition s reason).state = s := by
  unfold Health.transition
  split
  · assumption
  · rfl

theorem enqueue_cases (h : Health) (frame : Frame) : (∃ rest, h.answers = true :: rest
        ∧ h.enqueue frame = ({ h with answers := rest, log := .sent frame :: h.log }, true))
      ∨ (h.answers.head? ≠ some true ∧ ∃ rest, h.enqueue frame = ({ h with answers := rest }, false)) := by
  unfold Health.enqueue
  cases hanswers : h.answers with
  | nil =>
    have hsame : h = { h with answers := [] } := by rw [← hanswers]
    exact .inr ⟨by simp, [], congrArg (·, false) hsame⟩
  | cons answer rest =>
    cases answer with
    | true => exact .inl ⟨rest, rfl, rfl⟩
    | false => exact .inr ⟨by simp, rest, rfl⟩

theorem enqueue_state (frame : Frame) : (h.enqueue frame).1.state = h.state := by
  rcases enqueue_cases h frame with ⟨rest, _, heq⟩ | ⟨_, rest, heq⟩ <;> rw [heq]

theorem failHealth_lost (c : HealthConfig) (h : Health) (reason : String) :
    (h.failHealth c reason).state.lost = true := by
  unfold Health.failHealth
  split
  · rw [Health.fail]
    rw [show ({ h.transition .dead reason with done := true } : Health).state
      = (h.transition .dead reason).state from rfl, transition_state]
    rfl
  · rw [enqueue_state, transition_state]
    rfl

theorem send_cases (c : HealthConfig) (h : Health) (frame : Frame) :
    (∃ rest, h.answers = true :: rest
        ∧ h.send c frame = ({ h with answers := rest, log := .sent frame :: h.log }, true))
      ∨ (h.answers.head? ≠ some true ∧ ∃ rest, h.send c frame
        = ({ h with answers := rest }.failHealth c "control_queue_full_or_closed", false)) := by
  unfold Health.send
  rcases enqueue_cases h frame with ⟨rest, hanswers, heq⟩ | ⟨hanswers, rest, heq⟩
  · exact .inl ⟨rest, hanswers, by rw [heq]⟩
  · exact .inr ⟨hanswers, rest, by rw [heq]⟩

theorem Watched.of_lost (hlost : h.state.lost = true) : Watched h := by
  intro hs
  rw [hs] at hlost
  cases hlost

/-- What the calls keep. -/
def Good (strict : Prop) (c : HealthConfig) (h : Health) : Prop := Inv strict c h ∧ Watched h

variable {strict : Prop}

theorem Good.failHealth (hinv : Inv strict c h) (reason : String)
    (hgone : strict → h.state.gone = false) : Good strict c (h.failHealth c reason) := by
  refine ⟨?_, .of_lost (failHealth_lost c h reason)⟩
  unfold Health.failHealth
  split
  · refine hinv.fail reason fun hst hc => ?_
    have := hgone hst
    rw [hc] at this
    cases this
  · have hleft := hinv.cleared.leave (s := .draining) reason rfl
      (fun hst hg => absurd (hgone hst) (by simpa using hg)) (fun hd => by cases hd)
    rcases enqueue_cases ({ h with pendingId := 0 }.transition .draining reason)
      (.leave h.nextId) with ⟨rest, _, heq⟩ | ⟨_, rest, heq⟩ <;> rw [heq]
    · exact (hleft.note _ rfl rfl rfl).of_plain rfl
    · exact hleft.of_plain rfl

theorem Good.send (hgood : Good strict c h) {frame : Frame}
    (hgone : strict → h.state.gone = true → h.answers.head? = some true) :
    Good strict c (h.send c frame).1 := by
  rcases send_cases c h frame with ⟨rest, _, heq⟩ | ⟨hrefused, rest, heq⟩ <;> rw [heq]
  · refine ⟨(hgood.1.note (.sent frame) rfl rfl rfl).of_plain rfl, fun hs hid => ?_⟩
    exact List.mem_cons_of_mem _ (hgood.2 hs hid)
  · have hinv : Inv strict c { h with answers := rest } := hgood.1.of_plain rfl
    refine Good.failHealth hinv _ fun hst => ?_
    by_contra hg
    exact hrefused (hgone hst (by simpa using hg))

theorem Good.probe (hinv : Inv strict c h) (now timeout : ℤ)
    (hgone : strict → h.state.gone = true → h.answers.head? = some true) :
    Good strict c (h.probe c now timeout) :=
  Good.send ⟨hinv.issue now timeout, fun _ _ => List.mem_cons_self⟩ hgone

theorem send_state (c : HealthConfig) (h : Health) (frame : Frame) :
    (h.send c frame).1.state = h.state ∨ (h.send c frame).1.state.lost = true := by
  rcases send_cases c h frame with ⟨rest, _, heq⟩ | ⟨_, rest, heq⟩ <;> rw [heq]
  · exact .inl rfl
  · exact .inr (failHealth_lost c _ _)

end

end Brocade.Mux
