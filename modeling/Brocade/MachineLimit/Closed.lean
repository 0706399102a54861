/-
The cap fails closed.

Three things are shown, and of any run.  Bytes pass without an answer of the budget only where
the last file the controller could use let them pass: a file it cannot use keeps what was so and
opens nothing.  A change of the cap that fails leaves the cap in memory, and one that succeeds
leaves it in memory and on disk alike.  And the Agent calls the budget dispensable only by what
its files say.
-/
import Brocade.MachineLimit.Controller

namespace Brocade.MachineLimit

open Faulty

variable {β : Type}

/-! ### Controllers -/

/-- The last file the controller could use lets bytes pass. -/
def Opened (lastValid : Option ApplicationControl) : Prop :=
  ∃ config, lastValid = some config ∧ inactive config = true

/-- Where the budget is required, what lets bytes pass is the last file that could be used. -/
def Controller.Closed (c : Controller) : Prop :=
  c.required = true → ∀ config, c.state = some (.loaded config) → inactive config = true →
    Opened c.lastValid

theorem Controller.closed_new (required : Bool) :
    Controller.Closed { required, next := 0, state := none, lastValid := none } := by
  intro _ config hstate
  cases hstate

theorem Controller.Closed.load {c : Controller} (h : c.Closed) (now : ℕ) (force : Bool)
    (read : Option ApplicationControl) :
    (c.load now force read).1.Closed ∧ (c.load now force read).1.required = c.required
      ∧ (c.load now force read).1.state = some (c.load now force read).2 := by
  unfold Controller.load
  split
  · next state hcached =>
      have hstate : c.state = some state := by
        split at hcached
        · exact hcached
        · cases hcached
      exact ⟨h, rfl, hstate⟩
  · refine ⟨?_, rfl, rfl⟩
    intro hrequired config hstate hinactive
    cases hread : read.filter validConfig with
    | some valid =>
      rw [hread] at hstate
      cases hstate
      exact ⟨config, rfl, hinactive⟩
    | none =>
      rw [hread] at hstate
      by_cases hpasses : c.passes = true
      · rw [Controller.passes] at hpasses
        have hrequired' : c.required = true := hrequired
        cases hold : c.state with
        | none =>
          rw [hold, hrequired'] at hpasses
          cases hpasses
        | some state =>
          cases state with
          | unavailable =>
            rw [hold] at hpasses
            cases hpasses
          | loaded previous =>
            rw [hold] at hpasses
            exact h hrequired' previous hold hpasses
      · simp only [hpasses] at hstate
        cases hstate

theorem Waiter.load_closed {waiter waiter' : Waiter} {c c' : Controller} {now : ℕ}
    {read : Option ApplicationControl} {passed : Option ℕ} (h : c.Closed)
    (hload : waiter.load c now read = some (c', waiter', passed)) :
    c'.Closed ∧ c'.required = c.required
      ∧ (c.required = true → passed.isSome = true → Opened c'.lastValid) := by
  have hnone : passed = none → c.required = true → passed.isSome = true → Opened c'.lastValid := by
    rintro rfl _ hsome
    cases hsome
  have hopened : ∀ force, (c.load now force read).1.required = true → ∀ config,
      (c.load now force read).2 = .loaded config → inactive config = true →
      Opened (c.load now force read).1.lastValid := by
    intro force hrequired config hstate hinactive
    obtain ⟨hclosed, -, hsame⟩ := h.load now force read
    exact hclosed hrequired config (hsame.trans (congrArg some hstate)) hinactive
  cases waiter with
  | entered n =>
    obtain ⟨hclosed, hrequired, -⟩ := h.load now false read
    simp only [Waiter.load] at hload
    split at hload
    · cases hload
      exact ⟨hclosed, hrequired, hnone rfl⟩
    · next config hstate =>
        split at hload
        · next hinactive =>
            cases hload
            exact ⟨hclosed, hrequired, fun hr _ =>
              hopened false (hrequired.trans hr) config hstate hinactive⟩
        · cases hload
          exact ⟨hclosed, hrequired, hnone rfl⟩
  | waiting left =>
    obtain ⟨hclosed, hrequired, -⟩ := h.load now false read
    simp only [Waiter.load] at hload
    split at hload
    · cases hload
      exact ⟨h, rfl, hnone rfl⟩
    · split at hload
      · cases hload
        exact ⟨hclosed, hrequired, hnone rfl⟩
      · next config hstate =>
          split at hload
          · next hinactive =>
              cases hload
              exact ⟨hclosed, hrequired, fun hr _ =>
                hopened false (hrequired.trans hr) config hstate hinactive⟩
          · cases hload
            exact ⟨hclosed, hrequired, hnone rfl⟩
  | retrying left part =>
    obtain ⟨hclosed, hrequired, -⟩ := h.load now true read
    simp only [Waiter.load] at hload
    split at hload
    · cases hload
      exact ⟨hclosed, hrequired, hnone rfl⟩
    · next config hstate =>
        split at hload
        · next hinactive =>
            cases hload
            exact ⟨hclosed, hrequired, fun hr _ =>
              hopened true (hrequired.trans hr) config hstate hinactive⟩
        · cases hload
          exact ⟨hclosed, hrequired, hnone rfl⟩
  | idle => cases hload
  | requesting left part config => cases hload
  | sent left part config => cases hload

/-! ### The Agent -/

/-- Connections are served at the cap that is set. -/
def Agent.Coherent (agent : Agent β) : Prop :=
  ∀ budget, agent.budget = some budget → budget.rate = budget.control.rateBps

theorem writeFile_keeps {fault : Fault String} {bytes : β} {budget : Option Budget} :
    Triple (fun agent : Agent β => agent.budget = budget) (writeFile fault bytes)
      (fun _ agent => agent.budget = budget ∧ agent.dir.control = .holds bytes)
      (fun _ agent => agent.budget = budget) (fun agent => agent.budget = budget) :=
  Triple.perform (fun _ hs => ⟨hs, rfl⟩) (fun _ _ _ hs => ⟨hs, hs⟩) fun _ hs => ⟨hs, hs⟩

/-- What a change of the cap leaves when it succeeds. -/
structure Configured (codec : Codec β) (budget : Budget) (enabled : Bool) (rate : Option ℕ)
    (agent : Agent β) : Prop where
  memory : agent.budget = some {
    control := wantedControl budget.control enabled rate
    rate := requestedRate enabled rate }
  file : agent.dir.control = .holds (codec.encode (wantedControl budget.control enabled rate))

/-- **A change of the cap** fails with the memory as it was, or leaves memory and file alike. -/
theorem configureBudget_keeps [DecidableEq β] {codec : Codec β} {fault : Fault String}
    {budget : Budget} (hcoherent : budget.rate = budget.control.rateBps) (enabled : Bool)
    (rate : Option ℕ) : Triple (fun agent : Agent β => agent.budget = some budget)
      (configureBudget codec fault budget enabled rate)
      (fun _ => Configured codec budget enabled rate)
      (fun _ agent => agent.budget = some budget) (fun agent => agent.budget = some budget) := by
  unfold configureBudget
  dsimp only
  by_cases hsame : budget.control.enabled = enabled
      ∧ budget.control.rateBps = requestedRate enabled rate
  · rw [if_pos hsame]
    have hcontrol : wantedControl budget.control enabled rate = budget.control := by
      unfold wantedControl
      rw [← hsame.1, ← hsame.2.trans (congrArg (requestedRate · rate) hsame.1.symm)]
    have hbudget : budget = {
        control := wantedControl budget.control enabled rate
        rate := requestedRate enabled rate } := by
      rw [hcontrol, ← hsame.2, ← hcoherent]
    refine Triple.bind Triple.get fun a => ?_
    by_cases hfile : a.dir.control = .holds (codec.encode budget.control)
    · rw [if_pos hfile]
      rintro agent ⟨rfl, hmemory⟩
      exact ⟨hmemory.trans (congrArg some hbudget), by rw [hfile, hcontrol]⟩
    · rw [if_neg hfile]
      refine writeFile_keeps.weaken (fun _ hs => hs.2) (fun _ agent hs => ?_) (fun _ _ hs => hs)
        fun _ hs => hs
      exact ⟨hs.1.trans (congrArg some hbudget), by rw [hs.2, hcontrol]⟩
  · rw [if_neg hsame]
    refine Triple.bind writeFile_keeps fun _ => ?_
    exact fun agent hs => ⟨rfl, hs.2⟩

theorem initializeWithPolicy_coherent {codec : Codec β} {platform : Platform}
    {fault : Fault String} {policy : Option (Bool × Option ℕ)} :
    Triple Agent.Coherent (initializeWithPolicy codec platform fault policy)
      (fun _ => Agent.Coherent) (fun _ => Agent.Coherent) Agent.Coherent := by
  have hlift : ∀ {α : Type} (x : Except String α), Triple (Agent.Coherent (β := β)) (lift x)
      (fun _ => Agent.Coherent) (fun _ => Agent.Coherent) Agent.Coherent := by
    intro α x
    cases x with
    | ok a => exact fun _ hs => hs
    | error error => exact fun _ hs => hs
  unfold initializeWithPolicy
  refine Triple.bind (Triple.get.post (fun _ _ hs => hs.2)) fun agent => ?_
  split
  · exact fun _ hs => hs
  · refine Triple.bind (hlift _) fun previous => ?_
    split
    · exact fun _ hs => hs
    · refine Triple.bind (hlift _) fun endpoint => Triple.bind (hlift _) fun entropy => ?_
      refine Triple.bind (Q := fun _ => Agent.Coherent) ?_ fun _ =>
        Triple.bind (hlift _) fun _ => ?_
      · exact Triple.perform (fun _ hs => hs) (fun _ _ _ hs => ⟨hs, hs⟩) fun _ hs => ⟨hs, hs⟩
      · intro _ _ budget hbudget
        cases hbudget
        rfl

theorem configure_coherent [DecidableEq β] {codec : Codec β} {fault : Fault String} {enabled : Bool}
    {rate : Option ℕ} : Triple Agent.Coherent (configure codec fault enabled rate)
      (fun _ => Agent.Coherent) (fun _ => Agent.Coherent) Agent.Coherent := by
  refine Triple.assume fun agent hcoherent => ?_
  unfold configure
  refine Triple.bind Triple.get fun a => Triple.assume fun s hs => ?_
  obtain ⟨rfl, rfl⟩ := hs
  cases hbudget : a.budget with
  | none =>
    rintro s rfl
    exact hcoherent
  | some budget =>
    have hkept : ∀ agent : Agent β, agent.budget = some budget → agent.Coherent := by
      intro agent hagent other hother
      rw [hagent, Option.some.injEq] at hother
      exact hother ▸ hcoherent budget hbudget
    refine (configureBudget_keeps (hcoherent budget hbudget) enabled rate).weaken ?_ ?_
      (fun _ => hkept) hkept
    · rintro s rfl
      exact hbudget
    · intro _ agent hconfigured other hother
      rw [hconfigured.memory, Option.some.injEq] at hother
      subst hother
      rfl

theorem ensureConfigured_coherent [DecidableEq β] {codec : Codec β} {platform : Platform}
    {first second : Fault String} {enabled : Bool} {rate : Option ℕ} :
    Triple Agent.Coherent (ensureConfigured codec platform first second enabled rate)
      (fun _ => Agent.Coherent) (fun _ => Agent.Coherent) Agent.Coherent := by
  unfold ensureConfigured
  refine Triple.bind (Triple.get.post (fun _ _ hs => hs.2)) fun agent => ?_
  split
  · split
    · exact fun _ hs => hs
    · exact Triple.bind initializeWithPolicy_coherent fun _ => configure_coherent
  · exact configure_coherent

/-! ### Runs -/

/-- What holds in every state of a run. -/
structure System.Inv (s : System β) : Prop where
  coherent : s.agent.Coherent
  closed : ∀ i generation, s.generations i = some generation → generation.controller.Closed
  releases : ∀ release ∈ s.releases, release.required = true → release.answered = false →
    Opened release.lastValid

namespace System

variable {s s' : System β}

theorem inv_fresh (dir : Durable β) : (fresh dir).Inv where
  coherent := by
    intro budget hbudget
    cases hbudget
  closed := by
    intro i generation hgeneration
    cases hgeneration
  releases := fun _ hrelease => absurd hrelease List.not_mem_nil

theorem Inv.act (h : s.Inv) {work : Work β Unit}
    (hwork : Triple Agent.Coherent work (fun _ => Agent.Coherent) (fun _ => Agent.Coherent)
      Agent.Coherent) : (s.act work).Inv := by
  have hend := hwork s.agent h.coherent
  unfold System.act
  rcases hrun : work s.agent with ⟨⟨error⟩ | u, agent⟩
  · rw [hrun] at hend
    cases error with
    | failed error => exact ⟨hend, h.closed, h.releases⟩
    | crashed =>
      refine ⟨?_, h.closed, h.releases⟩
      intro budget hbudget
      cases hbudget
  · rw [hrun] at hend
    exact ⟨hend, h.closed, h.releases⟩

theorem Inv.setWaiter (h : s.Inv) {i : ℕ} {generation : Generation}
    (hclosed : generation.controller.Closed) (j : ℕ) (waiter : Waiter) :
    (s.setWaiter i generation j waiter).Inv := by
  refine ⟨h.coherent, fun k other hother => ?_, h.releases⟩
  have hcases : (if k = i then some { generation with
      waiters := fun l => if l = j then waiter else generation.waiters l }
    else s.generations k) = some other := hother
  by_cases hk : k = i
  · rw [if_pos hk, Option.some.injEq] at hcases
    rw [← hcases]
    exact hclosed
  · rw [if_neg hk] at hcases
    exact h.closed k other hcases

theorem Inv.release (h : s.Inv) {i : ℕ} {c : Controller} {amount : ℕ} {answered : Bool}
    (hopened : c.required = true → answered = false → Opened c.lastValid) :
    (s.release i c amount answered).Inv := by
  refine ⟨h.coherent, h.closed, fun release hrelease => ?_⟩
  rcases List.mem_cons.mp hrelease with rfl | hold
  · exact hopened
  · exact h.releases release hold

theorem Inv.load {codec : Codec β} {i j : ℕ} {readable : Bool} (h : s.Inv)
    (hload : s.load codec i j readable = some s') : s'.Inv := by
  obtain ⟨generation, hgeneration, hload⟩ := Option.bind_eq_some_iff.mp hload
  obtain ⟨⟨c, waiter, passed⟩, hwaiter, hload⟩ := Option.bind_eq_some_iff.mp hload
  obtain ⟨hclosed, hrequired, hopened⟩ :=
    Waiter.load_closed (h.closed i generation hgeneration) hwaiter
  have hset : (s.setWaiter i { generation with controller := c } j waiter).Inv :=
    h.setWaiter hclosed j waiter
  cases passed with
  | none =>
    cases hload
    exact hset
  | some amount =>
    cases hload
    exact hset.release fun hr _ => hopened (hrequired.symm.trans hr) rfl

theorem Inv.receive {i j : ℕ} {line : Option String} (h : s.Inv)
    (hreceive : s.receive i j line = some s') : s'.Inv := by
  obtain ⟨generation, hgeneration, hreceive⟩ := Option.bind_eq_some_iff.mp hreceive
  have hclosed := h.closed i generation hgeneration
  split at hreceive
  · split at hreceive
    · cases hreceive
      exact h
    · split at hreceive
      · cases hreceive
        refine (h.setWaiter hclosed j _).release fun _ hanswered => ?_
        cases hanswered
      · cases hreceive
        exact h.setWaiter hclosed j _
  · cases hreceive

theorem Inv.step [DecidableEq β] {codec : Codec β} {happening : Happening β} (h : s.Inv)
    (hstep : s.step codec happening = some s') : s'.Inv := by
  cases happening with
  | tick elapsed =>
    cases hstep
    exact ⟨h.coherent, h.closed, h.releases⟩
  | control file =>
    cases hstep
    exact ⟨h.coherent, h.closed, h.releases⟩
  | desired file =>
    cases hstep
    exact ⟨h.coherent, h.closed, h.releases⟩
  | agentStarts platform fault =>
    cases hstep
    exact h.act initializeWithPolicy_coherent
  | ensureConfigured platform first second enabled rate =>
    cases hstep
    exact h.act ensureConfigured_coherent
  | configure fault enabled rate =>
    cases hstep
    exact h.act configure_coherent
  | agentExits =>
    cases hstep
    refine ⟨?_, h.closed, h.releases⟩
    intro budget hbudget
    cases hbudget
  | generationStarts i required =>
    cases hstep
    refine ⟨h.coherent, fun k generation hgeneration => ?_, h.releases⟩
    have hcases : (if k = i then some (_ : Generation) else s.generations k) = some generation :=
      hgeneration
    by_cases hk : k = i
    · rw [if_pos hk, Option.some.injEq] at hcases
      rw [← hcases]
      exact Controller.closed_new required
    · rw [if_neg hk] at hcases
      exact h.closed k generation hcases
  | wait i j n =>
    obtain ⟨generation, hgeneration, hstep⟩ := Option.bind_eq_some_iff.mp hstep
    split at hstep
    · cases hstep
      exact h.setWaiter (h.closed i generation hgeneration) j _
    · cases hstep
  | load i j readable => exact h.load hstep
  | send i j sent =>
    obtain ⟨generation, hgeneration, hstep⟩ := Option.bind_eq_some_iff.mp hstep
    split at hstep
    · cases hstep
      exact h.setWaiter (h.closed i generation hgeneration) j _
    · cases hstep
  | receive i j line => exact h.receive hstep
  | giveUp i j =>
    obtain ⟨generation, hgeneration, hstep⟩ := Option.bind_eq_some_iff.mp hstep
    cases hstep
    exact h.setWaiter (h.closed i generation hgeneration) j _

theorem Inv.run [DecidableEq β] {codec : Codec β} {happenings : List (Happening β)} (h : s.Inv)
    (hrun : happenings.foldlM (System.step codec) s = some s') : s'.Inv := by
  induction happenings generalizing s with
  | nil =>
    cases hrun
    exact h
  | cons happening happenings ih =>
    obtain ⟨m, hstep, hrest⟩ := Option.bind_eq_some_iff.mp hrun
    exact ih (h.step hstep) hrest

end System

/-! ### Starting without a cap -/

/-- The files say that no cap was in force: by a control that lets bytes pass, or, where there is
no control, by a policy that caps no application, or by there being no policy. -/
inductive ProvesNoCap (codec : Codec β) (dir : Durable β) : Prop
  | control (bytes : β) (control : ApplicationControl) (hfile : dir.control = .holds bytes)
      (hread : codec.control bytes = some control) (hvalid : validControl control = true)
      (hinactive : inactive control = true)
  | policy (bytes : β) (desired : DesiredPolicy) (hmissing : dir.control = .missing)
      (hfile : dir.desired = .holds bytes) (hread : codec.desired bytes = some desired)
      (hcap : (desired.enabled && desired.layer.coversApplication) = false)
  | neither (hcontrol : dir.control = .missing) (hdesired : dir.desired = .missing)

theorem provesNoCap_of_not_required {codec : Codec β} {dir : Durable β}
    (h : requiredAtStart codec dir = false) : ProvesNoCap codec dir := by
  unfold requiredAtStart at h
  cases hcontrol : dir.control with
  | unreadable error =>
    rw [hcontrol] at h
    cases h
  | holds bytes =>
    simp only [hcontrol, File.read] at h
    cases hcodec : codec.control bytes with
    | none =>
      rw [hcodec] at h
      cases h
    | some control =>
      rw [hcodec] at h
      simp only [Bool.or_eq_false_iff, Bool.not_eq_false'] at h
      exact .control bytes control hcontrol hcodec h.1 h.2
  | missing =>
    simp only [hcontrol, File.read] at h
    cases hdesired : dir.desired with
    | missing => exact .neither hcontrol hdesired
    | unreadable error =>
      rw [hdesired] at h
      cases h
    | holds bytes =>
      simp only [hdesired] at h
      cases hcodec : codec.desired bytes with
      | none =>
        rw [hcodec] at h
        cases h
      | some desired =>
        rw [hcodec] at h
        exact .policy bytes desired hcontrol hdesired hcodec h

/-- **The cap fails closed.**  In every run of the Agent, of any generations of Xray and of all
that befalls their files, nothing passes a required budget without its answer but by the last
file that could be used; a change of the cap leaves memory and file alike, or the memory as it
was; and a new Xray goes without the budget only by what the files say. -/
theorem cap_fails_closed [DecidableEq β] (codec : Codec β) (dir : Durable β)
    (happenings : List (Happening β)) (s : System β)
    (hrun : happenings.foldlM (System.step codec) (System.fresh dir) = some s) :
    (∀ release ∈ s.releases, release.required = true → release.answered = false →
        Opened release.lastValid)
      ∧ (∀ budget fault enabled rate, s.agent.budget = some budget →
        match configure codec fault enabled rate s.agent with
        | (.ok (), agent) => Configured codec budget enabled rate agent
        | (.error (.failed _), agent) => agent.budget = some budget
        | (.error .crashed, _) => True)
      ∧ (requiredAtStart codec s.agent.dir = false → ProvesNoCap codec s.agent.dir) := by
  have hinv := (System.inv_fresh dir).run hrun
  refine ⟨hinv.releases, fun budget fault enabled rate hbudget => ?_, provesNoCap_of_not_required⟩
  have hconfigure : Triple (fun agent : Agent β => agent = s.agent)
      (configure codec fault enabled rate) (fun _ => Configured codec budget enabled rate)
      (fun _ agent => agent.budget = some budget) fun _ => True := by
    unfold configure
    refine Triple.bind Triple.get fun a => Triple.assume fun agent hagent => ?_
    obtain ⟨rfl, rfl⟩ := hagent
    rw [hbudget]
    refine (configureBudget_keeps (hinv.coherent budget hbudget) enabled rate).weaken ?_
      (fun _ _ hs => hs) (fun _ _ hs => hs) fun _ _ => trivial
    rintro agent rfl
    exact hbudget
  have hend := hconfigure s.agent rfl
  revert hend
  rcases configure codec fault enabled rate s.agent with ⟨⟨error⟩ | u, agent⟩
  · cases error with
    | failed error => exact id
    | crashed => exact id
  · exact id

/-- Files that are a control or damaged. -/
def plainCodec : Codec (Option ApplicationControl) where
  encode := some
  control := id
  config := id
  desired := fun _ => none
  control_encode := fun _ => rfl
  config_encode := fun _ => rfl

def loopback : Platform where
  endpoint := .ok "127.0.0.1:1024"
  entropy := .ok "0123456789abcdef0123456789abcdef"
  worker := .ok ()

/-- A cap is set, bytes pass through the budget, and the file is damaged. -/
def damagedRun : List (Happening (Option ApplicationControl)) :=
  [.ensureConfigured loopback .none .none true (some 80000), .generationStarts 1 true,
    .wait 1 0 100, .load 1 0 true, .load 1 0 true, .send 1 0 true, .receive 1 0 (some "OK 80000\n"),
    .load 1 0 true, .control (.holds none), .tick 300000000, .wait 1 0 100, .load 1 0 true]

theorem cap_fails_closed_damaged : ∃ s : System (Option ApplicationControl),
    s.releases.map (fun release => (release.amount, release.answered)) = [(100, true)]
      ∧ (∀ release ∈ s.releases, release.required = true → release.answered = false →
        Opened release.lastValid)
      ∧ (requiredAtStart plainCodec s.agent.dir = false → ProvesNoCap plainCodec s.agent.dir) := by
  have hreleases : (damagedRun.foldlM (System.step plainCodec)
      (System.fresh { control := .missing, desired := .missing })).map
        (fun s => s.releases.map fun release => (release.amount, release.answered))
      = some [(100, true)] := by
    decide +kernel
  obtain ⟨s, hrun, hs⟩ := Option.map_eq_some_iff.mp hreleases
  have hclosed := cap_fails_closed plainCodec { control := .missing, desired := .missing }
    damagedRun s hrun
  exact ⟨s, hs, hclosed.1, hclosed.2.2⟩

end Brocade.MachineLimit
