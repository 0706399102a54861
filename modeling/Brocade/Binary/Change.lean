/-
What a transaction can do to a release.

`Change` has one case for each thing that can happen to a release, with everything the
transaction looked at before.  A transaction leaves every release as it is or makes one of these
changes to it, and may add a new one.  What follows about the ledger is read off the cases.
-/
import Brocade.Binary.Ledger
import Brocade.Lib.Fallible

namespace Brocade.Binary

/-- What a report says that is accepted for a target. -/
structure Accepted (r : Release) (t : Target) (report : ExecutionReport) (desired : String)
    (verdict : Verdict) : Prop where
  component : report.component = r.component
  releaseId : report.releaseId = r.id
  attempt : report.attempt = t.attempt
  judged : ∃ a runtime now error, judge report t a desired runtime now error = .ok verdict
  claimed : t.desired = some desired
  /-- The target is under way, recovers, or was canceled under way. -/
  open_ : r.active = true ∧ (Unfinished t.status = true
      ∨ recoveringAfterDirty r t report = true ∧ verdict.status = .succeeded)
    ∨ late r t = true

/-- The same release with other rows. -/
structure Same (r r' : Release) : Prop where
  id : r'.id = r.id
  component : r'.component = r.component
  artifacts : r'.artifacts = r.artifacts

/-- A row of a node is replaced. -/
def Replaced (r : Release) (node : String) (f : Target → Target) : List Target :=
  r.targets.map fun t => if t.nodeId = node then f t else t

/-- The row of a target that was judged. -/
def settledRow (report : ExecutionReport) (verdict : Verdict) (now : ℤ) (t : Target) : Target :=
  { t with
    status := verdict.status
    error := verdict.error
    reportedPerformedUpdate := some report.performed
    reportedServiceEnabled := report.serviceEnabled
    reportedInstalled := report.installed
    reportedRunning := report.running
    reportedForcedRetirement := some report.forcedRetirement
    verification := some verdict.verification
    finishedAt := some now }

/-- Only the outcome of a target is written down. -/
def Recorded (r : Release) (t : Target) (row : Target → Target) (r' : Release) : Prop :=
  ∃ (outcome : Attempt → Attempt) (events : List Event), r' = { r with
    targets := Replaced r t.nodeId row
    attempts := r.attempts.map fun a => if ownAttempt t a then outcome a else a
    events := r.events ++ events }

/-- What a transaction may make of a release. -/
inductive Change : Transaction → Release → Release → Prop
  | dispatched {component node arch buildId receiptCapable now r r' t artifact}
      (dispatchedAt : Target → Option ℤ) (hrunning : r.status = .running)
      (htarget : r.target node = some t)
      (hunfinished : Unfinished t.status = true)
      (hartifact : r.artifacts.find? (fun a => a.arch = arch) = some artifact)
      (hsame : Same r r') (hstatus : r'.status = .running)
      (htargets : r'.targets = Replaced r node fun t =>
        { t with
          status := .dispatched
          arch := some artifact.arch
          desired := some artifact.sha256
          dispatchedAt := dispatchedAt t }) :
      Change (.claim component node arch buildId receiptCapable now) r r'
  | unsupported {component node arch buildId receiptCapable now r r' t}
      (error : Option String) (hrunning : r.status = .running) (htarget : r.target node = some t)
      (hunfinished : Unfinished t.status = true)
      (hsame : Same r r') (hstatus : r'.status = .halted)
      (htargets : r'.targets = Replaced r node fun t =>
        { t with
          status := .unsupported
          arch := some arch
          error := error
          finishedAt := some now }) :
      Change (.claim component node arch buildId receiptCapable now) r r'
  | settled {node report runtime now r r' desired verdict} (t : Target)
      (htarget : r.target node = some t) (haccepted : Accepted r t report desired verdict)
      (hsame : Same r r')
      (htargets : r'.targets = Replaced r node (settledRow report verdict now))
      (hlate : late r t = true → Recorded r t (settledRow report verdict now) r')
      (hstatus : if late r t = true then r'.status = r.status
        else if r'.targets.all (fun t => t.status = .succeeded) = true then
          r'.status = .succeeded
        else if verdict.status ≠ .succeeded then r'.status = .halted
        else r'.status = r.status) :
      Change (.report node report runtime now) r r'
  | retried {component actor id node buildId upgrade now r r' t}
      (hid : r.id = id) (hactive : r.active = true) (htarget : r.target node = some t)
      (hretryable : retryable r t upgrade now = true)
      (hsame : Same r r') (hstatus : r'.status = .running)
      (htargets : r'.targets = Replaced r node Target.retry) :
      Change (.retry component actor id node buildId upgrade now) r r'
  | canceled {tx r r' now} (hactive : r.active = true)
      (htx : (∃ component actor, tx = .cancel component actor r.id now)
        ∨ ∃ node actor, tx = .nodeLifecycle node actor now)
      (hsame : Same r r') (hstatus : r'.status = .canceled)
      (htargets : r'.targets = r.targets.map fun t =>
        if Unfinished t.status = true then { t with status := .canceled, finishedAt := some now }
        else t) :
      Change tx r r'

/-- A release that was just created. -/
structure Fresh (l : Ledger) (r : Release) : Prop where
  id : r.id = l.nextId
  status : r.status = .running
  single : ∀ s ∈ l.releases, s.component = r.component → s.active = false
  nonempty : r.targets ≠ []
  nodes : (r.targets.map (·.nodeId)).Nodup
  pending : ∀ t ∈ r.targets, t.status = .pending ∧ t.desired = none

/-- Every release is kept or changed, and at most one is added. -/
def Evolves (tx : Transaction) (l l' : Ledger) : Prop :=
  (l'.nextId = l.nextId ∧ ∃ f : Release → Release, l'.releases = l.releases.map f
      ∧ ∀ r ∈ l.releases, f r = r ∨ Change tx r (f r))
    ∨ (l'.nextId = l.nextId + 1 ∧ ∃ r, l'.releases = l.releases ++ [r] ∧ Fresh l r)

theorem Evolves.refl (tx : Transaction) (l : Ledger) : Evolves tx l l :=
  .inl ⟨rfl, id, by simp, fun _ _ => .inl rfl⟩

theorem Evolves.update {tx : Transaction} {l : Ledger} {r r' : Release}
    (hids : (l.releases.map (·.id)).Nodup) (hr : r ∈ l.releases) (hid : r'.id = r.id)
    (hchange : Change tx r r') : Evolves tx l (l.update r') := by
  refine .inl ⟨rfl, fun s => if s.id = r'.id then r' else s, rfl, fun s hs => ?_⟩
  dsimp only
  split
  next hsame =>
    have heq : s = r := List.inj_on_of_nodup_map hids hs hr (hsame.trans hid)
    rw [heq]
    exact .inr hchange
  next => exact .inl rfl

theorem mem_of_lockRelease {l : Ledger} {component : BinaryComponent} {id : ℤ} {r : Release}
    (h : l.lockRelease component id = .ok r) :
    r ∈ l.releases ∧ r.id = id ∧ r.component = component := by
  unfold Ledger.lockRelease at h
  split at h
  · cases h
  · next s hs =>
    injection h with h
    subst h
    have hfound := List.find?_some hs
    exact ⟨List.mem_of_find?_eq_some hs, by simpa using hfound⟩

theorem target_node {r : Release} {node : String} {t : Target} (h : r.target node = some t) :
    t.nodeId = node := by
  simpa using List.find?_some h

/-! ### The transactions -/

section
variable {l : Ledger}

variable {component : BinaryComponent} {node : String} {now id : ℤ} {l' : Ledger} {r : Release}
    {report : ExecutionReport} {runtime : Option AgentRuntime} {answer : Bool} {actor : Actor}
    {build : BinaryBuildInfo} {state : String → Option NodeState}

theorem claim_evolves (hids : (l.releases.map (·.id)).Nodup) {arch buildId : String}
    {receiptCapable : Bool} {answer : Option BinaryReleaseAssignment}
    (h : claimBinaryRelease l component node arch buildId receiptCapable now = .ok (l', answer)) :
    Evolves (.claim component node arch buildId receiptCapable now) l l' := by
  unfold claimBinaryRelease at h
  split at h
  · cases h
  split at h
  · injection h with h
    injection h with hl
    exact hl ▸ .refl _ l
  next r hr =>
    have hmem : r ∈ l.releases := List.mem_reverse.mp (List.mem_of_find?_eq_some hr)
    have hclaimant := List.find?_some hr
    have hrunning : r.status = .running := by
      simp only [Release.claimant, Bool.and_eq_true, decide_eq_true_eq] at hclaimant
      exact hclaimant.1.1
    split at h
    · injection h with h
      injection h with hl
      exact hl ▸ .refl _ l
    next t ht =>
      obtain ⟨htarget, hunfinished⟩ := Option.filter_eq_some_iff.mp ht
      have hnode := target_node htarget
      split at h
      · injection h with h
        injection h with hl
        exact hl ▸ .refl _ l
      injection h with h
      have hmark : Evolves (.claim component node arch buildId receiptCapable now) l
          (l.update (r.markUnsupportedArch t arch now)) := by
        refine .update hids hmem rfl (.unsupported
          (some s!"Console carries no released binary for architecture {arch}")
          hrunning htarget hunfinished ⟨rfl, rfl, rfl⟩ rfl ?_)
        rw [← hnode]
        rfl
      unfold claimTarget at h
      split at h
      · injection h with hl
        exact hl ▸ hmark
      next artifact hartifact =>
        split at h
        · injection h with hl
          exact hl ▸ hmark
        · injection h with hl
          rw [← hl]
          refine .update hids hmem rfl (.dispatched (fun t => t.dispatchedAt.or (some now))
            hrunning htarget hunfinished hartifact ⟨rfl, rfl, rfl⟩ hrunning ?_)
          rw [← hnode]
          rfl

theorem conclude_fields (r : Release) (verdict : Verdict) (now : ℤ) :
    Same r (r.conclude verdict now) ∧ (r.conclude verdict now).targets = r.targets
      ∧ (r.conclude verdict now).status
        = if r.targets.all (fun t => t.status = .succeeded) = true then .succeeded
          else if verdict.status ≠ .succeeded then .halted else r.status := by
  unfold Release.conclude
  split
  · exact ⟨⟨rfl, rfl, rfl⟩, rfl, rfl⟩
  · split
    · exact ⟨⟨rfl, rfl, rfl⟩, rfl, rfl⟩
    · exact ⟨⟨rfl, rfl, rfl⟩, rfl, rfl⟩

theorem settle_fields (r : Release) (t : Target) (report : ExecutionReport) (verdict : Verdict)
    (now : ℤ) (noted : List Event) (kind : String) : Recorded r t (settledRow report verdict now)
      (({ r with events := r.events ++ noted }.settle t report verdict now).insertEvent kind
        (some t.nodeId) none) := by
  refine ⟨fun a =>
    { a with
      status := verdict.status
      error := verdict.error
      verification := some verdict.verification
      evidence := some report
      finishedAt := some now }, noted ++ [⟨kind, some t.nodeId, none⟩], ?_⟩
  rw [← List.append_assoc]
  rfl

theorem settled_change {s : Release} {t : Target} {desired : String} {verdict : Verdict}
    (htarget : r.target node = some t) (haccepted : Accepted r t report desired verdict) (now : ℤ)
    (hs : Recorded r t (settledRow report verdict now) s) :
    Change (.report node report runtime now) r
      (if late r t then s else s.conclude verdict now) := by
  obtain ⟨outcome, events, hs⟩ := hs
  have hnode := target_node htarget
  split
  next hlate =>
    refine .settled t htarget haccepted (hs ▸ ⟨rfl, rfl, rfl⟩) (by rw [hs, ← hnode])
      (fun _ => ⟨outcome, events, hs⟩) ?_
    rw [if_pos hlate, hs]
  next hlate =>
    obtain ⟨hkept, hrows, hend⟩ := conclude_fields s verdict now
    refine .settled t htarget haccepted ⟨by rw [hkept.id, hs], by rw [hkept.component, hs],
      by rw [hkept.artifacts, hs]⟩ (by rw [hrows, hs, ← hnode]) (fun h => absurd h hlate) ?_
    have hstatus : s.status = r.status := by rw [hs]
    rw [if_neg hlate, hend, hrows, hstatus]
    split
    · rfl
    · split
      · rfl
      · rfl

theorem settleTarget_ok {t : Target} {a : Attempt} {error : Option String}
    (htarget : r.target node = some t) (hcomponent : report.component = r.component)
    (hid : report.releaseId = r.id) (hattempt : report.attempt = t.attempt)
    (hopen : r.active = true ∧ (Unfinished t.status = true
      ∨ recoveringAfterDirty r t report = true) ∨ late r t = true)
    (h : settleTarget l r t a report runtime now error = .ok (l', answer)) :
    ∃ r', l' = l.update r' ∧ Change (.report node report runtime now) r r' := by
  unfold settleTarget at h
  split at h
  · cases h
  next desired hdesired =>
    split at h
    · cases h
    next verdict hverdict =>
      split at h
      · cases h
      next hproved =>
        injection h with h
        injection h with hl
        refine ⟨_, hl.symm, ?_⟩
        have haccepted : Accepted r t report desired verdict := by
          refine ⟨hcomponent, hid, hattempt, ⟨a, runtime, now, error, hverdict⟩, hdesired, ?_⟩
          refine hopen.imp_left fun hact => ⟨hact.1, ?_⟩
          by_cases hrecovering : recoveringAfterDirty r t report = true
          · exact .inr ⟨hrecovering, not_not.mp fun hne => hproved ⟨hrecovering, hne⟩⟩
          · exact .inl (hact.2.resolve_right hrecovering)
        have hnoted : ∃ noted, (if recoveringAfterDirty r t report then
              r.insertEvent "target-recovered-after-dirty" (some t.nodeId) none
            else r) = { r with events := r.events ++ noted } := by
          split
          · exact ⟨_, rfl⟩
          · exact ⟨[], by rw [List.append_nil]⟩
        obtain ⟨noted, hnoted⟩ := hnoted
        have hlate : late { r with events := r.events ++ noted } t = late r t := rfl
        rw [hnoted, hlate]
        exact settled_change htarget haccepted now (settle_fields r t report verdict now noted _)

theorem settleReport_ok (h : settleReport l node report runtime now = .ok (l', answer)) :
    l' = l ∨ ∃ r ∈ l.releases, ∃ r', l' = l.update r'
      ∧ Change (.report node report runtime now) r r' := by
  have hkeep (answer' : Bool)
      (hh : (Except.ok (l, answer') : Except StoreError (Ledger × Bool)) = .ok (l', answer)) :
      l' = l := by
    injection hh with hh
    injection hh with hl
    exact hl.symm
  unfold settleReport at h
  split at h
  · cases h
  split at h
  · cases h
  next error _ =>
    split at h
    · cases h
    next r hr =>
      obtain ⟨hmem, hid, hcomponent⟩ := mem_of_lockRelease hr
      split at h
      · cases h
      split at h
      · cases h
      next t a hrow =>
        obtain ⟨t', htarget, hrow⟩ := Option.bind_eq_some_iff.mp hrow
        obtain ⟨a', _, hpair⟩ := Option.map_eq_some_iff.mp hrow
        injection hpair with ht _
        subst ht
        split at h
        · exact .inl (hkeep _ h)
        next hattempt =>
          split at h
          · exact .inl (hkeep _ h)
          next hopen =>
            split at h
            · exact .inl (hkeep _ h)
            next hunsettled =>
              have hcounts : r.active = true ∧ (Unfinished t'.status = true
                  ∨ recoveringAfterDirty r t' report = true) ∨ late r t' = true := by
                by_cases hactive : r.active = true
                · refine .inl ⟨hactive, ?_⟩
                  by_contra hneither
                  rw [not_or, Bool.not_eq_true, Bool.not_eq_true] at hneither
                  exact hunsettled (by simp [hactive, hneither.1, hneither.2])
                · refine .inr ?_
                  rw [Bool.not_eq_true] at hactive
                  simpa [hactive] using hopen
              obtain ⟨r', hl, hchange⟩ := settleTarget_ok htarget hcomponent.symm hid.symm
                (not_not.mp hattempt).symm hcounts h
              exact .inr ⟨r, hmem, r', hl, hchange⟩

theorem Change.same {tx : Transaction} {r' : Release} (h : Change tx r r') : Same r r' := by
  cases h with
  | dispatched _ _ _ _ _ hsame _ _ => exact hsame
  | unsupported _ _ _ _ hsame _ _ => exact hsame
  | settled _ _ _ hsame _ _ _ => exact hsame
  | retried _ _ _ _ hsame _ _ => exact hsame
  | canceled _ _ hsame _ _ => exact hsame

theorem report_evolves (hids : (l.releases.map (·.id)).Nodup)
    (h : settleReport l node report runtime now = .ok (l', answer)) :
    Evolves (.report node report runtime now) l l' := by
  rcases settleReport_ok h with hl | ⟨r, hmem, r', hl, hchange⟩
  · rw [hl]
    exact .refl _ l
  · exact hl ▸ .update hids hmem hchange.same.id hchange

theorem retry_evolves (hids : (l.releases.map (·.id)).Nodup) {buildId : String}
    {upgrade : Option (ℤ × ℕ)} {answer : ℤ}
    (h : retryBinaryReleaseTarget l component actor id node buildId upgrade now
      = .ok (l', answer)) : Evolves (.retry component actor id node buildId upgrade now) l l' := by
  unfold retryBinaryReleaseTarget at h
  obtain ⟨_, _, h⟩ := Fallible.bind_eq_ok.mp h
  obtain ⟨r, hr, h⟩ := Fallible.bind_eq_ok.mp h
  obtain ⟨_, hactionable, h⟩ := Fallible.bind_eq_ok.mp h
  obtain ⟨hmem, hid, _⟩ := mem_of_lockRelease hr
  have hactive : r.active = true := by
    unfold ensureActionableRelease at hactionable
    split at hactionable
    · cases hactionable
    next hactive => simpa using hactive
  split at h
  · cases h
  next t htarget =>
    split at h
    next hretryable =>
      injection h with h
      injection h with hl
      have hnode := target_node htarget
      refine hl ▸ .update hids hmem rfl (.retried hid hactive htarget hretryable
        ⟨rfl, rfl, rfl⟩ rfl ?_)
      rw [← hnode]
      rfl
    next =>
      split at h <;> cases h

theorem cancel_evolves (hids : (l.releases.map (·.id)).Nodup) {answer : ℤ}
    (h : cancelBinaryRelease l component actor id now = .ok (l', answer)) :
    Evolves (.cancel component actor id now) l l' := by
  unfold cancelBinaryRelease at h
  obtain ⟨_, _, h⟩ := Fallible.bind_eq_ok.mp h
  obtain ⟨r, hr, h⟩ := Fallible.bind_eq_ok.mp h
  obtain ⟨hmem, hid, _⟩ := mem_of_lockRelease hr
  split at h
  · cases h
  next hactive =>
    injection h with h
    injection h with hl
    exact hl ▸ .update hids hmem rfl (.canceled (by simpa using hactive)
      (.inl ⟨component, actor, by rw [hid]⟩) ⟨rfl, rfl, rfl⟩ rfl rfl)

theorem lifecycle_evolves (node actor : String) (now : ℤ) :
    Evolves (.nodeLifecycle node actor now) l (cancelForNodeLifecycle l node actor now).1 := by
  refine .inl ⟨rfl, _, rfl, fun r _ => ?_⟩
  split
  next hleaves =>
    rw [Bool.and_eq_true] at hleaves
    exact .inr (.canceled hleaves.1 (.inr ⟨node, actor, rfl⟩) ⟨rfl, rfl, rfl⟩ rfl rfl)
  next => exact .inl rfl

/-! ### Creation -/

theorem approve_nodes {request : CreateBinaryReleaseRequest} {approval : Approval}
    (h : approve actor request build = .ok approval) :
    approval.nodes ≠ [] ∧ approval.nodes.Nodup := by
  unfold approve at h
  obtain ⟨_, _, h⟩ := Fallible.bind_eq_ok.mp h
  obtain ⟨_, _, h⟩ := Fallible.bind_eq_ok.mp h
  obtain ⟨settings, _, h⟩ := Fallible.bind_eq_ok.mp h
  dsimp only at h
  split at h
  · cases h
  split at h
  · cases h
  next hnonempty =>
    split at h
    · cases h
    obtain ⟨note, _, h⟩ := Fallible.bind_eq_ok.mp h
    split at h
    · cases h
    · injection h with h
      rw [← h]
      exact ⟨by simpa using hnonempty, OrdMap.nodup_keySet _⟩

theorem map_fst_of_mapM {α β : Type} {f : String × α → Except StoreError (String × β)}
    (hf : ∀ e e', f e = .ok e' → e'.1 = e.1) :
    ∀ {es : List (String × α)} {es' : List (String × β)}, es.mapM f = .ok es' →
      es'.map Prod.fst = es.map Prod.fst := by
  intro es
  induction es with
  | nil =>
    intro es' h
    rw [List.mapM_nil] at h
    injection h with h
    rw [← h]
    rfl
  | cons e rest ih =>
    intro es' h
    rw [List.mapM_cons] at h
    obtain ⟨e', he, h⟩ := Fallible.bind_eq_ok.mp h
    obtain ⟨rest', hrest, h⟩ := Fallible.bind_eq_ok.mp h
    injection h with h
    rw [← h, List.map_cons, List.map_cons, ih hrest, hf e e' he]

theorem map_fst_of_found : ∀ {nodes : List String}, (∀ node ∈ nodes, (state node).isSome = true) →
      (nodes.filterMap fun node => (state node).map fun s => (node, s)).map Prod.fst = nodes := by
  intro nodes
  induction nodes with
  | nil => simp
  | cons node rest ih =>
    intro hall
    obtain ⟨s, hs⟩ := Option.isSome_iff_exists.mp (hall node List.mem_cons_self)
    rw [List.filterMap_cons_some (by rw [hs]; rfl), List.map_cons,
      ih fun n hn => hall n (List.mem_cons_of_mem _ hn)]

theorem observeTargets_nodes {approval : Approval} {targets : List (String × String)}
    (h : observeTargets approval build state = .ok targets) :
    targets.map Prod.fst = approval.nodes := by
  unfold observeTargets at h
  dsimp only at h
  obtain ⟨observations, hobservations, h⟩ := Fallible.bind_eq_ok.mp h
  split at h
  · cases h
  next hmissing =>
    rw [map_fst_of_mapM ?_ h, map_fst_of_mapM ?_ hobservations]
    · refine map_fst_of_found fun node hnode => ?_
      by_contra hnone
      refine hmissing ?_
      have hmem : node ∈ approval.nodes.filter fun node => (state node).isNone :=
        List.mem_filter.mpr ⟨hnode, by simpa using hnone⟩
      simpa using List.ne_nil_of_mem hmem
    · intro e e' he
      obtain ⟨_, _, he⟩ := Fallible.bind_eq_ok.mp he
      injection he with he
      rw [← he]
    · intro e e' he
      obtain ⟨_, _, he⟩ := Fallible.bind_eq_ok.mp he
      injection he with he
      rw [← he]

theorem create_evolves {request : CreateBinaryReleaseRequest} {handoffBeta : Bool}
    (h : createBinaryRelease l actor request build handoffBeta state = .ok (l', id)) :
    Evolves (.create actor request build handoffBeta state) l l' := by
  unfold createBinaryRelease at h
  obtain ⟨approval, happroval, h⟩ := Fallible.bind_eq_ok.mp h
  obtain ⟨hnonempty, hnodup⟩ := approve_nodes happroval
  split at h
  next existing _ =>
    split at h
    · injection h with h
      injection h with hl
      exact hl ▸ .refl _ l
    · cases h
  next =>
    split at h
    · cases h
    split at h
    · cases h
    next hactive =>
      obtain ⟨targets, htargets, h⟩ := Fallible.bind_eq_ok.mp h
      injection h with h
      injection h with hl
      have hnodes := observeTargets_nodes htargets
      refine .inr ⟨by rw [← hl], newRelease l.nextId approval actor targets, by rw [← hl], ?_⟩
      have hrows : (newRelease l.nextId approval actor targets).targets.map (·.nodeId)
          = approval.nodes := by
        rw [← hnodes]
        simp [newRelease, newTarget, Function.comp_def]
      refine ⟨rfl, rfl, fun s hs hcomponent => ?_, fun hempty => ?_, ?_, fun t ht => ?_⟩
      · have := List.find?_eq_none.mp hactive s hs
        by_contra hc
        exact this (by simpa using ⟨by simpa using hc, hcomponent⟩)
      · rw [hempty] at hrows
        exact hnonempty hrows.symm
      · rw [hrows]
        exact hnodup
      · obtain ⟨entry, _, rfl⟩ := List.mem_map.mp ht
        exact ⟨rfl, rfl⟩

theorem step_evolves (hids : (l.releases.map (·.id)).Nodup) (tx : Transaction) :
    Evolves tx l (l.step tx) := by
  unfold Ledger.step
  cases tx with
  | create actor request build handoffBeta state =>
    dsimp only
    split
    next h => exact create_evolves h
    next => exact .refl _ l
  | claim component node arch buildId receiptCapable now =>
    dsimp only
    split
    next h => exact claim_evolves hids h
    next => exact .refl _ l
  | report node report runtime now =>
    dsimp only
    split
    next h => exact report_evolves hids h
    next => exact .refl _ l
  | retry component actor id node buildId upgrade now =>
    dsimp only
    split
    next h => exact retry_evolves hids h
    next => exact .refl _ l
  | cancel component actor id now =>
    dsimp only
    split
    next h => exact cancel_evolves hids h
    next => exact .refl _ l
  | nodeLifecycle node actor now => exact lifecycle_evolves node actor now

end

end Brocade.Binary
