/-
Whether a release can always go on.

A release halts when a target fails, and it runs again when an operator retries one.  A target that
failed with its machine in an unknown state may still prove its success afterwards, and then no
target is left to retry; nothing makes the release run again, and its other targets wait.  A
release is stuck after no other step than this one.
-/
import Brocade.Binary.Verdicts

namespace Brocade.Binary

/-- A status that a retry takes at any time. -/
def Failed (status : BinaryReleaseTargetStatus) : Bool :=
  decide (status = .unverified ∨ status = .failedRecovered ∨ status = .failedDirty
    ∨ status = .unsupported)

/-- The target can move its release forward without a cancellation. -/
def Release.Movable (r : Release) (t : Target) : Prop :=
  t.status = .pending ∧ r.status = .running ∨ t.status = .dispatched ∨ Failed t.status = true

instance (r : Release) (t : Target) : Decidable (r.Movable t) :=
  inferInstanceAs (Decidable (_ ∨ _))

/-- Active, with attempts left, and no target can move it. -/
def Release.Stuck (r : Release) : Prop :=
  r.active = true ∧ (∀ t ∈ r.targets, t.attempt < maxAttempts) ∧ ∀ t ∈ r.targets, ¬ r.Movable t

instance (r : Release) : Decidable r.Stuck := inferInstanceAs (Decidable (_ ∧ _))

/-- What shows that a target was upgraded. -/
def Proves (report : ExecutionReport) (t : Target) (a : Attempt) (desired : String)
    (runtime : Option AgentRuntime) (now : ℤ) : Prop :=
  report.installed = some desired ∧ report.running = some desired ∧ match report with
      | .xray x => x.outcome = .succeeded ∧ x.xrayEnabled = true ∧ x.performedUpdate = true
          ∧ t.before ≠ desired
      | .agent x => x.outcome = .running ∧ confirmedAgent runtime desired t.dispatchedAt now = true
          ∧ (a.receiptCapable = some true → x.performedUpdate = true)

/-- The report is a proper one of the target's current attempt. -/
structure Addressed (l : Ledger) (node : String) (report : ExecutionReport) (r : Release)
    (t : Target) (a : Attempt) : Prop where
  identity : reportIdentityOk report = true
  error : ∃ error, normalizeText report.error maxErrorChars "binary release error" = .ok error
  release : l.lockRelease report.component report.releaseId = .ok r
  strategy : strategyMatches r report = true
  target : r.target node = some t
  row : r.attempts.find? (ownAttempt t) = some a
  attempt : t.attempt = report.attempt

/-- All the other targets have succeeded or wait, and one waits. -/
def Release.OthersWait (r : Release) (node : String) : Prop :=
  (∃ s ∈ r.targets, s.nodeId ≠ node ∧ s.status = .pending)
    ∧ ∀ s ∈ r.targets, s.nodeId ≠ node → s.status = .pending ∨ s.status = .succeeded

/-- A target of a halted release proves its success while all the others wait. -/
def Ledger.Strands (l : Ledger) : Transaction → Prop
  | .report node report runtime now => ∃ r t a desired, Addressed l node report r t a
      ∧ r.status = .halted
      ∧ (Unfinished t.status = true ∨ t.status = .failedDirty ∧ report.component = .xray)
      ∧ t.desired = some desired ∧ Proves report t a desired runtime now
      ∧ r.OthersWait node ∧ ∀ s ∈ r.targets, s.attempt < maxAttempts
  | _ => False

/-! ### What moves a release -/

section
variable {r : Release} {t : Target}

theorem not_movable_iff (hcanceled : t.status ≠ .canceled) :
    ¬ r.Movable t ↔ t.status = .succeeded ∨ t.status = .pending ∧ r.status ≠ .running := by
  unfold Release.Movable
  cases hstatus : t.status with
  | canceled => exact absurd hstatus hcanceled
  | pending => simp [Failed]
  | dispatched => simp [Failed]
  | succeeded => simp [Failed]
  | unverified => simp [Failed]
  | failedRecovered => simp [Failed]
  | failedDirty => simp [Failed]
  | unsupported => simp [Failed]

end

/-! ### Success -/

variable {desired : String} {error : Option String} {tx : Transaction} {r : Release} {l : Ledger}

theorem judgeXray_succeeds_iff {x : XrayReleaseReport} {before : String} :
    (∃ verdict, judgeXray x before desired error = .ok verdict ∧ verdict.status = .succeeded)
      ↔ x.installedSha256 = some desired ∧ x.runningSha256 = some desired
        ∧ x.outcome = .succeeded ∧ x.xrayEnabled = true ∧ x.performedUpdate = true
        ∧ before ≠ desired := by
  unfold judgeXray
  cases houtcome : x.outcome with
  | succeeded =>
    dsimp only
    by_cases hinstalled : x.installedSha256 = some desired
    · by_cases hrunning : x.runningSha256 = some desired
      · rw [if_neg (by simp [hinstalled, hrunning])]
        by_cases hproved : !x.performedUpdate ∨ before = desired ∨ !x.xrayEnabled
            ∨ x.runningSha256 ≠ some desired
        · rw [if_pos hproved]
          simp [hinstalled, hrunning] at hproved ⊢
          intro henabled hperformed
          simpa [henabled, hperformed] using hproved
        · rw [if_neg hproved]
          simp [hinstalled, hrunning] at hproved ⊢
          simp [hproved]
      · by_cases henabled : x.xrayEnabled = true
        · rw [if_pos (.inr ⟨henabled, hrunning⟩)]
          simp [hrunning]
        · rw [if_neg (by simp [hinstalled, henabled]), if_pos (by simp [hrunning])]
          simp [hrunning]
    · rw [if_pos (.inl hinstalled)]
      simp [hinstalled]
  | failedRecovered =>
    dsimp only
    split
    · simp
    · simp
  | failedDirty => simp
  | unsupported => simp

theorem judgeAgent_succeeds_iff {x : AgentReleaseReport} {before : String}
    {receiptCapable : Option Bool} {confirmed : Bool} :
    (∃ verdict, judgeAgent x before desired receiptCapable confirmed error = .ok verdict
        ∧ verdict.status = .succeeded)
      ↔ x.installedSha256 = some desired ∧ x.runningSha256 = some desired
        ∧ x.outcome = .running ∧ confirmed = true
        ∧ (receiptCapable = some true → x.performedUpdate = true) := by
  unfold judgeAgent
  cases houtcome : x.outcome with
  | running =>
    dsimp only
    by_cases hbytes : x.installedSha256 ≠ some desired ∨ x.runningSha256 ≠ some desired
    · rw [if_pos hbytes]
      constructor
      · intro hverdict
        simp at hverdict
      · intro hall
        rcases hbytes with hinstalled | hrunning
        · exact absurd hall.1 hinstalled
        · exact absurd hall.2.1 hrunning
    · rw [if_neg hbytes]
      simp only [not_or, not_not] at hbytes
      cases confirmed with
      | false => simp
      | true =>
        by_cases hreceipt : receiptCapable = some true ∧ ¬ x.performedUpdate
        · simp [hreceipt]
        · rw [if_neg (by simp), if_neg hreceipt]
          simpa [hbytes] using hreceipt
  | failed =>
    dsimp only
    split
    · simp
    · simp

theorem judge_succeeds_iff {report : ExecutionReport} {t : Target} {a : Attempt}
    {runtime : Option AgentRuntime} {now : ℤ} :
    (∃ verdict, judge report t a desired runtime now error = .ok verdict
        ∧ verdict.status = .succeeded)
      ↔ Proves report t a desired runtime now := by
  cases report with
  | xray x => exact judgeXray_succeeds_iff
  | agent x => exact judgeAgent_succeeds_iff

/-! ### What a report does -/

section
variable {l : Ledger} {r : Release} {t : Target} {a : Attempt} {node : String}
  {report : ExecutionReport}

/-- The release after a report was judged. -/
def Release.judged (r : Release) (t : Target) (report : ExecutionReport) (verdict : Verdict)
    (now : ℤ) : Release :=
  let r := if recoveringAfterDirty r t report then
      r.insertEvent "target-recovered-after-dirty" (some t.nodeId) none
    else r
  let settled := (r.settle t report verdict now).insertEvent
    (if late r t then "target-reported-after-cancel" else "target-reported") (some t.nodeId) none
  if late r t then settled else settled.conclude verdict now

theorem judged_fields (report : ExecutionReport) (hlate : late r t = false) (verdict : Verdict) (now : ℤ) :
    (r.judged t report verdict now).id = r.id ∧ (r.judged t report verdict now).targets
        = Replaced r t.nodeId (settledRow report verdict now)
      ∧ (r.judged t report verdict now).status
        = if (r.judged t report verdict now).targets.all (fun t => t.status = .succeeded) then
            .succeeded
          else if verdict.status ≠ .succeeded then .halted else r.status := by
  unfold Release.judged
  have hnoted : ∃ noted, (if recoveringAfterDirty r t report then
        r.insertEvent "target-recovered-after-dirty" (some t.nodeId) none
      else r) = { r with events := r.events ++ noted } := by
    split
    · exact ⟨_, rfl⟩
    · exact ⟨[], by rw [List.append_nil]⟩
  obtain ⟨noted, hnoted⟩ := hnoted
  have hlate' : late { r with events := r.events ++ noted } t = false := hlate
  rw [hnoted]
  simp only [hlate', Bool.false_eq_true, if_false]
  obtain ⟨hsame, hrows, hstatus⟩ := conclude_fields
    (({ r with events := r.events ++ noted }.settle t report verdict now).insertEvent
      "target-reported" (some t.nodeId) none) verdict now
  exact ⟨hsame.id, hrows, by rw [hstatus, hrows]; rfl⟩

theorem settleReport_addressed (haddressed : Addressed l node report r t a)
    (runtime : Option AgentRuntime) (now : ℤ) : ∃ error,
    settleReport l node report runtime now =
      if !r.active && !late r t then .ok (l, false)
      else if r.active && !Unfinished t.status && !recoveringAfterDirty r t report then
        .ok (l, true)
      else settleTarget l r t a report runtime now error := by
  obtain ⟨error, herror⟩ := haddressed.error
  refine ⟨error, ?_⟩
  unfold settleReport
  rw [haddressed.identity, herror]
  simp only [Bool.not_true, Bool.false_eq_true, if_false]
  rw [haddressed.release]
  simp only [haddressed.strategy, Bool.not_true, Bool.false_eq_true, if_false]
  rw [haddressed.target]
  simp [haddressed.row, haddressed.attempt]

variable {runtime : Option AgentRuntime} {now : ℤ} {verdict : Verdict}

theorem addressed_of_settled {l' : Ledger} {answer : Bool}
    (h : settleReport l node report runtime now = .ok (l', answer)) (hne : l' ≠ l) :
    ∃ r t a, Addressed l node report r t a := by
  unfold settleReport at h
  split at h
  · cases h
  next hidentity =>
    split at h
    · cases h
    next error herror =>
      split at h
      · cases h
      next r hr =>
        split at h
        · cases h
        next hstrategy =>
          split at h
          · cases h
          next t a hrow =>
            obtain ⟨t', htarget, hrow⟩ := Option.bind_eq_some_iff.mp hrow
            obtain ⟨a', hattempt, hpair⟩ := Option.map_eq_some_iff.mp hrow
            injection hpair with ht ha
            subst ht ha
            split at h
            · injection h with h
              injection h with hl
              exact absurd hl.symm hne
            next hcurrent =>
              exact ⟨r, t', a', by simpa using hidentity, ⟨error, herror⟩, hr,
                by simpa using hstrategy, htarget, hattempt, not_not.mp hcurrent⟩

theorem settleTarget_eq {error : Option String} {desired : String}
    (hdesired : t.desired = some desired)
    (hjudge : judge report t a desired runtime now error = .ok verdict)
    (hproved : ¬ (recoveringAfterDirty r t report = true ∧ verdict.status ≠ .succeeded)) :
    settleTarget l r t a report runtime now error
      = .ok (l.update (r.judged t report verdict now), true) := by
  unfold settleTarget
  rw [hdesired]
  dsimp only
  rw [hjudge]
  dsimp only
  rw [if_neg hproved]
  rfl

theorem judged_of_settled {error : Option String} {l' : Ledger} {answer : Bool}
    (h : settleTarget l r t a report runtime now error = .ok (l', answer)) :
    ∃ desired verdict, t.desired = some desired
      ∧ judge report t a desired runtime now error = .ok verdict
      ∧ l' = l.update (r.judged t report verdict now) := by
  unfold settleTarget at h
  split at h
  · cases h
  next desired hdesired =>
    split at h
    · cases h
    next verdict hjudge =>
      split at h
      · cases h
      · injection h with h
        injection h with hl
        exact ⟨desired, verdict, hdesired, hjudge, hl.symm⟩

theorem not_late_of_active (h : (r.judged t report verdict now).active = true) :
    late r t = false := by
  by_contra hlate
  rw [Bool.not_eq_false] at hlate
  have hcanceled := (late_iff.mp hlate).1.1
  have hstatus : (r.judged t report verdict now).status = .canceled := by
    unfold Release.judged
    split
    · have hlate' : late (r.insertEvent "target-recovered-after-dirty" (some t.nodeId) none) t
          = true := hlate
      simp only [hlate', if_true]
      exact hcanceled
    · simp only [hlate, if_true]
      exact hcanceled
  rw [active_iff, hstatus] at h
  simp at h

theorem mem_replaced_of_ne {f : Target → Target} {s : Target} (hs : s ∈ r.targets)
    (hne : s.nodeId ≠ node) : s ∈ Replaced r node f :=
  List.mem_map.mpr ⟨s, hs, if_neg hne⟩

/-- **After a report a release is stuck exactly where a halted one has lost its last failure** and
the others wait. -/
theorem judged_stuck_iff (hnodes : (r.targets.map (·.nodeId)).Nodup)
    (htarget : r.target node = some t) (hclear : ∀ s ∈ r.targets, s.status ≠ .canceled)
    (hactive : r.active = true)
    (hfinished : Unfinished verdict.status = false ∧ verdict.status ≠ .canceled) (now : ℤ) :
    (r.judged t report verdict now).Stuck ↔ r.status = .halted ∧ verdict.status = .succeeded
      ∧ r.OthersWait node ∧ ∀ s ∈ r.targets, s.attempt < maxAttempts := by
  have hnode := target_node htarget
  have hlate : late r t = false := by
    by_contra hlate
    rw [Bool.not_eq_false] at hlate
    rw [active_iff, (late_iff.mp hlate).1.1] at hactive
    simp at hactive
  obtain ⟨-, hrows, hstatus⟩ := judged_fields report hlate verdict now
  rw [hnode] at hrows
  have hrow : settledRow report verdict now t ∈ (r.judged t report verdict now).targets := by
    rw [hrows]
    exact mem_replaced htarget
  have hothers : ∀ s ∈ r.targets, s.nodeId ≠ node →
      s ∈ (r.judged t report verdict now).targets := by
    intro s hs hne
    rw [hrows]
    exact mem_replaced_of_ne hs hne
  generalize r.judged t report verdict now = r' at *
  constructor
  · intro hstuck
    obtain ⟨hactive', hattempts, hnone⟩ := hstuck
    have hsucceeded : verdict.status = .succeeded := by
      rcases (not_movable_iff (t := settledRow report verdict now t) hfinished.2).mp
        (hnone _ hrow) with hsucceeded | hpending
      · exact hsucceeded
      · have hopen := hfinished.1
        rw [show verdict.status = .pending from hpending.1] at hopen
        simp [Unfinished] at hopen
    have hnotall : ¬ r'.targets.all (fun t => t.status = .succeeded) = true := by
      intro hall
      rw [if_pos hall] at hstatus
      rw [active_iff, hstatus] at hactive'
      simp at hactive'
    rw [if_neg hnotall, if_neg (by simp [hsucceeded])] at hstatus
    have hwait : ∀ s ∈ r.targets, s.nodeId ≠ node →
        s.status = .succeeded ∨ s.status = .pending ∧ r'.status ≠ .running :=
      fun s hs hne => (not_movable_iff (hclear s hs)).mp (hnone s (hothers s hs hne))
    obtain ⟨s, hs, hne, hleft⟩ : ∃ s ∈ r.targets, s.nodeId ≠ node ∧ s.status ≠ .succeeded := by
      simp only [List.all_eq_true, not_forall, decide_eq_true_eq] at hnotall
      obtain ⟨s, hs, hleft⟩ := hnotall
      rw [hrows] at hs
      rcases replaced_cases hnodes htarget hs with hs | hs
      · rw [hs] at hleft
        exact absurd hsucceeded hleft
      · exact ⟨s, hs.1, hs.2, hleft⟩
    have hpending := (hwait s hs hne).resolve_left hleft
    rw [hstatus] at hpending
    refine ⟨?_, hsucceeded, ⟨⟨s, hs, hne, hpending.1⟩, fun u hu hune => ?_⟩, fun u hu => ?_⟩
    · exact (active_iff.mp hactive).resolve_left hpending.2
    · rcases hwait u hu hune with hdone | hwaits
      · exact .inr hdone
      · exact .inl hwaits.1
    · by_cases hune : u.nodeId = node
      · have hut : u = t := List.inj_on_of_nodup_map hnodes hu (mem_targets htarget)
          (hune.trans hnode.symm)
        have hkept := hattempts _ hrow
        rw [hut]
        exact hkept
      · exact hattempts u (hothers u hu hune)
  · intro hends
    obtain ⟨hhalted, hsucceeded, ⟨⟨s, hs, hne, hpending⟩, hwait⟩, hattempts⟩ := hends
    have hnotall : ¬ r'.targets.all (fun t => t.status = .succeeded) = true := by
      intro hall
      have hdone := List.all_eq_true.mp hall s (hothers s hs hne)
      simp [hpending] at hdone
    rw [if_neg hnotall, if_neg (by simp [hsucceeded]), hhalted] at hstatus
    refine ⟨active_iff.mpr (.inr hstatus), ?_, ?_⟩
    · rw [hrows]
      exact forall_replaced hnodes htarget (hattempts t (mem_targets htarget)) hattempts
    · rw [hrows]
      intro u hu
      rcases replaced_cases hnodes htarget hu with hu | ⟨hu, hune⟩
      · rw [hu]
        exact (not_movable_iff hfinished.2).mpr (.inl hsucceeded)
      · rw [not_movable_iff (hclear u hu), hstatus]
        rcases hwait u hu hune with hwaits | hdone
        · exact .inr ⟨hwaits, by simp⟩
        · exact .inl hdone

end

/-! ### Steps -/

/-- No target of an active release is canceled. -/
def Release.Clear (r : Release) : Prop :=
  r.active = true → ∀ t ∈ r.targets, t.status ≠ .canceled

theorem Change.clear {r' : Release} (h : Change tx r r') (hlawful : r.Lawful) (hclear : r.Clear) :
    r'.Clear := by
  intro hactive
  have hold := hclear (h.active hactive)
  cases h with
  | dispatched _ _ htarget _ _ _ _ htargets =>
    rw [htargets]
    exact forall_replaced hlawful.nodes htarget (by simp) hold
  | unsupported _ _ htarget _ _ _ htargets =>
    rw [htargets]
    exact forall_replaced hlawful.nodes htarget (by simp) hold
  | settled t htarget haccepted _ htargets _ _ =>
    rw [htargets]
    exact forall_replaced hlawful.nodes htarget haccepted.finished.2 hold
  | retried _ _ htarget _ _ _ htargets =>
    rw [htargets]
    exact forall_replaced hlawful.nodes htarget (by simp [Target.retry]) hold
  | canceled _ _ _ hstatus _ =>
    rw [active_iff, hstatus] at hactive
    simp at hactive

theorem Change.not_stuck {r' : Release} (h : Change tx r r')
    (hother : ∀ node report runtime now, tx ≠ .report node report runtime now) : ¬ r'.Stuck := by
  intro hstuck
  obtain ⟨hactive, -, hnone⟩ := hstuck
  cases h with
  | dispatched _ _ htarget _ _ _ _ htargets =>
    refine hnone _ (htargets ▸ mem_replaced htarget) ?_
    simp [Release.Movable]
  | unsupported _ _ htarget _ _ _ htargets =>
    refine hnone _ (htargets ▸ mem_replaced htarget) ?_
    simp [Release.Movable, Failed]
  | settled _ _ _ _ _ _ _ => exact hother _ _ _ _ rfl
  | retried _ _ htarget _ _ hstatus htargets =>
    refine hnone _ (htargets ▸ mem_replaced htarget) ?_
    simp [Release.Movable, Target.retry, hstatus]
  | canceled _ _ _ hstatus _ =>
    rw [active_iff, hstatus] at hactive
    simp at hactive

theorem Fresh.not_stuck (h : Fresh l r) : ¬ r.Stuck := by
  intro hstuck
  obtain ⟨t, ht⟩ := List.exists_mem_of_ne_nil _ h.nonempty
  exact hstuck.2.2 t ht (.inl ⟨(h.pending t ht).1, h.status⟩)

/-- A ledger in order, whose active releases all can go on. -/
structure Ledger.Going (l : Ledger) : Prop where
  lawful : l.Lawful
  clear : ∀ r ∈ l.releases, r.Clear
  unstuck : ∀ r ∈ l.releases, ¬ r.Stuck

theorem Ledger.Going.clear_step (h : l.Going) (tx : Transaction) :
    ∀ r ∈ (l.step tx).releases, r.Clear := by
  intro s hs
  rcases step_evolves h.lawful.ids tx with ⟨-, f, hreleases, hf⟩ | ⟨-, q, hreleases, hfresh⟩
  · rw [hreleases] at hs
    obtain ⟨r, hr, rfl⟩ := List.mem_map.mp hs
    rcases hf r hr with hkept | hchange
    · rw [hkept]
      exact h.clear r hr
    · exact hchange.clear (h.lawful.each r hr) (h.clear r hr)
  · rw [hreleases, List.mem_append, List.mem_singleton] at hs
    rcases hs with hs | hs
    · exact h.clear s hs
    · intro _ t ht
      rw [hs] at ht
      simp [(hfresh.pending t ht).1]

theorem Ledger.Going.other_step (h : l.Going)
    (hother : ∀ node report runtime now, tx ≠ .report node report runtime now) :
    ∀ r ∈ (l.step tx).releases, ¬ r.Stuck := by
  intro s hs
  rcases step_evolves h.lawful.ids tx with ⟨-, f, hreleases, hf⟩ | ⟨-, q, hreleases, hfresh⟩
  · rw [hreleases] at hs
    obtain ⟨r, hr, rfl⟩ := List.mem_map.mp hs
    rcases hf r hr with hkept | hchange
    · rw [hkept]
      exact h.unstuck r hr
    · exact hchange.not_stuck hother
  · rw [hreleases, List.mem_append, List.mem_singleton] at hs
    rcases hs with hs | hs
    · exact h.unstuck s hs
    · rw [hs]
      exact hfresh.not_stuck

/-- **A report leaves a release stuck exactly where it strands it.** -/
theorem Ledger.Going.report_step (h : l.Going) (node : String) (report : ExecutionReport)
    (runtime : Option AgentRuntime) (now : ℤ) :
    (∃ r ∈ (l.step (.report node report runtime now)).releases, r.Stuck)
      ↔ l.Strands (.report node report runtime now) := by
  constructor
  · intro hstuck
    obtain ⟨r', hr', hstuck⟩ := hstuck
    simp only [Ledger.step] at hr'
    split at hr'
    swap
    · exact absurd hstuck (h.unstuck r' hr')
    next l' answer hsettled =>
    by_cases hkept : l' = l
    · rw [hkept] at hr'
      exact absurd hstuck (h.unstuck r' hr')
    obtain ⟨r, t, a, haddressed⟩ := addressed_of_settled hsettled hkept
    obtain ⟨error, hreads⟩ := settleReport_addressed haddressed runtime now
    rw [hreads] at hsettled
    split at hsettled
    · injection hsettled with hpair
      injection hpair with hl
      exact absurd hl.symm hkept
    split at hsettled
    · injection hsettled with hpair
      injection hpair with hl
      exact absurd hl.symm hkept
    next hended hopen =>
    obtain ⟨desired, verdict, hdesired, hjudge, hl⟩ := judged_of_settled hsettled
    obtain ⟨hmem, -, -⟩ := mem_of_lockRelease haddressed.release
    -- an untouched release was not stuck before
    have hjudged : r' = r.judged t report verdict now := by
      rw [hl] at hr'
      obtain ⟨s, hs, hsr'⟩ := List.mem_map.mp hr'
      by_cases hid : s.id = (r.judged t report verdict now).id
      · rw [if_pos hid] at hsr'
        exact hsr'.symm
      · rw [if_neg hid] at hsr'
        exact absurd (hsr' ▸ hstuck) (h.unstuck s hs)
    rw [hjudged] at hstuck
    have hlate := not_late_of_active hstuck.1
    have hactive : r.active = true := by
      by_contra hinactive
      rw [Bool.not_eq_true] at hinactive
      simp [hinactive, hlate] at hended
    have hfinished := judge_finished hjudge
    obtain ⟨hhalted, hsucceeded, hwait, hattempts⟩ :=
      (judged_stuck_iff (h.lawful.each r hmem).nodes haddressed.target (h.clear r hmem hactive)
        hactive hfinished now).mp hstuck
    refine ⟨r, t, a, desired, haddressed, hhalted, ?_, hdesired,
      judge_succeeds_iff.mp ⟨verdict, hjudge, hsucceeded⟩, hwait, hattempts⟩
    by_cases hunfinished : Unfinished t.status = true
    · exact .inl hunfinished
    · rw [Bool.not_eq_true] at hunfinished
      exact .inr (recovering_iff (by simpa [hactive, hunfinished] using hopen))
  · intro hstrands
    obtain ⟨r, t, a, desired, haddressed, hhalted, hopen, hdesired, hproves, hwait, hattempts⟩ :=
      hstrands
    obtain ⟨hmem, -, -⟩ := mem_of_lockRelease haddressed.release
    have hactive : r.active = true := active_iff.mpr (.inr hhalted)
    obtain ⟨error, hreads⟩ := settleReport_addressed haddressed runtime now
    obtain ⟨verdict, hjudge, hsucceeded⟩ : ∃ verdict,
        judge report t a desired runtime now error = .ok verdict ∧ verdict.status = .succeeded :=
      judge_succeeds_iff.mpr hproves
    have hrecovers : Unfinished t.status = false → recoveringAfterDirty r t report = true := by
      intro hfinished
      obtain ⟨hdirty, hxray⟩ := hopen.resolve_left (by simp [hfinished])
      cases report with
      | xray x => simp [recoveringAfterDirty, hactive, hdirty, hproves.2.2.1]
      | agent x => simp [ExecutionReport.component] at hxray
    have hsettled : settleReport l node report runtime now
        = .ok (l.update (r.judged t report verdict now), true) := by
      rw [hreads, if_neg (by simp [hactive]), if_neg, settleTarget_eq hdesired hjudge]
      · simp [hsucceeded]
      · by_cases hunfinished : Unfinished t.status = true
        · simp [hunfinished]
        · rw [Bool.not_eq_true] at hunfinished
          simp [hrecovers hunfinished]
    have hlate : late r t = false := by
      by_contra hlate
      rw [Bool.not_eq_false] at hlate
      rw [(late_iff.mp hlate).1.1] at hhalted
      cases hhalted
    refine ⟨r.judged t report verdict now, ?_, ?_⟩
    · simp only [Ledger.step]
      rw [hsettled]
      exact List.mem_map.mpr ⟨r, hmem, if_pos (judged_fields report hlate verdict now).1.symm⟩
    · exact (judged_stuck_iff (h.lawful.each r hmem).nodes haddressed.target
        (h.clear r hmem hactive) hactive (judge_finished hjudge) now).mpr
        ⟨hhalted, hsucceeded, hwait, hattempts⟩

theorem Ledger.Strands.is_report (h : l.Strands tx) :
    ∃ node report runtime now, tx = .report node report runtime now := by
  unfold Ledger.Strands at h
  split at h
  · exact ⟨_, _, _, _, rfl⟩
  · exact h.elim

theorem Ledger.Going.step_iff (h : l.Going) (tx : Transaction) :
    (l.step tx).Going ↔ ¬ l.Strands tx := by
  have hnever : (∀ r ∈ (l.step tx).releases, ¬ r.Stuck) ↔ ¬ l.Strands tx := by
    by_cases hreport : ∃ node report runtime now, tx = .report node report runtime now
    · obtain ⟨node, report, runtime, now, htx⟩ := hreport
      rw [htx, ← h.report_step]
      simp
    · have hother : ∀ node report runtime now, tx ≠ .report node report runtime now :=
        fun node report runtime now htx => hreport ⟨node, report, runtime, now, htx⟩
      exact iff_of_true (h.other_step hother) fun hstrands => hreport hstrands.is_report
  rw [← hnever]
  exact ⟨fun hgoing => hgoing.unstuck,
    fun hunstuck => ⟨h.lawful.step tx, h.clear_step tx, hunstuck⟩⟩

/-! ### Runs -/

/-- Every transaction of a run finds a ledger that it meets `P` in. -/
def Ledger.Throughout (P : Ledger → Transaction → Prop) (l : Ledger) (txs : List Transaction) :
    Prop :=
  ∀ before tx after, txs = before ++ tx :: after → P (l.run before) tx

theorem Ledger.Going.run_iff {txs : List Transaction} : ∀ {l : Ledger}, l.Going →
    ((∀ before after, txs = before ++ after → ∀ r ∈ (l.run before).releases, ¬ r.Stuck)
      ↔ l.Throughout (fun l tx => ¬ l.Strands tx) txs) := by
  induction txs with
  | nil =>
    intro l h
    constructor
    · intro _ before tx after hsplit
      simp at hsplit
    · intro _ before after hsplit
      have hempty : before = [] := by simpa using (List.append_eq_nil_iff.mp hsplit.symm).1
      rw [hempty]
      exact h.unstuck
  | cons tx rest ih =>
    intro l h
    constructor
    · intro hstates before tx' after hsplit
      have hgoing : (l.step tx).Going :=
        ⟨h.lawful.step tx, h.clear_step tx, hstates [tx] rest rfl⟩
      cases before with
      | nil =>
        injection hsplit with htx
        rw [← htx]
        exact (h.step_iff tx).mp hgoing
      | cons first before =>
        injection hsplit with hfirst hrest
        rw [← hfirst]
        refine (ih hgoing).mp (fun before' after' hsplit' => ?_) before tx' after hrest
        exact hstates (tx :: before') after' (by rw [hsplit']; rfl)
    · intro hmeets before after hsplit
      have hgoing : (l.step tx).Going := (h.step_iff tx).mpr (hmeets [] tx rest rfl)
      cases before with
      | nil => exact h.unstuck
      | cons first before =>
        injection hsplit with hfirst hrest
        rw [← hfirst]
        refine (ih hgoing).mpr (fun before' tx' after' hsplit' => ?_) before after hrest
        exact hmeets (tx :: before') tx' after' (by rw [hsplit']; rfl)

theorem Ledger.Going.empty : Ledger.empty.Going :=
  ⟨.empty, by simp [Ledger.empty], by simp [Ledger.empty]⟩

/-- **A run never leaves a release stuck exactly where no report of it strands one.** -/
theorem release_unstuck_iff (txs : List Transaction) : (∀ before after, txs = before ++ after →
        ∀ r ∈ (Ledger.empty.run before).releases, r.active = true →
          (∀ t ∈ r.targets, t.attempt < maxAttempts) → ∃ t ∈ r.targets, r.Movable t)
      ↔ Ledger.empty.Throughout (fun l tx => ¬ l.Strands tx) txs := by
  rw [← Ledger.Going.empty.run_iff]
  refine forall₃_congr fun before after hsplit => forall₂_congr fun r hr => ?_
  unfold Release.Stuck
  constructor
  · intro hmovable hstuck
    obtain ⟨t, ht, hmoves⟩ := hmovable hstuck.1 hstuck.2.1
    exact hstuck.2.2 t ht hmoves
  · intro hunstuck hactive hattempts
    by_contra hnone
    exact hunstuck ⟨hactive, hattempts, fun t ht hmoves => hnone ⟨t, ht, hmoves⟩⟩

/-- Two machines are upgraded; the first fails in an unknown state, and then recovers. -/
def recovery : List Transaction :=
  let build : BinaryBuildInfo := ⟨.xray, digest 'b', "0.3.1", [⟨"x86_64", digest 'c'⟩]⟩
  let state : NodeState :=
    ⟨"active", some 60, none, some (digest 'a'), some (digest 'a'), true, true, true, true⟩
  let report (outcome : XrayReleaseOutcome) : Transaction :=
    .report "osaka" (.xray ⟨1, 1, outcome, true, .handoff, false, true, some (digest 'c'),
      some (digest 'c'), none⟩) none 30
  [.create ⟨true, "root"⟩ ⟨"first", digest 'b', ["osaka", "tokyo"], none, some .handoff, some 300⟩
      build true fun _ => some state,
    .claim .xray "osaka" "x86_64" (digest 'b') true 10, report .failedDirty, report .succeeded]

/-- The second machine waits in a halted release that has nothing to retry. -/
theorem recovery_strands : ∃ r ∈ (Ledger.empty.run recovery).releases, r.active = true
    ∧ (∀ t ∈ r.targets, t.attempt < maxAttempts) ∧ ¬ ∃ t ∈ r.targets, r.Movable t := by
  decide +kernel

end Brocade.Binary
