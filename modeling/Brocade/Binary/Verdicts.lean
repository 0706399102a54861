/-
What the ledger says about a fleet, in any order of transactions.

The results are read off the changes: what a report can change, what success rests on, and what
stays as it is in a release that is halted or canceled.
-/
import Brocade.Binary.Lawful

namespace Brocade.Binary

/-- What a report that counts does to a release, whose row for the node is `t` and then `t'`. -/
def Counted (node : String) (report : ExecutionReport) (r r' : Release) (t t' : Target) : Prop :=
  report.component = r.component ∧ report.releaseId = r.id ∧ report.attempt = t.attempt
    ∧ r.target node = some t ∧ r'.targets = Replaced r node (fun _ => t')
    ∧ Unfinished t'.status = false ∧ t'.status ≠ .canceled
    ∧ (r.active = true ∧ Unfinished t.status = true
      ∨ r.active = true ∧ t.status = .failedDirty ∧ r.component = .xray ∧ t'.status = .succeeded
      ∨ r.status = .canceled ∧ t.status = .canceled ∧ Recorded r t (fun _ => t') r')

/-- Success rests on a report of the bytes approved for the architecture. -/
def Proved (report : ExecutionReport) (r : Release) (t : Target) : Prop :=
  report.component = r.component ∧ report.releaseId = r.id ∧ report.attempt = t.attempt
    ∧ (∃ arch desired, t.arch = some arch ∧ r.approved arch = some desired
      ∧ report.installed = some desired ∧ report.running = some desired)
    ∧ (r.component = .xray → report.performed = true)

/-- Some claim gets an assignment of the release. -/
def Ledger.handsOut (l : Ledger) (id : ℤ) : Prop :=
  ∃ component node arch buildId receiptCapable now l' assignment,
    claimBinaryRelease l component node arch buildId receiptCapable now = .ok (l', some assignment)
      ∧ assignment.releaseId = id

/-- An operator retries a target of the release. -/
def Transaction.retries (id : ℤ) : Transaction → Prop
  | .retry _ _ release _ _ _ _ => release = id
  | _ => False

/-! ### Reports -/

variable {r r' : Release} {t : Target} {report : ExecutionReport} {node : String} {l : Ledger}
    {tx : Transaction}

theorem recovering_iff (h : recoveringAfterDirty r t report = true) :
    t.status = .failedDirty ∧ report.component = .xray := by
  unfold recoveringAfterDirty at h
  cases report with
  | xray x =>
    simp only [Bool.and_eq_true, decide_eq_true_eq] at h
    exact ⟨h.1.2, rfl⟩
  | agent x => simp at h

theorem replaced_const {f : Target → Target} (hnodes : (r.targets.map (·.nodeId)).Nodup)
    (htarget : r.target node = some t) : Replaced r node f = Replaced r node fun _ => f t := by
  refine List.map_congr_left fun s hs => ?_
  by_cases hnode : s.nodeId = node
  · rw [if_pos hnode, if_pos hnode, List.inj_on_of_nodup_map hnodes hs (mem_targets htarget)
      (hnode.trans (target_node htarget).symm)]
  · rw [if_neg hnode, if_neg hnode]

theorem Change.counted {runtime : Option AgentRuntime} {now : ℤ}
    (h : Change (.report node report runtime now) r r') (hlawful : r.Lawful) :
    ∃ t t', Counted node report r r' t t' := by
  cases h with
  | @settled _ _ _ _ _ _ _ verdict t htarget haccepted _ htargets hlate _ =>
    have hrows := replaced_const (f := settledRow report verdict now) hlawful.nodes htarget
    refine ⟨t, _, haccepted.component, haccepted.releaseId, haccepted.attempt, htarget,
      htargets.trans hrows, haccepted.finished.1, haccepted.finished.2, ?_⟩
    rcases haccepted.open_ with ⟨hactive, hunfinished | ⟨hrecovering, hsucceeded⟩⟩ | hcanceled
    · exact .inl ⟨hactive, hunfinished⟩
    · obtain ⟨hdirty, hxray⟩ := recovering_iff hrecovering
      exact .inr (.inl ⟨hactive, hdirty, haccepted.component ▸ hxray, hsucceeded⟩)
    · obtain ⟨⟨hr, ht⟩, _⟩ := late_iff.mp hcanceled
      refine .inr (.inr ⟨hr, ht, ?_⟩)
      obtain ⟨outcome, events, hrecorded⟩ := hlate hcanceled
      refine ⟨outcome, events, ?_⟩
      rw [target_node htarget] at hrecorded ⊢
      rw [hrecorded, hrows]
  | canceled _ htx _ _ _ => simp at htx

theorem report_counted (hlawful : l.Lawful) (node : String) (report : ExecutionReport)
    (runtime : Option AgentRuntime) (now : ℤ) : l.step (.report node report runtime now) = l
      ∨ ∃ r ∈ l.releases, ∃ r' t t', l.step (.report node report runtime now) = l.update r'
        ∧ Counted node report r r' t t' := by
  simp only [Ledger.step]
  split
  next h =>
    rcases settleReport_ok h with hl | ⟨r, hr, r', hl, hchange⟩
    · exact .inl hl
    · obtain ⟨t, t', hcounted⟩ := hchange.counted (hlawful.each r hr)
      exact .inr ⟨r, hr, r', t, t', hl, hcounted⟩
  next => exact .inl rfl

theorem report_ignored (hlawful : l.Lawful) (runtime : Option AgentRuntime) (now : ℤ)
    (hr : r ∈ l.releases) (hid : r.id = report.releaseId) (htarget : r.target node = some t)
    (hsettled : report.attempt ≠ t.attempt ∨ Unfinished t.status = false
      ∧ ¬ (r.active = true ∧ t.status = .failedDirty ∧ r.component = .xray)
      ∧ ¬ (r.status = .canceled ∧ t.status = .canceled)) :
    l.step (.report node report runtime now) = l := by
  rcases report_counted hlawful node report runtime now with h | ⟨s, hs, s', u, u', _, hcounted⟩
  · exact h
  · obtain ⟨_, hrelease, hattempt, hrow, _, _, _, hopen⟩ := hcounted
    have hsr : s = r := hlawful.eq_of_id hs hr (hrelease.symm.trans hid.symm)
    subst hsr
    have hut : u = t := Option.some.inj (hrow.symm.trans htarget)
    subst hut
    exfalso
    rcases hsettled with hother | ⟨hfinished, hclean, hkept⟩
    · exact hother hattempt
    · rcases hopen with ⟨_, hunfinished⟩ | ⟨hactive, hdirty, hxray, _⟩ | ⟨hcanceled, ht, _⟩
      · rw [hfinished] at hunfinished
        cases hunfinished
      · exact hclean ⟨hactive, hdirty, hxray⟩
      · exact hkept ⟨hcanceled, ht⟩

/-! ### Success -/

theorem Change.proved (h : Change tx r r') (hlawful : r.Lawful) {t' : Target}
    (ht' : t' ∈ r'.targets) (hsucceeded : t'.status = .succeeded) :
    t' ∈ r.targets ∨ ∃ report runtime now, tx = .report t'.nodeId report runtime now
      ∧ Proved report r' t' := by
  have hsame := h.same
  have happroved := h.approved hlawful t' ht' (by simp [hsucceeded])
  cases h with
  | dispatched _ _ htarget _ _ _ _ htargets =>
    rw [htargets] at ht'
    rcases replaced_cases hlawful.nodes htarget ht' with ht' | ⟨ht', _⟩
    · simp [ht'] at hsucceeded
    · exact .inl ht'
  | unsupported _ _ htarget _ _ _ htargets =>
    rw [htargets] at ht'
    rcases replaced_cases hlawful.nodes htarget ht' with ht' | ⟨ht', _⟩
    · simp [ht'] at hsucceeded
    · exact .inl ht'
  | @settled _ report runtime now _ _ desired _ t htarget haccepted _ htargets _ _ =>
    rw [htargets] at ht'
    rcases replaced_cases hlawful.nodes htarget ht' with ht' | ⟨ht', _⟩
    · obtain ⟨_, _, _, _, hjudged⟩ := haccepted.judged
      have hverdict := hsucceeded
      rw [ht'] at hverdict
      obtain ⟨hinstalled, hrunning, hperformed⟩ := judge_succeeded hjudged hverdict
      have hdesired : t'.desired = some desired := by
        rw [ht']
        exact haccepted.claimed
      obtain ⟨arch, harch, hdigest⟩ := happroved desired hdesired
      refine .inr ⟨report, runtime, now, ?_, ?_, ?_, ?_, ⟨arch, desired, harch, hdigest,
        hinstalled, hrunning⟩, ?_⟩
      · rw [ht', ← target_node htarget]
        rfl
      · rw [hsame.component]
        exact haccepted.component
      · rw [hsame.id]
        exact haccepted.releaseId
      · rw [ht']
        exact haccepted.attempt
      · intro hxray
        refine hperformed ?_
        rw [haccepted.component, ← hsame.component]
        exact hxray
    · exact .inl ht'
  | retried _ _ htarget _ _ _ htargets =>
    rw [htargets] at ht'
    rcases replaced_cases hlawful.nodes htarget ht' with ht' | ⟨ht', _⟩
    · simp [ht', Target.retry] at hsucceeded
    · exact .inl ht'
  | canceled _ _ _ _ htargets =>
    rw [htargets] at ht'
    obtain ⟨t, ht, hst⟩ := List.mem_map.mp ht'
    rcases canceled_row (t := t) with ⟨hrow, _⟩ | ⟨_, hrow⟩
    · rw [hrow] at hst
      exact .inl (hst ▸ ht)
    · rw [hrow] at hst
      rw [← hst] at hsucceeded
      cases hsucceeded

theorem step_proved (hlawful : l.Lawful) (hr' : r' ∈ (l.step tx).releases) {t' : Target}
    (ht' : t' ∈ r'.targets) (hsucceeded : t'.status = .succeeded) :
    (∃ r ∈ l.releases, r.id = r'.id ∧ t' ∈ r.targets)
      ∨ ∃ report runtime now, tx = .report t'.nodeId report runtime now ∧ Proved report r' t' := by
  rcases step_evolves hlawful.ids tx with ⟨_, f, hreleases, hf⟩ | ⟨_, s, hreleases, hfresh⟩
  · rw [hreleases] at hr'
    obtain ⟨r, hr, rfl⟩ := List.mem_map.mp hr'
    rcases hf r hr with hkept | hchange
    · exact .inl ⟨r, hr, by rw [hkept], hkept ▸ ht'⟩
    · rcases hchange.proved (hlawful.each r hr) ht' hsucceeded with hold | hproved
      · exact .inl ⟨r, hr, hchange.same.id.symm, hold⟩
      · exact .inr hproved
  · rw [hreleases, List.mem_append, List.mem_singleton] at hr'
    rcases hr' with hr' | hr'
    · exact .inl ⟨r', hr', rfl, ht'⟩
    · subst hr'
      simp [(hfresh.pending t' ht').1] at hsucceeded

theorem step_succeeds (hlawful : l.Lawful) (hr : r ∈ l.releases) (hactive : r.active = true)
    (hr' : r' ∈ (l.step tx).releases) (hid : r'.id = r.id) :
    r'.status = .succeeded ↔ ∀ t ∈ r'.targets, t.status = .succeeded := by
  refine ⟨((hlawful.step tx).each r' hr').succeeded, fun hall => ?_⟩
  have hnot : ∀ {s : Release}, s.Lawful → s.active = true →
      ¬ ∀ t ∈ s.targets, t.status = .succeeded := by
    intro s hs hsactive h
    obtain ⟨t, ht, hne⟩ := hs.open_ hsactive
    exact hne (h t ht)
  rcases step_evolves hlawful.ids tx with ⟨_, f, hreleases, hf⟩ | ⟨_, s, hreleases, hfresh⟩
  · rw [hreleases] at hr'
    obtain ⟨q, hq, rfl⟩ := List.mem_map.mp hr'
    have hqr : q = r := by
      refine hlawful.eq_of_id hq hr ?_
      rw [← (kept_or_changed (hf q hq)).1.id]
      exact hid
    subst hqr
    rcases hf q hq with hkept | hchange
    · rw [hkept] at hall
      exact absurd hall (hnot (hlawful.each q hq) hactive)
    · have hended := hnot (hchange.lawful (hlawful.each q hq))
      by_cases hend : (f q).active = true
      · exact absurd hall (hended hend)
      · rw [active_iff, not_or] at hend
        cases hstatus : (f q).status with
        | running => exact absurd hstatus hend.1
        | halted => exact absurd hstatus hend.2
        | succeeded => rfl
        | canceled =>
          exfalso
          refine absurd ?_ (hnot (hlawful.each q hq) hactive)
          cases hchange with
          | dispatched _ _ _ _ _ _ hrunning _ => simp [hrunning] at hstatus
          | unsupported _ _ _ _ _ hhalted _ => simp [hhalted] at hstatus
          | settled t _ haccepted _ _ _ hverdict =>
            have hlate : ¬ late q t = true := by
              intro hlate
              rw [active_iff, (late_iff.mp hlate).1.1] at hactive
              simp at hactive
            rw [if_neg hlate, if_pos (by simpa using hall), hstatus] at hverdict
            cases hverdict
          | retried _ _ _ _ _ hrunning _ => simp [hrunning] at hstatus
          | canceled _ _ _ _ htargets =>
            intro t ht
            have hrow := hall _ (by
              rw [htargets]
              exact List.mem_map_of_mem ht)
            rcases canceled_row (t := t) with ⟨hkept, _⟩ | ⟨_, hcanceled⟩
            · rw [hkept] at hrow
              exact hrow
            · rw [hcanceled] at hrow
              cases hrow
  · rw [hreleases, List.mem_append, List.mem_singleton] at hr'
    rcases hr' with hr' | hr'
    · rw [hlawful.eq_of_id hr' hr hid] at hall
      exact absurd hall (hnot (hlawful.each r hr) hactive)
    · have := hlawful.bound r hr
      rw [hr', hfresh.id] at hid
      omega

/-! ### Releases at rest -/

theorem claim_running {l' : Ledger} {component : BinaryComponent} {arch buildId : String}
    {receiptCapable : Bool} {now : ℤ} {assignment : BinaryReleaseAssignment}
    (h : claimBinaryRelease l component node arch buildId receiptCapable now
      = .ok (l', some assignment)) :
    ∃ r ∈ l.releases, r.id = assignment.releaseId ∧ r.status = .running := by
  unfold claimBinaryRelease at h
  split at h
  · cases h
  split at h
  · cases h
  next r hr =>
    have hmem : r ∈ l.releases := List.mem_reverse.mp (List.mem_of_find?_eq_some hr)
    have hclaimant := List.find?_some hr
    simp only [Release.claimant, Bool.and_eq_true, decide_eq_true_eq] at hclaimant
    refine ⟨r, hmem, ?_, hclaimant.1.1⟩
    split at h
    · cases h
    split at h
    · cases h
    unfold claimTarget at h
    split at h
    · cases h
    split at h
    · cases h
    · injection h with h
      injection h with _ h
      injection h with h
      rw [← h]

theorem not_handsOut {id : ℤ} (h : ∀ r ∈ l.releases, r.id = id → r.status ≠ .running) :
    ¬ l.handsOut id := by
  rintro ⟨component, node, arch, buildId, receiptCapable, now, l', assignment, hclaim, hid⟩
  obtain ⟨r, hr, hrid, hrunning⟩ := claim_running hclaim
  exact h r hr (hrid.trans hid) hrunning

theorem run_keeps {P : Release → Prop} {id : ℤ} (ok : Transaction → Prop)
    (hchange : ∀ tx r r', ok tx → r.Lawful → r.id = id → P r → Change tx r r' → P r')
    {txs : List Transaction} :
    ∀ {l : Ledger}, l.Lawful → id < l.nextId → (∀ r ∈ l.releases, r.id = id → P r) →
      (∀ tx ∈ txs, ok tx) → ∀ r ∈ (l.run txs).releases, r.id = id → P r := by
  induction txs with
  | nil => exact fun _ _ h _ => h
  | cons tx rest ih =>
    intro l hlawful hlt h hok
    refine ih (hlawful.step tx) ?_ ?_ fun tx' htx' => hok tx' (List.mem_cons_of_mem _ htx')
    · rcases step_evolves hlawful.ids tx with ⟨hnext, _⟩ | ⟨hnext, _⟩
      · rw [hnext]
        exact hlt
      · rw [hnext]
        omega
    · intro s hs hsid
      rcases step_evolves hlawful.ids tx with ⟨_, f, hreleases, hf⟩ | ⟨_, q, hreleases, hfresh⟩
      · rw [hreleases] at hs
        obtain ⟨r, hr, rfl⟩ := List.mem_map.mp hs
        have hid : r.id = id := (kept_or_changed (hf r hr)).1.id ▸ hsid
        rcases hf r hr with hkept | hchanged
        · rw [hkept]
          exact h r hr hid
        · exact hchange tx r (f r) (hok tx List.mem_cons_self) (hlawful.each r hr) hid
            (h r hr hid) hchanged
      · rw [hreleases, List.mem_append, List.mem_singleton] at hs
        rcases hs with hs | hs
        · exact h s hs hsid
        · rw [hs, hfresh.id] at hsid
          omega

/-- A release that is not under way, and the nodes that wait in it. -/
def Resting (waiting : String → Prop) (r : Release) : Prop :=
  r.status ≠ .running ∧ ∀ t ∈ r.targets, waiting t.nodeId → t.status ≠ .dispatched

theorem Change.resting {waiting : String → Prop} (hretry : ¬ tx.retries r.id) (hlawful : r.Lawful)
    (hrest : Resting waiting r) (h : Change tx r r') : Resting waiting r' := by
  cases h with
  | dispatched _ hrunning _ _ _ _ _ _ => exact absurd hrunning hrest.1
  | unsupported _ hrunning _ _ _ _ _ => exact absurd hrunning hrest.1
  | settled t htarget haccepted _ htargets _ hstatus =>
    refine ⟨?_, ?_⟩
    · split at hstatus
      · exact hstatus ▸ hrest.1
      split at hstatus
      · simp [hstatus]
      split at hstatus
      · simp [hstatus]
      · exact hstatus ▸ hrest.1
    · rw [htargets]
      refine forall_replaced hlawful.nodes htarget (fun _ => ?_) hrest.2
      intro hdispatched
      have hfinished := haccepted.finished.1
      simp only [settledRow] at hdispatched
      rw [hdispatched] at hfinished
      simp [Unfinished] at hfinished
  | retried hid _ _ _ _ _ _ => exact absurd hid.symm hretry
  | canceled _ _ _ hstatus htargets =>
    refine ⟨by simp [hstatus], ?_⟩
    rw [htargets]
    intro s hs hwaits
    obtain ⟨t, ht, hst⟩ := List.mem_map.mp hs
    rcases canceled_row (t := t) with ⟨hrow, _⟩ | ⟨_, hrow⟩
    · rw [hrow] at hst
      subst hst
      exact hrest.2 t ht hwaits
    · rw [hrow] at hst
      simp [← hst]

theorem halted_rests (hlawful : l.Lawful) (hr : r ∈ l.releases) (hhalted : r.status = .halted)
    {later : List Transaction} (hretries : ∀ tx ∈ later, ¬ tx.retries r.id) :
    ¬ (l.run later).handsOut r.id
      ∧ ∀ t ∈ r.targets, t.status = .pending → ∀ r' ∈ (l.run later).releases, r'.id = r.id →
        ∀ t' ∈ r'.targets, t'.nodeId = t.nodeId → t'.status ≠ .dispatched := by
  have hrest : ∀ r' ∈ (l.run later).releases, r'.id = r.id →
      Resting (fun node => ∃ t ∈ r.targets, t.nodeId = node ∧ t.status = .pending) r' := by
    refine run_keeps (fun tx => ¬ tx.retries r.id) ?_ hlawful (hlawful.bound r hr) ?_ hretries
    · intro tx q q' hok hq hid hrest hchange
      exact hchange.resting (hid ▸ hok) hq hrest
    · intro q hq hid
      rw [hlawful.eq_of_id hq hr hid]
      refine ⟨by simp [hhalted], ?_⟩
      rintro s hs ⟨t, ht, hnode, hpending⟩
      rw [List.inj_on_of_nodup_map (hlawful.each r hr).nodes hs ht hnode.symm, hpending]
      simp
  refine ⟨not_handsOut fun r' hr' hid => (hrest r' hr' hid).1, ?_⟩
  intro t ht hpending r' hr' hid t' ht' hnode
  exact (hrest r' hr' hid).2 t' ht' ⟨t, ht, hnode.symm, hpending⟩

theorem canceled_rests (hlawful : l.Lawful) (hr : r ∈ l.releases) (hcanceled : r.status = .canceled)
    (later : List Transaction) : ¬ (l.run later).handsOut r.id
      ∧ ∀ r' ∈ (l.run later).releases, r'.id = r.id → r'.status = .canceled
        ∧ ∀ t ∈ r'.targets, Unfinished t.status = false := by
  have hstays : ∀ r' ∈ (l.run later).releases, r'.id = r.id → r'.status = .canceled := by
    refine run_keeps (fun _ => True) ?_ hlawful (hlawful.bound r hr) ?_ fun _ _ => trivial
    · intro tx q q' _ _ _ hq hchange
      have hended : q.active = false := by simp [Release.active, hq]
      rw [hchange.ended hended, hq]
    · intro q hq hid
      rw [hlawful.eq_of_id hq hr hid, hcanceled]
  refine ⟨not_handsOut fun r' hr' hid => ?_, ?_⟩
  · simp [hstays r' hr' hid]
  · intro r' hr' hid
    exact ⟨hstays r' hr' hid, (hlawful.run.each r' hr').canceled (hstays r' hr' hid)⟩

/-- After any transactions at most one release of a component is active.  A report changes one
release at most, and only the row it is about; of another attempt, or of a target that is settled,
it changes nothing.  A target succeeds by a report of the approved bytes alone.  Nothing that waits
in a halted release is handed out before a retry, and nothing of a canceled one ever. -/
theorem ledger_truthful (txs : List Transaction) (l : Ledger) (hrun : Ledger.empty.run txs = l) :
    (∀ r ∈ l.releases, ∀ s ∈ l.releases, r.active = true → s.active = true →
        r.component = s.component → r = s)
      ∧ (∀ node report runtime now, l.step (.report node report runtime now) = l
        ∨ ∃ r ∈ l.releases, ∃ r' t t', l.step (.report node report runtime now) = l.update r'
          ∧ Counted node report r r' t t')
      ∧ (∀ node report runtime now, ∀ r ∈ l.releases, r.id = report.releaseId →
        ∀ t, r.target node = some t →
        (report.attempt ≠ t.attempt ∨ Unfinished t.status = false
          ∧ ¬ (r.active = true ∧ t.status = .failedDirty ∧ r.component = .xray)
          ∧ ¬ (r.status = .canceled ∧ t.status = .canceled)) →
        l.step (.report node report runtime now) = l)
      ∧ (∀ tx, ∀ r' ∈ (l.step tx).releases, ∀ t' ∈ r'.targets, t'.status = .succeeded →
        (∃ r ∈ l.releases, r.id = r'.id ∧ t' ∈ r.targets)
          ∨ ∃ report runtime now, tx = .report t'.nodeId report runtime now ∧ Proved report r' t')
      ∧ (∀ r ∈ l.releases, r.status = .halted → ∀ later : List Transaction,
        (∀ tx ∈ later, ¬ tx.retries r.id) →
        ¬ (l.run later).handsOut r.id
          ∧ ∀ t ∈ r.targets, t.status = .pending → ∀ r' ∈ (l.run later).releases, r'.id = r.id →
            ∀ t' ∈ r'.targets, t'.nodeId = t.nodeId → t'.status ≠ .dispatched)
      ∧ (∀ tx, ∀ r ∈ l.releases, r.active = true → ∀ r' ∈ (l.step tx).releases, r'.id = r.id →
        (r'.status = .succeeded ↔ ∀ t ∈ r'.targets, t.status = .succeeded))
      ∧ ∀ r ∈ l.releases, r.status = .canceled → ∀ later : List Transaction,
        ¬ (l.run later).handsOut r.id
          ∧ ∀ r' ∈ (l.run later).releases, r'.id = r.id → r'.status = .canceled
            ∧ ∀ t ∈ r'.targets, Unfinished t.status = false := by
  have hlawful : l.Lawful := hrun ▸ Ledger.Lawful.empty.run
  refine ⟨hlawful.single, report_counted hlawful, ?_, ?_, ?_, ?_, ?_⟩
  · intro node report runtime now r hr hid t htarget hsettled
    exact report_ignored hlawful runtime now hr hid htarget hsettled
  · intro tx r' hr' t' ht' hsucceeded
    exact step_proved hlawful hr' ht' hsucceeded
  · intro r hr hhalted later hretries
    exact halted_rests hlawful hr hhalted hretries
  · intro tx r hr hactive r' hr' hid
    exact step_succeeds hlawful hr hactive hr' hid
  · intro r hr hcanceled later
    exact canceled_rests hlawful hr hcanceled later

/-- A digest of one letter. -/
def digest (c : Char) : String := String.ofList (List.replicate 64 c)

def root : Actor := ⟨true, "root"⟩

/-- Of two nodes the first one's upgrade fails, which halts the release. -/
def haltedUpgrade : List Transaction :=
  let build : BinaryBuildInfo := ⟨.agent, digest 'b', "0.3.1", [⟨"x86_64", digest 'c'⟩]⟩
  let state : NodeState := ⟨"active", some 60, some (digest 'a'), none, none, false, true, true, true⟩
  [.create root ⟨"first", digest 'b', ["tokyo", "osaka"], none, none, none⟩ build false
      fun _ => some state,
    .claim .agent "tokyo" "x86_64" (digest 'b') true 10,
    .report "tokyo" (.agent ⟨1, 1, .failed, false, some (digest 'a'), some (digest 'a'),
      some "no space left"⟩) (some ⟨some (digest 'a'), some 60, some 20⟩) 30]

/-- The second one asks for its upgrade. -/
def asking : Transaction := .claim .agent "osaka" "x86_64" (digest 'b') true 40

/-- The first failure is reported once more. -/
def again : ExecutionReport :=
  .agent ⟨1, 1, .failed, false, some (digest 'a'), some (digest 'a'), none⟩

/-- An operator retries the first one, and both are upgraded. -/
def resumedUpgrade : List Transaction :=
  let upgraded (node : String) (attempt : ℕ) (at' : ℤ) : List Transaction :=
    [.claim .agent node "x86_64" (digest 'b') true at',
      .report node (.agent ⟨1, attempt, .running, true, some (digest 'c'), some (digest 'c'), none⟩)
        (some ⟨some (digest 'c'), some 60, some (at' + 10)⟩) (at' + 20)]
  .retry .agent root 1 "tokyo" (digest 'b') none 60 :: upgraded "tokyo" 2 70 ++ upgraded "osaka" 1 100

/-- While the release is halted `osaka` gets nothing and a repeated report counts for nothing, and
after the retry both nodes are upgraded and no release is active. -/
theorem ledger_truthful_upgrade : (∀ r ∈ (Ledger.empty.run haltedUpgrade).releases,
        ¬ ((Ledger.empty.run haltedUpgrade).run [asking]).handsOut r.id
          ∧ (Ledger.empty.run haltedUpgrade).step (.report "tokyo" again none 50)
            = Ledger.empty.run haltedUpgrade)
      ∧ (Ledger.empty.run (haltedUpgrade ++ asking :: resumedUpgrade)).releases.map
        (fun r => (r.id, r.status, r.targets.map (·.status)))
          = [(1, .succeeded, [.succeeded, .succeeded])]
      ∧ ∀ r ∈ (Ledger.empty.run (haltedUpgrade ++ asking :: resumedUpgrade)).releases,
        ∀ s ∈ (Ledger.empty.run (haltedUpgrade ++ asking :: resumedUpgrade)).releases,
          r.active = true → s.active = true → r.component = s.component → r = s := by
  have hfailed : ∀ r ∈ (Ledger.empty.run haltedUpgrade).releases, r.status = .halted ∧ r.id = 1
      ∧ (r.target "tokyo").any (fun t => decide (t.status = .failedRecovered)) = true := by
    decide +kernel
  obtain ⟨-, -, hignored, -, hhalted, -, -⟩ := ledger_truthful haltedUpgrade _ rfl
  refine ⟨fun r hr => ?_, by decide +kernel, (ledger_truthful _ _ rfl).1⟩
  obtain ⟨hstatus, hid, hany⟩ := hfailed r hr
  obtain ⟨t, htarget, hsettled⟩ := (Option.any_eq_true _ _).mp hany
  have hsettled : t.status = .failedRecovered := of_decide_eq_true hsettled
  refine ⟨(hhalted r hr hstatus [asking] (by simp [asking, Transaction.retries])).1, ?_⟩
  refine hignored "tokyo" again none 50 r hr hid t htarget (.inr ⟨?_, ?_, ?_⟩)
  · rw [hsettled]
    rfl
  · simp [hsettled]
  · simp [hstatus]

end Brocade.Binary
