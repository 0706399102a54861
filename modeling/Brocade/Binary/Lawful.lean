/-
What holds of the ledger after any run of transactions.

A release keeps one row for a node, and a row's digest is the one that was approved for the
architecture it was claimed under.  A release that ended has no row to carry out.  Each of the
changes of `Change` keeps this, and none makes an ended release active again.
-/
import Brocade.Binary.Change

namespace Brocade.Binary

/-- The digest approved for an architecture. -/
def Release.approved (r : Release) (arch : String) : Option String :=
  (r.artifacts.find? fun a => a.arch = arch).map (·.sha256)

/-- The invariant of a release: one row a node, approved digests, and a status that fits the rows.
-/
structure Release.Lawful (r : Release) : Prop where
  nodes : (r.targets.map (·.nodeId)).Nodup
  approved : ∀ t ∈ r.targets, t.status ≠ .unsupported → ∀ desired, t.desired = some desired →
    ∃ arch, t.arch = some arch ∧ r.approved arch = some desired
  /-- An active release has something left to do. -/
  open_ : r.active = true → ∃ t ∈ r.targets, t.status ≠ .succeeded
  succeeded : r.status = .succeeded → ∀ t ∈ r.targets, t.status = .succeeded
  canceled : r.status = .canceled → ∀ t ∈ r.targets, Unfinished t.status = false

/-! ### Rows -/

section
variable {r r' : Release} {node : String} {t : Target} {f : Target → Target}

theorem mem_targets (h : r.target node = some t) : t ∈ r.targets :=
  List.mem_of_find?_eq_some h

theorem replaced_cases (hnodes : (r.targets.map (·.nodeId)).Nodup) (htarget : r.target node = some t)
    {s : Target} (hs : s ∈ Replaced r node f) :
    s = f t ∨ s ∈ r.targets ∧ s.nodeId ≠ node := by
  obtain ⟨u, hu, hsu⟩ := List.mem_map.mp hs
  by_cases hnode : u.nodeId = node
  · rw [if_pos hnode] at hsu
    have hut : u = t := List.inj_on_of_nodup_map hnodes hu (mem_targets htarget)
      (hnode.trans (target_node htarget).symm)
    exact .inl (hut ▸ hsu.symm)
  · rw [if_neg hnode] at hsu
    exact .inr (hsu ▸ ⟨hu, hnode⟩)

theorem mem_replaced (htarget : r.target node = some t) : f t ∈ Replaced r node f :=
  List.mem_map.mpr ⟨t, mem_targets htarget, if_pos (target_node htarget)⟩

theorem replaced_nodes (hf : ∀ t, (f t).nodeId = t.nodeId) :
    (Replaced r node f).map (·.nodeId) = r.targets.map (·.nodeId) := by
  unfold Replaced
  rw [List.map_map]
  refine List.map_congr_left fun s _ => ?_
  simp only [Function.comp_apply]
  split
  · exact hf s
  · rfl

theorem forall_replaced {P : Target → Prop} (hnodes : (r.targets.map (·.nodeId)).Nodup)
    (htarget : r.target node = some t) (hnew : P (f t)) (hold : ∀ s ∈ r.targets, P s) :
    ∀ s ∈ Replaced r node f, P s := by
  intro s hs
  rcases replaced_cases hnodes htarget hs with hs | ⟨hs, _⟩
  · exact hs ▸ hnew
  · exact hold s hs

theorem Same.approved (h : Same r r') (arch : String) : r'.approved arch = r.approved arch := by
  unfold Release.approved
  rw [h.artifacts]

end

/-! ### Verdicts -/

variable {t : Target} {now : ℤ} {tx : Transaction} {r r' : Release} {l : Ledger}

theorem judge_finished {report : ExecutionReport} {a : Attempt} {desired : String}
    {runtime : Option AgentRuntime} {error : Option String} {verdict : Verdict}
    (h : judge report t a desired runtime now error = .ok verdict) :
    Unfinished verdict.status = false ∧ verdict.status ≠ .canceled := by
  unfold judge at h
  cases report with
  | xray x =>
    unfold judgeXray at h
    dsimp only at h
    repeat' split at h
    all_goals cases h
    all_goals simp [Unfinished]
  | agent x =>
    unfold judgeAgent at h
    dsimp only at h
    repeat' split at h
    all_goals cases h
    all_goals simp [Unfinished]

theorem judge_succeeded {report : ExecutionReport} {a : Attempt} {desired : String}
    {runtime : Option AgentRuntime} {error : Option String} {verdict : Verdict}
    (h : judge report t a desired runtime now error = .ok verdict)
    (hsucceeded : verdict.status = .succeeded) :
    report.installed = some desired ∧ report.running = some desired
      ∧ (report.component = .xray → report.performed = true) := by
  unfold judge at h
  cases report with
  | xray x =>
    unfold judgeXray at h
    dsimp only at h
    split at h
    · split at h
      · cases h
      next hbytes =>
        split at h
        · injection h with h
          subst h
          cases hsucceeded
        next hproved =>
          simp only [not_or, not_not, Bool.not_eq_true', Bool.not_eq_false] at hbytes hproved
          exact ⟨hbytes.1, hproved.2.2.2, fun _ => hproved.1⟩
    · split at h
      · cases h
      · injection h with h
        subst h
        cases hsucceeded
    · injection h with h
      subst h
      cases hsucceeded
    · injection h with h
      subst h
      cases hsucceeded
  | agent x =>
    unfold judgeAgent at h
    dsimp only at h
    split at h
    · split at h
      · cases h
      next hbytes =>
        simp only [not_or, not_not] at hbytes
        exact ⟨hbytes.1, hbytes.2, fun h => by cases h⟩
    · split at h
      · injection h with h
        subst h
        cases hsucceeded
      · injection h with h
        subst h
        cases hsucceeded

section
variable {r r' : Release} {t : Target} {report : ExecutionReport} {desired : String}
  {verdict : Verdict}

theorem Accepted.finished (h : Accepted r t report desired verdict) :
    Unfinished verdict.status = false ∧ verdict.status ≠ .canceled := by
  obtain ⟨_, _, _, _, hjudged⟩ := h.judged
  exact judge_finished hjudged

theorem late_iff : late r t = true ↔
    (r.status = .canceled ∧ t.status = .canceled) ∧ t.desired.isSome = true := by
  simp [late]

theorem Accepted.supported (h : Accepted r t report desired verdict) : t.status ≠ .unsupported := by
  rcases h.open_ with ⟨_, hunfinished | ⟨hrecovering, _⟩⟩ | hlate
  · intro ht
    simp [ht, Unfinished] at hunfinished
  · intro ht
    simp [ht, recoveringAfterDirty] at hrecovering
  · intro ht
    have := (late_iff.mp hlate).1.2
    rw [ht] at this
    cases this

theorem Accepted.active (h : Accepted r t report desired verdict) (hlate : ¬ late r t = true) :
    r.active = true := by
  rcases h.open_ with ⟨hactive, _⟩ | hcanceled
  · exact hactive
  · exact absurd hcanceled hlate

theorem active_iff : r.active = true ↔ r.status = .running ∨ r.status = .halted := by
  simp [Release.active]

end

/-! ### What a change keeps -/

theorem Change.ended (h : Change tx r r') (hended : r.active = false) : r'.status = r.status := by
  have hinactive : r.active ≠ true := by simp [hended]
  cases h with
  | dispatched _ hrunning _ _ _ _ hstatus _ => exact hstatus.trans hrunning.symm
  | unsupported _ hrunning _ _ _ _ _ => exact absurd (active_iff.mpr (.inl hrunning)) hinactive
  | settled t _ haccepted _ _ _ hstatus =>
    by_cases hlate : late r t = true
    · rw [if_pos hlate] at hstatus
      exact hstatus
    · exact absurd (haccepted.active hlate) hinactive
  | retried _ hactive _ _ _ _ _ => exact absurd hactive hinactive
  | canceled hactive _ _ _ _ => exact absurd hactive hinactive

theorem Change.active (h : Change tx r r') (hactive : r'.active = true) : r.active = true := by
  by_contra hended
  rw [Bool.not_eq_true] at hended
  have hstatus := h.ended hended
  unfold Release.active at hactive hended
  rw [hstatus, hended] at hactive
  cases hactive

theorem canceled_row :
    (if Unfinished t.status = true then { t with status := .canceled, finishedAt := some now }
      else t) = t ∧ Unfinished t.status = false
    ∨ Unfinished t.status = true
      ∧ (if Unfinished t.status = true then { t with status := .canceled, finishedAt := some now }
        else t) = { t with status := .canceled, finishedAt := some now } := by
  by_cases h : Unfinished t.status = true
  · exact .inr ⟨h, if_pos h⟩
  · exact .inl ⟨if_neg h, by simpa using h⟩

section

variable (h : Change tx r r')

include h

theorem Change.nodes : r'.targets.map (·.nodeId) = r.targets.map (·.nodeId) := by
  cases h with
  | dispatched _ _ _ _ _ _ _ htargets =>
    rw [htargets]
    exact replaced_nodes fun _ => rfl
  | unsupported _ _ _ _ _ _ htargets =>
    rw [htargets]
    exact replaced_nodes fun _ => rfl
  | settled t _ _ _ htargets _ _ =>
    rw [htargets]
    exact replaced_nodes fun _ => rfl
  | retried _ _ _ _ _ _ htargets =>
    rw [htargets]
    exact replaced_nodes fun _ => rfl
  | canceled _ _ _ _ htargets =>
    rw [htargets, List.map_map]
    refine List.map_congr_left fun t _ => ?_
    simp only [Function.comp_apply]
    split
    · rfl
    · rfl

theorem Change.approved (hlawful : r.Lawful) : ∀ t ∈ r'.targets, t.status ≠ .unsupported →
      ∀ desired, t.desired = some desired →
        ∃ arch, t.arch = some arch ∧ r'.approved arch = some desired := by
  simp only [h.same.approved]
  cases h with
  | dispatched dispatchedAt _ htarget _ hartifact _ _ htargets =>
    rw [htargets]
    refine forall_replaced hlawful.nodes htarget ?_ hlawful.approved
    intro _ desired hdesired
    have harch := List.find?_some hartifact
    refine ⟨_, rfl, ?_⟩
    rw [decide_eq_true_eq] at harch
    rw [Release.approved, harch, hartifact]
    exact hdesired
  | unsupported error _ htarget _ _ _ htargets =>
    rw [htargets]
    exact forall_replaced hlawful.nodes htarget (fun h => absurd rfl h) hlawful.approved
  | settled t htarget haccepted _ htargets _ _ =>
    rw [htargets]
    refine forall_replaced hlawful.nodes htarget ?_ hlawful.approved
    intro _ desired hdesired
    exact hlawful.approved _ (mem_targets htarget) haccepted.supported desired hdesired
  | retried _ _ htarget _ _ _ htargets =>
    rw [htargets]
    refine forall_replaced hlawful.nodes htarget ?_ hlawful.approved
    intro _ desired hdesired
    simp only [Target.retry] at hdesired ⊢
    split at hdesired
    · cases hdesired
    next hsupported =>
      rw [if_neg hsupported]
      exact hlawful.approved _ (mem_targets htarget) hsupported desired hdesired
  | canceled _ _ _ _ htargets =>
    rw [htargets]
    intro s hs hsupported desired hdesired
    obtain ⟨t, ht, hst⟩ := List.mem_map.mp hs
    rcases canceled_row (t := t) with ⟨hrow, _⟩ | ⟨hunfinished, hrow⟩
    · rw [hrow] at hst
      exact hlawful.approved s (hst ▸ ht) hsupported desired hdesired
    · rw [hrow] at hst
      subst hst
      refine hlawful.approved t ht ?_ desired hdesired
      intro hstatus
      simp [hstatus, Unfinished] at hunfinished

theorem Change.open_ (hactive : r'.active = true) : ∃ t ∈ r'.targets, t.status ≠ .succeeded := by
  have hbefore := h.active hactive
  cases h with
  | dispatched dispatchedAt _ htarget _ _ _ _ htargets =>
    rw [htargets]
    exact ⟨_, mem_replaced htarget, by simp⟩
  | unsupported error _ htarget _ _ _ htargets =>
    rw [htargets]
    exact ⟨_, mem_replaced htarget, by simp⟩
  | settled t _ _ _ _ _ hstatus =>
    by_cases hlate : late r t = true
    · rw [active_iff, (late_iff.mp hlate).1.1] at hbefore
      simp at hbefore
    · rw [if_neg hlate] at hstatus
      by_cases hall : r'.targets.all (fun t => t.status = .succeeded) = true
      · rw [if_pos hall] at hstatus
        rw [active_iff, hstatus] at hactive
        simp at hactive
      · simpa using hall
  | retried _ _ htarget _ _ _ htargets =>
    rw [htargets]
    exact ⟨_, mem_replaced htarget, by simp [Target.retry]⟩
  | canceled _ _ _ hstatus _ =>
    rw [active_iff, hstatus] at hactive
    simp at hactive

theorem Change.succeeded (hstatus : r'.status = .succeeded) :
    ∀ t ∈ r'.targets, t.status = .succeeded := by
  cases h with
  | dispatched _ _ _ _ _ _ hrunning _ => simp [hrunning] at hstatus
  | unsupported _ _ _ _ _ hhalted _ => simp [hhalted] at hstatus
  | settled t _ haccepted _ _ _ hend =>
    by_cases hlate : late r t = true
    · rw [if_pos hlate, (late_iff.mp hlate).1.1, hstatus] at hend
      cases hend
    · rw [if_neg hlate] at hend
      by_cases hall : r'.targets.all (fun t => t.status = .succeeded) = true
      · simpa using hall
      · have hactive := active_iff.mp (haccepted.active hlate)
        rw [if_neg hall, hstatus] at hend
        split at hend
        · cases hend
        · rw [← hend] at hactive
          simp at hactive
  | retried _ _ _ _ _ hrunning _ => simp [hrunning] at hstatus
  | canceled _ _ _ hcanceled _ => simp [hcanceled] at hstatus

theorem Change.canceled_rows (hlawful : r.Lawful) (hstatus : r'.status = .canceled) :
    ∀ t ∈ r'.targets, Unfinished t.status = false := by
  cases h with
  | dispatched _ _ _ _ _ _ hrunning _ => simp [hrunning] at hstatus
  | unsupported _ _ _ _ _ hhalted _ => simp [hhalted] at hstatus
  | settled t htarget haccepted _ htargets _ hend =>
    by_cases hlate : late r t = true
    · rw [htargets]
      exact forall_replaced hlawful.nodes htarget haccepted.finished.1
        (hlawful.canceled (late_iff.mp hlate).1.1)
    · have hactive := active_iff.mp (haccepted.active hlate)
      rw [if_neg hlate, hstatus] at hend
      split at hend
      · cases hend
      · split at hend
        · cases hend
        · rw [← hend] at hactive
          simp at hactive
  | retried _ _ _ _ _ hrunning _ => simp [hrunning] at hstatus
  | canceled _ _ _ _ htargets =>
    rw [htargets]
    intro s hs
    obtain ⟨t, _, hst⟩ := List.mem_map.mp hs
    rcases canceled_row (t := t) with ⟨hrow, hfinished⟩ | ⟨_, hrow⟩
    · rw [hrow] at hst
      exact hst ▸ hfinished
    · rw [hrow] at hst
      subst hst
      simp [Unfinished]

theorem Change.lawful (hlawful : r.Lawful) : r'.Lawful where
  nodes := h.nodes ▸ hlawful.nodes
  approved := h.approved hlawful
  open_ := h.open_
  succeeded := h.succeeded
  canceled := h.canceled_rows hlawful

end

theorem Fresh.lawful (h : Fresh l r) : r.Lawful where
  nodes := h.nodes
  approved t ht _ desired hdesired := by
    rw [(h.pending t ht).2] at hdesired
    cases hdesired
  open_ _ := by
    obtain ⟨t, ht⟩ := List.exists_mem_of_ne_nil _ h.nonempty
    exact ⟨t, ht, by simp [(h.pending t ht).1]⟩
  succeeded hstatus := by simp [h.status] at hstatus
  canceled hstatus := by simp [h.status] at hstatus

/-! ### The ledger -/

/-- The invariant of the ledger: at most one active release of a component, each lawful. -/
structure Ledger.Lawful (l : Ledger) : Prop where
  ids : (l.releases.map (·.id)).Nodup
  bound : ∀ r ∈ l.releases, r.id < l.nextId
  single : ∀ r ∈ l.releases, ∀ s ∈ l.releases, r.active = true → s.active = true →
    r.component = s.component → r = s
  each : ∀ r ∈ l.releases, r.Lawful

theorem Ledger.Lawful.empty : Ledger.empty.Lawful := by
  constructor <;> simp [Ledger.empty]

theorem Ledger.Lawful.eq_of_id (h : l.Lawful) {s : Release} (hr : r ∈ l.releases)
    (hs : s ∈ l.releases) (hid : r.id = s.id) : r = s :=
  List.inj_on_of_nodup_map h.ids hr hs hid

theorem kept_or_changed (h : r' = r ∨ Change tx r r') :
    Same r r' ∧ (r'.active = true → r.active = true) ∧ (r.Lawful → r'.Lawful) := by
  rcases h with h | h
  · rw [h]
    exact ⟨⟨rfl, rfl, rfl⟩, id, id⟩
  · exact ⟨h.same, h.active, h.lawful⟩

theorem Ledger.Lawful.evolves {l' : Ledger} (h : l.Lawful) (hevolves : Evolves tx l l') :
    l'.Lawful := by
  rcases hevolves with ⟨hnext, f, hreleases, hf⟩ | ⟨hnext, r, hreleases, hfresh⟩
  · have hids : l'.releases.map (·.id) = l.releases.map (·.id) := by
      rw [hreleases, List.map_map]
      exact List.map_congr_left fun r hr => (kept_or_changed (hf r hr)).1.id
    refine ⟨hids ▸ h.ids, ?_, ?_, ?_⟩
    · intro s hs
      rw [hreleases] at hs
      obtain ⟨r, hr, rfl⟩ := List.mem_map.mp hs
      rw [(kept_or_changed (hf r hr)).1.id, hnext]
      exact h.bound r hr
    · intro s hs u hu hsactive huactive hcomponent
      rw [hreleases] at hs hu
      obtain ⟨r, hr, rfl⟩ := List.mem_map.mp hs
      obtain ⟨q, hq, rfl⟩ := List.mem_map.mp hu
      have hrkept := kept_or_changed (hf r hr)
      have hqkept := kept_or_changed (hf q hq)
      rw [h.single r hr q hq (hrkept.2.1 hsactive) (hqkept.2.1 huactive)
        (hrkept.1.component ▸ hqkept.1.component ▸ hcomponent)]
    · intro s hs
      rw [hreleases] at hs
      obtain ⟨r, hr, rfl⟩ := List.mem_map.mp hs
      exact (kept_or_changed (hf r hr)).2.2 (h.each r hr)
  · have hlt : ∀ s ∈ l.releases, s.id < r.id := fun s hs => hfresh.id ▸ h.bound s hs
    refine ⟨?_, ?_, ?_, ?_⟩
    · rw [hreleases, List.map_append, List.nodup_append]
      refine ⟨h.ids, List.nodup_singleton _, ?_⟩
      intro a ha b hb
      obtain ⟨s, hs, rfl⟩ := List.mem_map.mp ha
      rw [List.map_singleton, List.mem_singleton] at hb
      rw [hb]
      exact ne_of_lt (hlt s hs)
    · intro s hs
      rw [hnext]
      rcases List.mem_append.mp (hreleases ▸ hs) with hs | hs
      · have := h.bound s hs
        omega
      · rw [List.mem_singleton.mp hs, hfresh.id]
        omega
    · intro s hs u hu hsactive huactive hcomponent
      rw [hreleases, List.mem_append, List.mem_singleton] at hs hu
      rcases hs with hs | hs
      · rcases hu with hu | hu
        · exact h.single s hs u hu hsactive huactive hcomponent
        · have := hfresh.single s hs (hu ▸ hcomponent)
          rw [this] at hsactive
          cases hsactive
      · rcases hu with hu | hu
        · have := hfresh.single u hu (hs ▸ hcomponent.symm)
          rw [this] at huactive
          cases huactive
        · rw [hs, hu]
    · intro s hs
      rw [hreleases, List.mem_append, List.mem_singleton] at hs
      rcases hs with hs | hs
      · exact h.each s hs
      · exact hs ▸ hfresh.lawful

theorem Ledger.Lawful.step (h : l.Lawful) (tx : Transaction) : (l.step tx).Lawful :=
  h.evolves (step_evolves h.ids tx)

/-- Transactions one after the other. -/
def Ledger.run (l : Ledger) (txs : List Transaction) : Ledger := txs.foldl Ledger.step l

theorem Ledger.Lawful.run {txs : List Transaction} :
    ∀ {l : Ledger}, l.Lawful → (l.run txs).Lawful := by
  induction txs with
  | nil => exact fun h => h
  | cons tx rest ih => exact fun h => ih (h.step tx)

end Brocade.Binary
