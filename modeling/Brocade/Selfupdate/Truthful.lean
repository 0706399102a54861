/-
Every round keeps the log lawful, whatever it meets.

Each operation is taken once, with what holds when it answers, when it fails and when the round
is cut off there.  The entries that need an argument are four: the replacement, for which the
guard has looked at everything before; the report, made of what was read; the removal of the
receipt, after the Console's answer; and the beginning of a replacement, where no receipt is.

A report of failure may be made although the new binary is in place, where the file could not be
read; `Round.blind` names these rounds.
-/
import Brocade.Selfupdate.Receipt

namespace Brocade.Selfupdate

open Faulty

variable {β : Type} {p : Platform β} {strict : Prop} {running path : String}

/-- A read on which a report or the end of the process depends fails, and the file read holds the
bytes on offer.  A rename that the round does not come to answers nothing: nothing else reads it, so
a round is to be given with an ineffective one there, and `blind` then says what was reached. -/
def Round.blind (p : Platform β) (m : Machine β) (env : Round β) : Bool :=
  match m.pending with
  | some pending => pending.report.isNone && !env.installedRead
      && decide (p.sha256 m.installed.bytes = pending.offer.sha256)
  | none =>
    match env.offer with
    | .answered _ (.ok offer) => offer.tracked
        && (if m.process.any fun process => process.running = some offer.sha256 then
            !env.bootstrapRead && decide (p.sha256 m.installed.bytes = offer.sha256)
          else !env.outcomeRead
            && (env.rename.effective || decide (p.sha256 m.installed.bytes = offer.sha256)))
    | _ => false

/-! ### Operations -/

section
variable {P P' C : Machine β → Prop} {R : Unit → Machine β → Prop} {F : String → Machine β → Prop}

theorem operate_spec {fault : Fault String} {wrap : String → String} {f : Machine β → Machine β}
    (hok : ∀ m, P m → R () (f m)) (hfail : ∀ m, P m → P' m ∧ P' (f m))
    (hcrash : ∀ m, P m → C m ∧ C (f m)) : Triple P (operate fault wrap f) R (fun _ => P') C := by
  refine Triple.perform_map (fun _ => hok) (fun _ m hm => ?_) fun m hm => ?_
  · split
    · exact (hfail m hm).2
    · exact (hfail m hm).1
  · split
    · exact (hcrash m hm).2
    · exact (hcrash m hm).1

theorem operate_id {fault : Fault String} {wrap : String → String} (hcrash : ∀ m, P m → C m) :
    Triple P (operate fault wrap id) (fun _ => P) (fun _ => P) C :=
  operate_spec (fun _ hm => hm) (fun _ hm => ⟨hm, hm⟩) fun m hm => ⟨hcrash m hm, hcrash m hm⟩

theorem ignore_spec {fault : Fault String} {f : Machine β → Machine β} (hf : ∀ m, P m → P (f m))
    (hcrash : ∀ m, P m → C m) : Triple P (ignore fault f) (fun _ => P) F C := by
  refine Triple.bind (Q := fun _ => P) (Triple.attempt ?_) fun _ _ hm => hm
  exact operate_spec hf (fun m hm => ⟨hm, hf m hm⟩) fun m hm => ⟨hcrash m hm, hcrash _ (hf m hm)⟩

theorem ensure_spec (error : Option String) (wrap : String → String) :
    Triple P (ensure error wrap : Cycle β Unit) (fun _ => P) (fun _ => P) C := by
  cases error with
  | none => exact fun _ hm => hm
  | some error => exact fun _ hm => hm

theorem fileSha256_spec (readable : Bool) (target : String) :
    Triple P (fileSha256 p readable target)
      (fun installed m => P m ∧ installed
        = if readable && decide (target = m.path) then some (p.sha256 m.installed.bytes) else none)
      F C :=
  fun _ hm => ⟨hm, rfl⟩

/-- What a predicate has to survive to be kept over notes. -/
def Steady (X : Machine β → Prop) : Prop :=
  ∀ m entry, Entry.Plain entry → X m → X (m.note entry)

theorem fetchOffer_spec {X : Machine β → Prop} (hX : Steady X)
    (response : Response AgentReleaseOffer) :
    Triple (fun m => Going p strict running path m ∧ X m) (fetchOffer response)
      (fun offer m => (Going p strict running path m ∧ X m) ∧ lastFetched m.log = offer
        ∧ ∀ o, offer = some o → ∃ status, response = .answered status (.ok o))
      (fun _ m => Going p strict running path m ∧ X m) C := by
  have hnote (offer : Option AgentReleaseOffer) (m : Machine β)
      (hm : Going p strict running path m ∧ X m) :
      Going p strict running path (m.note (.fetched offer)) ∧ X (m.note (.fetched offer)) :=
    ⟨hm.1.note trivial trivial, hX _ _ trivial hm.2⟩
  unfold fetchOffer
  cases response with
  | lost error => exact fun _ hm => hm
  | answered status body =>
    dsimp only
    split
    next =>
      refine Triple.bind (Q := fun _ m => (Going p strict running path m ∧ X m)
        ∧ lastFetched m.log = none) (Triple.modify fun m hm => ⟨hnote none m hm, rfl⟩) ?_
      exact fun _ _ hm => ⟨hm.1, hm.2, fun o ho => by cases ho⟩
    next =>
      split
      next => exact fun _ hm => hm
      next =>
        cases body with
        | error error => exact fun _ hm => hm
        | ok offer =>
          refine Triple.bind (Q := fun _ m => (Going p strict running path m ∧ X m)
            ∧ lastFetched m.log = some offer)
            (Triple.modify fun m hm => ⟨hnote (some offer) m hm, rfl⟩) ?_
          refine fun _ _ hm => ⟨hm.1, hm.2, fun o ho => ⟨status, ?_⟩⟩
          rw [Option.some.inj ho]

theorem writePending_spec {fault : Fault String} (pending : PendingUpdate)
    {X : Machine β → Prop} (htarget : pending.target = path)
    (hX : ∀ m, X m → X ({ m with pending := some pending }.note (.wrote pending))) :
    Triple (fun m => Going p strict running path m ∧ X m) (writePending fault pending)
      (fun _ m => (Going p strict running path m ∧ X m) ∧ m.pending = some pending)
      (fun _ m => Going p strict running path m ∧ X m) (Inv p strict) := by
  refine operate_spec (fun m hm => ⟨⟨hm.1.wrote htarget, hX m hm.2⟩, rfl⟩)
    (fun m hm => ⟨hm, hm.1.wrote htarget, hX m hm.2⟩)
    fun m hm => ⟨hm.1.inv, (hm.1.wrote htarget).inv⟩

/-! ### Reports -/

theorem resultReport_ok {offer : AgentReleaseOffer} {installed : Option String}
    {performed : Bool} {error : Option String} {report : AgentReleaseReport}
    (h : resultReport offer running installed performed error = .ok report) :
    (some report.releaseId = offer.releaseId ∧ some report.attempt = offer.attempt)
      ∧ report.performedUpdate = performed
      ∧ (report.outcome = .running → running = offer.sha256 ∧ installed = some running)
      ∧ (report.outcome = .failed → error.isNone = true → running = offer.sha256 →
        installed ≠ some running) := by
  unfold resultReport at h
  cases hid : offer.releaseId with
  | none => simp [hid] at h
  | some releaseId =>
    cases hattempt : offer.attempt with
    | none => simp [hid, hattempt] at h
    | some attempt =>
      simp only [hid, hattempt, Except.ok.injEq] at h
      subst h
      refine ⟨⟨rfl, rfl⟩, rfl, fun houtcome => ?_, fun houtcome hnone hrunning heq => ?_⟩
      · by_contra hc
        simp only [Bool.and_eq_true, decide_eq_true_eq] at houtcome
        rw [if_neg (fun hh => hc ⟨hh.1.2, hh.2⟩)] at houtcome
        cases houtcome
      · simp [hnone, hrunning, heq] at houtcome

theorem createReport_spec (p : Platform β) (strict : Prop) (path : String) {X : Machine β → Prop}
    (hX : Steady X) {offer : AgentReleaseOffer} {installed : Option String} {performed : Bool}
    {error : Option String}
    (hread : ∀ m, X m → ∀ digest, installed = some digest → digest = p.sha256 m.installed.bytes)
    (hprepared : performed = true → ∀ m, X m → Going p strict running path m →
      ∃ target, Entry.wrote ⟨offer, target, none⟩ ∈ m.log) (hfailed : strict → ∀ m, X m →
      (error.isNone = true → running = offer.sha256 → installed ≠ some running) →
      p.sha256 m.installed.bytes ≠ offer.sha256) :
    Triple (fun m => Going p strict running path m ∧ X m)
      (createReport offer running installed performed error)
      (fun _ m => (Going p strict running path m ∧ X m))
      (fun _ m => Going p strict running path m ∧ X m) C := by
  unfold createReport
  cases hreport : resultReport offer running installed performed error with
  | error error => exact fun _ hm => hm
  | ok report =>
    obtain ⟨hids, hperformed, hrunning, hfail⟩ := resultReport_ok hreport
    refine Triple.bind (Q := fun _ m => Going p strict running path m ∧ X m)
      (Triple.modify fun m hm => ⟨hm.1.note trivial ⟨hids, ?_, ?_, ?_⟩, hX _ _ trivial hm.2⟩)
      fun _ _ hm => hm
    · intro houtcome
      obtain ⟨hoffer, hinstalled⟩ := hrunning houtcome
      have hdigest := hread m hm.2 running hinstalled
      rw [← hdigest, hm.1.runs, hoffer]
      exact ⟨rfl, rfl⟩
    · intro hp
      exact hprepared (hperformed ▸ hp) m hm.2 hm.1
    · intro hst houtcome
      exact hfailed hst m hm.2 (hfail houtcome)

theorem sendPending_spec {env : Round β} {report : AgentReleaseReport} :
    Triple (fun m => Going p strict running path m
        ∧ ∃ pending, m.pending = some pending ∧ pending.report = some report)
      (sendPending env report) (fun _ => Going p strict running path)
      (fun _ => Going p strict running path) (Inv p strict) := by
  unfold sendPending
  refine Triple.bind (Q := fun _ m => Going p strict running path m
    ∧ ∃ pending, m.pending = some pending ∧ pending.report = some report)
    (Triple.modify fun m hm => ⟨hm.1.note trivial trivial, hm.2⟩) fun _ => ?_
  cases env.answer with
  | lost error => exact fun _ hm => hm.1
  | answered status body =>
    refine Triple.bind (Q := fun _ m => (Going p strict running path m
      ∧ ∃ pending, m.pending = some pending ∧ pending.report = some report)
      ∧ lastAnswer m.log = some (report, status))
      (Triple.modify fun m hm => ⟨⟨hm.1.note trivial trivial, hm.2⟩, rfl⟩) fun _ => ?_
    split
    next => exact fun _ hm => hm.1.1
    next hstatus =>
      cases body with
      | error error => exact fun _ hm => hm.1.1
      | ok accepted =>
        have hremoved (m : Machine β) (hm : (Going p strict running path m
            ∧ ∃ pending, m.pending = some pending ∧ pending.report = some report)
            ∧ lastAnswer m.log = some (report, status)) :
            Going p strict running path ({ m with pending := none }.note .removed) := by
          obtain ⟨⟨hgoing, pending, hpending, hreport⟩, hanswer⟩ := hm
          refine hgoing.removed ⟨pending, report, status, ?_, hreport, hanswer, ?_⟩
          · rw [hgoing.inv.pending, hpending]
          · simpa using hstatus
        exact operate_spec hremoved (fun m hm => ⟨hm.1.1, hremoved m hm⟩)
          fun m hm => ⟨hm.1.1.inv, (hremoved m hm).inv⟩

end

/-! ### A receipt that is there -/

theorem resume_spec {env : Round β} {pending : PendingUpdate} (before : File β)
    (htarget : pending.target = path)
    (hblind : strict → pending.report = none → env.installedRead = true
      ∨ p.sha256 before.bytes ≠ pending.offer.sha256) :
    Triple (fun m => Going p strict running path m ∧ m.installed = before
        ∧ m.pending = some pending) (resume p env running pending)
      (fun _ => Going p strict running path) (fun _ => Going p strict running path)
      (Inv p strict) := by
  unfold resume
  cases hreport : pending.report with
  | some report =>
    refine Triple.bind (Q := fun _ => Going p strict running path)
      (sendPending_spec.pre (fun m hm => ⟨hm.1, pending, hm.2.2, hreport⟩)) fun _ _ hm => hm
  | none =>
    refine Triple.bind (fileSha256_spec _ _) fun installed => ?_
    split
    next => exact fun _ hm => hm.1.1
    next hstay =>
      -- what holds while the report is made
      let X : Machine β → Prop := fun m => m.path = path ∧ m.installed = before
        ∧ m.pending = some pending ∧ installed
          = if env.installedRead && decide (pending.target = m.path) then
              some (p.sha256 m.installed.bytes) else none
      have hX : Steady X := fun _ _ _ hm => hm
      refine Triple.bind (Q := fun report m => Going p strict running path m
        ∧ m.installed = before) ?_ fun report => ?_
      · refine (createReport_spec p strict path hX ?_ ?_ ?_).weaken
          (fun m hm => ⟨hm.1.1, hm.1.1.path, hm.1.2.1, hm.1.2.2, hm.2⟩)
          (fun _ _ hm => ⟨hm.1, hm.2.2.1⟩) (fun _ _ hm => hm.1) fun _ hm => hm
        · intro m hm digest hdigest
          rw [hm.2.2.2] at hdigest
          split at hdigest
          · exact (Option.some.inj hdigest).symm
          · cases hdigest
        · intro _ m hm hgoing
          refine ⟨pending.target, ?_⟩
          have hmem := wrote_mem_of_openPending (hgoing.inv.pending.trans hm.2.2.1)
          have hsame : pending = ⟨pending.offer, pending.target, none⟩ := by rw [← hreport]
          rwa [hsame] at hmem
        · intro hst m hm hfail heq
          rcases hblind hst hreport with hreads | hother
          · have hinstalled : installed = some pending.offer.sha256 := by
              rw [hm.2.2.2, hreads, hm.1, htarget, heq]
              simp
            have hrunning : running = pending.offer.sha256 := by
              by_contra hne
              exact hstay ⟨hinstalled, hne⟩
            exact hfail rfl hrunning (hrunning ▸ hinstalled)
          · exact hother (hm.2.1 ▸ heq)
      · refine Triple.bind (Q := fun _ m => (Going p strict running path m ∧ m.installed = before)
          ∧ m.pending = some { pending with report := some report })
          ((writePending_spec { pending with report := some report }
            (X := fun m => m.installed = before) htarget fun _ hm => hm).failing
              (fun _ _ hm => hm.1)) fun _ => ?_
        refine Triple.bind (Q := fun _ => Going p strict running path)
          (sendPending_spec.pre (fun m hm => ⟨hm.1.1, _, hm.2, rfl⟩)) fun _ _ hm => hm

/-! ### No receipt yet -/

variable {offer : AgentReleaseOffer}

theorem observed_spec {env : Round β} (before : File β) (hrunning : offer.sha256 = running)
    (hblind : strict → offer.tracked = true → env.bootstrapRead = true
      ∨ p.sha256 before.bytes ≠ offer.sha256) :
    Triple (fun m => Going p strict running path m ∧ m.installed = before)
      (observed p env offer running path) (fun _ => Going p strict running path)
      (fun _ => Going p strict running path) (Inv p strict) := by
  unfold observed
  split
  next htracked =>
    refine Triple.bind (fileSha256_spec _ _) fun installed => ?_
    let X : Machine β → Prop := fun m => m.path = path ∧ m.installed = before
      ∧ installed = if env.bootstrapRead && decide (path = m.path) then
          some (p.sha256 m.installed.bytes) else none
    have hX : Steady X := fun _ _ _ hm => hm
    refine Triple.bind (Q := fun report m => Going p strict running path m
      ∧ m.installed = before) ?_ fun report => ?_
    · refine (createReport_spec p strict path hX ?_ ?_ ?_).weaken
        (fun m hm => ⟨hm.1.1, hm.1.1.path, hm.1.2, hm.2⟩)
        (fun _ _ hm => ⟨hm.1, hm.2.2.1⟩) (fun _ _ hm => hm.1) fun _ hm => hm
      · intro m hm digest hdigest
        rw [hm.2.2] at hdigest
        split at hdigest
        · exact (Option.some.inj hdigest).symm
        · cases hdigest
      · intro hp
        cases hp
      · intro hst m hm hfail heq
        rcases hblind hst htracked with hreads | hother
        · refine hfail rfl hrunning.symm ?_
          rw [hm.2.2, hreads, hm.1, heq, hrunning]
          simp
        · exact hother (hm.2.1 ▸ heq)
    · refine Triple.bind (Q := fun _ m => (Going p strict running path m
        ∧ m.installed = before) ∧ m.pending = some ⟨offer, path, some report⟩)
        ((writePending_spec ⟨offer, path, some report⟩ (X := fun m => m.installed = before) rfl
          fun _ hm => hm).failing (fun _ _ hm => hm.1)) fun _ => ?_
      refine Triple.bind (Q := fun _ => Going p strict running path)
        (sendPending_spec.pre (fun m hm => ⟨hm.1.1, _, hm.2, rfl⟩)) fun _ _ hm => hm
  next => exact fun _ hm => hm.1

/-! ### A replacement -/

/-- The binary is the one from before the round, unless the rename took effect. -/
def Kept (env : Round β) (before : File β) (m : Machine β) : Prop :=
  m.installed = before ∨ env.rename.effective = true

/-- A report of failure is made only where other bytes than those on offer are installed. -/
theorem failedOutcome_spec {env : Round β} {error : String} (before : File β)
    (hblind : strict → offer.tracked = true → env.outcomeRead = true
      ∨ env.rename.effective = false ∧ p.sha256 before.bytes ≠ offer.sha256) :
    Triple (fun m => Going p strict running path m ∧ Kept env before m)
      (failedOutcome p env offer running path error) (fun _ => Going p strict running path)
      (fun _ => Going p strict running path) (Inv p strict) := by
  unfold failedOutcome
  refine Triple.bind (fileSha256_spec _ _) fun first => ?_
  split
  next => exact fun _ hm => hm.1.1
  next hstay =>
    refine Triple.bind (Q := fun _ => Going p strict running path) ?_ fun _ _ hm => hm
    split
    next htracked =>
      refine Triple.bind (fileSha256_spec _ _) fun installed => ?_
      let X : Machine β → Prop := fun m => (m.path = path ∧ Kept env before m
        ∧ first = if env.outcomeRead && decide (path = m.path) then
            some (p.sha256 m.installed.bytes) else none)
        ∧ installed = if env.reportRead && decide (path = m.path) then
            some (p.sha256 m.installed.bytes) else none
      have hX : Steady X := fun _ _ _ hm => hm
      refine Triple.bind (Q := fun _ => Going p strict running path) ?_ fun report => ?_
      · refine (createReport_spec p strict path hX ?_ ?_ ?_).weaken
          (fun m hm => ⟨hm.1.1.1, ⟨hm.1.1.1.path, hm.1.1.2, hm.1.2⟩, hm.2⟩)
          (fun _ _ hm => hm.1) (fun _ _ hm => hm.1) fun _ hm => hm
        · intro m hm digest hdigest
          rw [hm.2] at hdigest
          split at hdigest
          · exact (Option.some.inj hdigest).symm
          · cases hdigest
        · intro hp
          cases hp
        · intro hst m hm _ heq
          rcases hblind hst htracked with hreads | ⟨hrename, hother⟩
          · refine hstay ⟨htracked, ?_⟩
            rw [hm.1.2.2, hreads, hm.1.1, heq]
            simp
          · rcases hm.1.2.1 with hkept | heffective
            · exact hother (hkept ▸ heq)
            · rw [hrename] at heffective
              cases heffective
      · refine Triple.bind (Q := fun _ m => (Going p strict running path m ∧ True)
          ∧ m.pending = some ⟨offer, path, some report⟩)
          ((writePending_spec ⟨offer, path, some report⟩ (X := fun _ => True) rfl
            fun _ hm => hm).weaken
            (fun _ hm => ⟨hm, trivial⟩) (fun _ _ hm => hm) (fun _ _ hm => hm.1) fun _ hm => hm)
          fun _ => ?_
        exact sendPending_spec.pre fun m hm => ⟨hm.1.1, _, hm.2, rfl⟩
    next => exact fun _ hm => hm.1.1

/-- Before the rename: no receipt, and the binary from before the round. -/
def Staging (p : Platform β) (strict : Prop) (running path : String) (before : File β)
    (m : Machine β) : Prop :=
  Going p strict running path m ∧ m.pending = none ∧ m.installed = before

theorem Staging.files {before : File β} {m : Machine β}
    (h : Staging p strict running path before m) (download staging : Option β) :
    Staging p strict running path before { m with download := download, staging := staging } :=
  ⟨h.1.files m.installed download staging, h.2⟩

theorem discard_spec {env : Round β} {X : Machine β → Prop} {F : String → Machine β → Prop}
    (hX : ∀ m, X m → X { m with staging := none }) :
    Triple (fun m => Going p strict running path m ∧ X m) (discard env)
      (fun _ m => Going p strict running path m ∧ X m) F (Inv p strict) :=
  ignore_spec (fun m hm => ⟨hm.1.files m.installed m.download none, hX m hm.2⟩)
    fun _ hm => hm.1.inv

theorem discard_fail {env : Round β} {X : Machine β → Prop} {α : Type} {error : String}
    {R : α → Machine β → Prop} (hX : ∀ m, X m → X { m with staging := none }) :
    Triple (fun m => Going p strict running path m ∧ X m)
      (do
        discard env
        Act.fail error)
      R (fun _ m => Going p strict running path m ∧ X m) (Inv p strict) :=
  Triple.bind (discard_spec hX) fun _ _ hm => hm

theorem stageRelease_spec {env : Round β} (before : File β) :
    Triple (Staging p strict running path before) (stageRelease p env offer path)
      (fun _ m => Staging p strict running path before m
        ∧ ∃ bytes, m.staging = some bytes ∧ p.sha256 bytes = offer.sha256)
      (fun _ => Staging p strict running path before) (Inv p strict) := by
  unfold stageRelease
  refine Triple.bind (Q := fun _ => Staging p strict running path before)
    (operate_spec (fun m hm => hm.files _ _) (fun m hm => ⟨hm, hm.files _ _⟩)
      fun m hm => ⟨hm.1.inv, (hm.files (some env.downloaded) m.staging).1.inv⟩) fun _ => ?_
  refine Triple.bind (Q := fun _ => Staging p strict running path before)
    (ensure_spec _ _) fun _ => ?_
  refine Triple.bind Triple.get fun m₀ => ?_
  split
  next => exact fun _ hm => hm.2
  next bytes hbytes =>
    split
    next => exact fun _ hm => hm.2
    next hgot =>
      -- the download stays what it was when its digest was taken
      let Checked : Machine β → Prop := fun m => Staging p strict running path before m
        ∧ m.download = some bytes
      let Copied : Machine β → Prop := fun m => Staging p strict running path before m
        ∧ m.staging = some bytes
      refine Triple.bind (Q := fun _ => Checked)
        ((operate_id fun m (hm : Checked m) => hm.1.1.inv).weaken
          (fun m hm => ⟨hm.2, by rw [← hm.1]; exact hbytes⟩) (fun _ _ hm => hm)
          (fun _ _ hm => hm.1) fun _ hm => hm) fun _ => ?_
      refine Triple.bind (Q := fun _ => Checked)
        ((operate_id fun m (hm : Checked m) => hm.1.1.inv).failing (fun _ _ hm => hm.1)) fun _ => ?_
      refine Triple.bind (Q := fun _ => Checked)
        (Triple.modify fun m hm => ⟨hm.1.files m.download env.partialCopy, hm.2⟩) fun _ => ?_
      refine Triple.bind (Q := fun _ => Copied)
        (operate_spec (fun m hm => ⟨hm.1.files m.download m.download, hm.2⟩)
          (fun m hm => ⟨hm.1, hm.1.files m.download m.download⟩)
          fun m hm => ⟨hm.1.1.inv, (hm.1.files m.download m.download).1.inv⟩) fun _ => ?_
      refine Triple.bind (Q := fun _ => Copied)
        (Triple.attempt (operate_id fun m hm => hm.1.1.inv)) fun made => ?_
      cases made with
      | error error =>
        have hgiven : Triple (Staging p strict running path before)
            (do
              discard env
              Act.fail error : Cycle β Unit)
            (fun _ m => Staging p strict running path before m
              ∧ ∃ bytes, m.staging = some bytes ∧ p.sha256 bytes = offer.sha256)
            (fun _ => Staging p strict running path before) (Inv p strict) :=
          discard_fail fun _ hm => hm
        exact hgiven.pre fun _ hm => hm.1
      | ok u =>
        exact (operate_id fun m (hm : Copied m) => hm.1.1.inv).weaken (fun _ hm => hm)
          (fun _ m hm => ⟨hm.1, bytes, hm.2, not_not.mp hgot⟩) (fun _ _ hm => hm.1)
          fun _ hm => hm

/-- What the guard has established before the rename. -/
structure Approved (p : Platform β) (strict : Prop) (running path : String)
    (offer : AgentReleaseOffer) (before : File β) (m : Machine β) : Prop where
  going : Going p strict running path m
  installed : m.installed = before
  staged : ∃ bytes, m.staging = some bytes ∧ p.sha256 bytes = offer.sha256
  untracked : offer.tracked = false → m.pending = none
  tracked : offer.tracked = true → lastFetched m.log = some offer
    ∧ offer.previousSha256 = some running
    ∧ offer.previousSha256 = some (p.sha256 before.bytes)
    ∧ ∃ target, m.pending = some ⟨offer, target, none⟩

theorem validateOffer_tracked (h : validateOffer offer = .ok ()) (htracked : offer.tracked = true) :
    offer.previousSha256.isSome = true := by
  obtain ⟨id, hid⟩ := Option.isSome_iff_exists.mp htracked
  unfold validateOffer at h
  split at h
  · cases h
  · cases hprevious : offer.previousSha256 with
    | none => cases hattempt : offer.attempt <;> simp [hid, hprevious, hattempt] at h
    | some previous => rfl

/-- Ready to be looked at a last time. -/
def Staged (p : Platform β) (strict : Prop) (running path : String) (offer : AgentReleaseOffer)
    (before : File β) (m : Machine β) : Prop :=
  Staging p strict running path before m
    ∧ ∃ bytes, m.staging = some bytes ∧ p.sha256 bytes = offer.sha256

theorem beforeReplace_spec {env : Round β} (before : File β)
    (hvalid : validateOffer offer = .ok ()) :
    Triple (Staged p strict running path offer before) (beforeReplace p env offer running path)
      (fun _ => Approved p strict running path offer before)
      (fun _ m => Going p strict running path m ∧ m.installed = before) (Inv p strict) := by
  -- what the first half finds out about the digests
  let Same : Prop := ∀ previous, offer.previousSha256 = some previous →
    previous = running ∧ previous = p.sha256 before.bytes
  unfold beforeReplace
  refine Triple.bind (Q := fun _ m => Staged p strict running path offer before m ∧ Same) ?_
    fun _ => ?_
  · cases hprevious : offer.previousSha256 with
    | none => exact fun _ hm => ⟨hm, fun _ h => by rw [hprevious] at h; cases h⟩
    | some previous =>
      dsimp only
      split
      next => exact fun _ hm => ⟨hm.1.1, hm.1.2.2⟩
      next hrunning =>
        refine Triple.bind (Q := fun _ => Staged p strict running path offer before)
          ((ensure_spec _ _).failing (fun _ _ hm => ⟨hm.1.1, hm.1.2.2⟩)) fun _ => ?_
        refine Triple.bind (fileSha256_spec _ _) fun installed => ?_
        split
        next => exact fun _ hm => ⟨hm.1.1.1, hm.1.1.2.2⟩
        next hsame =>
          refine fun m hm => ⟨hm.1, fun digest hdigest => ?_⟩
          rw [hprevious] at hdigest
          have hdigest := Option.some.inj hdigest
          refine ⟨hdigest ▸ not_not.mp hrunning, ?_⟩
          have hread := hm.2
          rw [not_not.mp hsame, hm.1.1.1.path, hm.1.1.2.2] at hread
          simp only [decide_true, Bool.and_self, if_true, Option.some.injEq] at hread
          exact hdigest ▸ hread
  · split
    next htracked =>
      let X : Machine β → Prop := fun m => ((m.pending = none ∧ m.installed = before)
        ∧ ∃ bytes, m.staging = some bytes ∧ p.sha256 bytes = offer.sha256) ∧ Same
      have hX : Steady X := fun _ _ _ hm => hm
      refine Triple.bind ((fetchOffer_spec hX env.offerAgain).weaken
        (fun m hm => ⟨hm.1.1.1, ⟨hm.1.1.2, hm.1.2⟩, hm.2⟩) (fun _ _ hm => hm)
        (fun _ _ hm => ⟨hm.1, hm.2.1.1.2⟩) fun _ hm => hm) fun current => ?_
      split
      next => exact fun _ hm => ⟨hm.1.1, hm.1.2.1.1.2⟩
      next hcurrent =>
        refine (writePending_spec ⟨offer, path, none⟩
          (X := fun m => m.installed = before
            ∧ (∃ bytes, m.staging = some bytes ∧ p.sha256 bytes = offer.sha256)
            ∧ Same ∧ lastFetched m.log = some offer) rfl fun _ hm => hm).weaken
          (fun m hm => ⟨hm.1.1, hm.1.2.1.1.2, hm.1.2.1.2, hm.1.2.2,
            hm.2.1.trans (not_not.mp hcurrent)⟩) (fun _ m hm => ?_)
          (fun _ m hm => ⟨hm.1, hm.2.1⟩) fun _ hm => hm
        obtain ⟨⟨hgoing, hinstalled, hstaged, hsame, hfetched⟩, hpending⟩ := hm
        refine ⟨hgoing, hinstalled, hstaged, fun hu => ?_, fun _ => ?_⟩
        · rw [htracked] at hu
          cases hu
        · obtain ⟨previous, hprevious⟩ :=
            Option.isSome_iff_exists.mp (validateOffer_tracked hvalid htracked)
          obtain ⟨hr, hb⟩ := hsame previous hprevious
          exact ⟨hfetched, by rw [hprevious, hr], by rw [hprevious, hb], path, hpending⟩
    next huntracked =>
      refine fun m hm => ⟨hm.1.1.1, hm.1.1.2.2, hm.1.2, fun _ => hm.1.1.2.1, fun ht => ?_⟩
      exact absurd ht huntracked

theorem Approved.replace {offer : AgentReleaseOffer} {before : File β} {m : Machine β}
    (h : Approved p strict running path offer before m) :
    Going p strict running path (m.replace offer) := by
  obtain ⟨bytes, hstaging, hdigest⟩ := h.staged
  unfold Machine.replace
  rw [hstaging]
  refine (h.going.files ⟨bytes, m.installed.generation + 1⟩ m.download none).note trivial
    ⟨hdigest, fun hu => ?_, fun ht => ?_⟩
  · exact h.going.inv.pending.trans (h.untracked hu)
  · obtain ⟨hfetched, hrunning, hbefore, target, hpending⟩ := h.tracked ht
    refine ⟨hfetched, hrunning.trans h.going.runs.symm, ?_, target,
      h.going.inv.pending.trans hpending⟩
    rw [hbefore, h.installed]

theorem installRelease_spec {env : Round β} (before : File β)
    (hvalid : validateOffer offer = .ok ()) :
    Triple (Staging p strict running path before) (installRelease p env offer running path)
      (fun _ => Going p strict running path)
      (fun _ m => Going p strict running path m ∧ Kept env before m) (Inv p strict) := by
  unfold installRelease
  refine Triple.bind ((stageRelease_spec before).failing
    (fun _ _ hm => ⟨hm.1, .inl hm.2.2⟩)) fun _ => ?_
  refine Triple.handle ((beforeReplace_spec before hvalid).weaken
    (fun _ hm => hm) (fun _ _ hm => hm) (fun _ _ hm => hm) fun _ hm => hm) (fun u => ?_)
    fun error => ?_
  · refine Triple.handle (Q := fun _ m => Going p strict running path m
      ∧ env.rename.effective = true) (G := fun _ m => Going p strict running path m
      ∧ Kept env before m) ?_ (fun u => ?_) fun error => ?_
    · refine Triple.perform_map (fun hnone m hm => ⟨hm.replace, by rw [hnone]; rfl⟩)
        (fun _ m hm => ?_) fun m hm => ?_
      · split
        next heffective => exact ⟨hm.replace, .inr heffective⟩
        next => exact ⟨hm.going, .inl hm.installed⟩
      · split
        next => exact hm.replace.inv
        next => exact hm.going.inv
    · exact (operate_id fun m hm => hm.1.inv).weaken (fun _ hm => hm)
        (fun _ _ hm => hm.1) (fun _ _ hm => ⟨hm.1, .inr hm.2⟩) fun _ hm => hm
    · exact discard_fail fun _ hm => hm
  · exact (discard_fail fun _ hm => hm).failing fun _ _ hm => ⟨hm.1, .inl hm.2⟩

theorem replaceBinary_spec {env : Round β} (before : File β) (hvalid : validateOffer offer = .ok ())
    (hblind : strict → offer.tracked = true → env.outcomeRead = true
      ∨ env.rename.effective = false ∧ p.sha256 before.bytes ≠ offer.sha256) :
    Triple (Staging p strict running path before) (replaceBinary p env offer running path)
      (fun _ => Going p strict running path) (fun _ => Going p strict running path)
      (Inv p strict) := by
  unfold replaceBinary
  refine Triple.bind (Q := fun _ => Staging p strict running path before)
    (Triple.modify fun m hm => ⟨hm.1.note trivial (hm.1.inv.pending.trans hm.2.1), hm.2⟩)
    fun _ => ?_
  have hcleanup {X : Machine β → Prop} (hX : ∀ m, X m → X { m with download := none }) :
      Triple (fun m => Going p strict running path m ∧ X m)
        (ignore env.cleanup fun m => { m with download := none })
        (fun _ m => Going p strict running path m ∧ X m)
        (fun _ => Going p strict running path) (Inv p strict) :=
    ignore_spec (fun m hm => ⟨hm.1.files m.installed none m.staging, hX m hm.2⟩)
      fun _ hm => hm.1.inv
  refine Triple.handle (installRelease_spec before hvalid) (fun _ => ?_) fun error => ?_
  · refine Triple.bind ((hcleanup (X := fun _ => True) fun _ hm => hm).pre
    (fun _ hm => ⟨hm, trivial⟩))
      fun _ _ hm => hm.1
  · exact Triple.bind (hcleanup fun _ hm => hm) fun _ => failedOutcome_spec before hblind

theorem selfPath_spec {env : Round β} {X : Machine β → Prop} {C : Machine β → Prop} :
    Triple (fun m => Going p strict running path m ∧ X m) (selfPath env)
      (fun target m => target = path ∧ Going p strict running path m ∧ X m)
      (fun _ => Going p strict running path) C := by
  unfold selfPath
  refine Triple.bind Triple.get fun m₀ => ?_
  refine Triple.bind (Q := fun _ m => m₀ = m ∧ Going p strict running path m ∧ X m)
    ((ensure_spec _ _).failing (fun _ _ hm => hm.2.1)) fun _ => ?_
  split
  next => exact fun _ hm => hm.2.1
  next => exact fun m hm => ⟨by rw [hm.1]; exact hm.2.1.path, hm.2⟩

theorem acceptOffer_spec {env : Round β} (before : File β) (hblind : strict → offer.tracked = true →
      if offer.sha256 = running then
        env.bootstrapRead = true ∨ p.sha256 before.bytes ≠ offer.sha256
      else env.outcomeRead = true
        ∨ env.rename.effective = false ∧ p.sha256 before.bytes ≠ offer.sha256) :
    Triple (Staging p strict running path before) (acceptOffer p env offer running)
      (fun _ => Going p strict running path) (fun _ => Going p strict running path)
      (Inv p strict) := by
  unfold acceptOffer
  cases hvalid : validateOffer offer with
  | error error => exact fun _ hm => hm.1
  | ok u =>
    refine Triple.bind selfPath_spec fun target => ?_
    refine Triple.assume fun m hm => ?_
    obtain ⟨rfl, hready⟩ := hm
    split
    next hsame =>
      refine (observed_spec before hsame fun hst htracked => ?_).pre
        fun _ hm => hm ▸ ⟨hready.1, hready.2.2⟩
      simpa only [if_pos hsame] using hblind hst htracked
    next hother =>
      refine (replaceBinary_spec before hvalid fun hst htracked => ?_).pre fun _ hm => hm ▸ hready
      simpa only [if_neg hother] using hblind hst htracked

/-! ### A round -/

theorem readPending_spec {env : Round β} {X : Machine β → Prop} {C : Machine β → Prop} :
    Triple X (readPending p env) (fun pending m => X m ∧ m.pending = pending) (fun _ => X) C := by
  unfold readPending
  refine Triple.bind Triple.get fun m₀ => ?_
  cases hpending : m₀.pending with
  | none => exact fun m hm => ⟨hm.2, by rw [← hm.1]; exact hpending⟩
  | some pending =>
    have hensure (error : Option String) (wrap : String → String) :
        Triple (fun m => m₀ = m ∧ X m) (ensure error wrap) (fun _ m => m₀ = m ∧ X m)
          (fun _ => X) C :=
      (ensure_spec error wrap).failing fun _ _ hm => hm.2
    refine Triple.bind (hensure _ _) fun _ => ?_
    exact Triple.bind (hensure _ _) fun _ m hm => ⟨hm.2, by rw [← hm.1]; exact hpending⟩

theorem selfupdateCycle_spec {env : Round β} {before : Machine β}
    (hinv : Inv p strict before) (hblind : strict → env.blind p before = false) :
    Triple (fun m => m = before) (selfupdateCycle p env) (fun _ => Inv p strict)
      (fun _ => Inv p strict) (Inv p strict) := by
  unfold selfupdateCycle
  refine Triple.bind Triple.get fun m₀ => ?_
  refine Triple.assume fun m hm => ?_
  obtain ⟨rfl, rfl⟩ := hm
  cases hprocess : m₀.process.bind fun process => process.running with
  | none => exact fun _ hm => hm ▸ hinv
  | some running =>
    obtain ⟨⟨ran, generation⟩, hrunning, hran⟩ := Option.bind_eq_some_iff.mp hprocess
    dsimp only at hran
    subst hran
    have hgoing : Going p strict running m₀.path m₀ := ⟨hinv, ⟨generation, hrunning⟩, rfl⟩
    refine Triple.bind (readPending_spec (X := fun m => m = m₀) |>.failing
      (fun _ _ hm => hm ▸ hinv)) fun pending => ?_
    refine Triple.assume fun m hm => ?_
    obtain ⟨rfl, hpending⟩ := hm
    cases pending with
    | some pending =>
      have htarget := hinv.target pending hpending
      refine (resume_spec m.installed htarget fun hst hreport => ?_).weaken
        (fun _ hm => by subst hm; exact ⟨hgoing, rfl, hpending⟩) (fun _ _ hm => hm.inv)
        (fun _ _ hm => hm.inv) fun _ hm => hm
      have hno := hblind hst
      simp only [Round.blind, hpending, hreport, Option.isNone_none, Bool.true_and,
        Bool.and_eq_false_iff, Bool.not_eq_false', decide_eq_false_iff_not] at hno
      exact hno
    | none =>
      have hstaging : Staging p strict running m.path m.installed m := ⟨hgoing, hpending, rfl⟩
      have hsteady : Steady fun g : Machine β => g.pending = none ∧ g.installed = m.installed :=
        fun _ _ _ hm => hm
      refine Triple.bind ((fetchOffer_spec hsteady env.offer).weaken
        (fun _ hm => by subst hm; exact hstaging) (fun _ _ hm => hm) (fun _ _ hm => hm.1.inv)
        fun _ hm => hm) fun offer => ?_
      cases offer with
      | none => exact fun _ hm => hm.1.1.inv
      | some offer =>
        refine Triple.assume fun g hg => ?_
        obtain ⟨hfetched, _, hresponse⟩ := hg
        obtain ⟨status, hresponse⟩ := hresponse offer rfl
        -- the offer the blind reads would be about
        have hno : strict → offer.tracked = true →
            if offer.sha256 = running then
              env.bootstrapRead = true ∨ p.sha256 m.installed.bytes ≠ offer.sha256
            else env.outcomeRead = true ∨ env.rename.effective = false
                ∧ p.sha256 m.installed.bytes ≠ offer.sha256 := by
          intro hst htracked
          have hno := hblind hst
          simp only [Round.blind, hpending, hresponse, hrunning, htracked,
            Option.any_some, Bool.true_and] at hno
          by_cases hsame : offer.sha256 = running
          · rw [if_pos hsame]
            rw [if_pos (by simp [hsame])] at hno
            simpa [or_iff_not_imp_left] using hno
          · rw [if_neg hsame]
            rw [if_neg (by simpa using fun h => hsame h.symm)] at hno
            simpa [or_iff_not_imp_left] using hno
        exact (acceptOffer_spec m.installed hno).weaken (fun _ hm => hm ▸ hfetched)
          (fun _ _ hm => hm.inv) (fun _ _ hm => hm.inv) fun _ hm => hm

end Brocade.Selfupdate
