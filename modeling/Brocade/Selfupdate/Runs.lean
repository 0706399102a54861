/-
What can be said of an agent's updates after any number of rounds, crashes and restarts.

A round keeps `Inv` at every end it can have, so a run does.  The last part of the main result
needs that no round was blind: where the digest of the installed file cannot be read just after
the rename, the round writes a report of failure over the receipt it had prepared.
-/
import Brocade.Selfupdate.Truthful

namespace Brocade.Selfupdate

open Faulty

variable {β : Type} {p : Platform β} {strict : Prop}

/-- No step of the run is a blind round. -/
def Sighted (p : Platform β) (m : Machine β) (run : List (Happening β)) : Prop :=
  ∀ before env after, run = before ++ .round env :: after →
    ∀ reached, before.foldlM (Machine.step p) m = some reached → env.blind p reached = false

theorem Inv.step {m m' : Machine β} {happening : Happening β} (hinv : Inv p strict m)
    (hblind : strict → ∀ env, happening = .round env → env.blind p m = false)
    (hstep : m.step p happening = some m') : Inv p strict m' := by
  cases happening with
  | round env =>
    have hround := selfupdateCycle_spec hinv (fun hst => hblind hst env rfl) m rfl
    simp only [Machine.step] at hstep
    split at hstep
    · revert hround hstep
      rcases selfupdateCycle p env m with ⟨⟨stop⟩ | answer, g⟩
      · cases stop with
        | failed error =>
          intro hround hstep
          exact Option.some.inj hstep ▸ hround
        | crashed =>
          intro hround hstep
          exact Option.some.inj hstep ▸ Inv.ended hround
      · cases answer with
        | true =>
          intro hround hstep
          exact Option.some.inj hstep ▸ Inv.ended hround
        | false =>
          intro hround hstep
          exact Option.some.inj hstep ▸ hround
    · cases hstep
  | restart readable => exact Option.some.inj hstep ▸ hinv.started _
  | reinstall bytes => exact Option.some.inj hstep ▸ hinv.files _ m.download m.staging

theorem Inv.run {run : List (Happening β)} : ∀ {m m' : Machine β}, Inv p strict m →
    (strict → Sighted p m run) → run.foldlM (Machine.step p) m = some m' → Inv p strict m' := by
  induction run with
  | nil =>
    intro m m' hinv _ hrun
    exact Option.some.inj hrun ▸ hinv
  | cons happening rest ih =>
    intro m m' hinv hsighted hrun
    rw [List.foldlM_cons] at hrun
    obtain ⟨g, hstep, hrest⟩ := Option.bind_eq_some_iff.mp hrun
    refine ih (hinv.step (fun hst env henv => ?_) hstep) (fun hst before env after hsplit r hr => ?_)
      hrest
    · exact hsighted hst [] env rest (by rw [henv]; rfl) m rfl
    · refine hsighted hst (happening :: before) env after (by rw [hsplit]; rfl) r ?_
      rw [List.foldlM_cons]
      exact Option.bind_eq_some_iff.mpr ⟨g, hstep, hr⟩

/-- The binary is replaced only by what is on offer, after a look at the offer and at what is
replaced.  A receipt stands in the way of other replacements until its report is answered.  The
reports say what is so; and without a blind round none says that a replacement failed while it is
in place. -/
theorem receipts_truthful (p : Platform β) (path : String) (bytes : β) (run : List (Happening β))
    (m : Machine β) (hrun : run.foldlM (Machine.step p) (Machine.fresh path bytes) = some m) :
    (∀ offer new old older, (.replaced offer new old :: older) <:+ m.log →
        p.sha256 new = offer.sha256 ∧ (offer.tracked = true → lastFetched older = some offer
            ∧ offer.previousSha256 = lastRunning older
            ∧ offer.previousSha256 = some (p.sha256 old)
            ∧ ∃ target, openPending older = some ⟨offer, target, none⟩))
      ∧ openPending m.log = m.pending
      ∧ (∀ offer older, (.began offer :: older) <:+ m.log → openPending older = none)
      ∧ (∀ older, (.removed :: older) <:+ m.log → ∃ pending report status,
        openPending older = some pending ∧ pending.report = some report
          ∧ lastAnswer older = some (report, status) ∧ 200 ≤ status ∧ status < 300)
      ∧ (∀ offer report installed older, (.created offer report installed :: older) <:+ m.log →
        (some report.releaseId = offer.releaseId ∧ some report.attempt = offer.attempt)
          ∧ (report.outcome = .running →
            lastRunning older = some offer.sha256 ∧ p.sha256 installed = offer.sha256)
          ∧ (report.performedUpdate = true → ∃ target, Entry.wrote ⟨offer, target, none⟩ ∈ older))
      ∧ (Sighted p (Machine.fresh path bytes) run → ∀ offer report installed older,
        (.created offer report installed :: older) <:+ m.log → report.outcome = .failed →
          p.sha256 installed ≠ offer.sha256) := by
  have hinv : Inv p False m := (Inv.fresh path bytes).run (fun hf => hf.elim) hrun
  refine ⟨fun offer new old older h => ?_, hinv.pending, fun offer older h => hinv.lawful _ _ h,
    fun older h => ?_, fun offer report installed older h => ?_,
    fun hsighted offer report installed older h hfailed => ?_⟩
  · obtain ⟨hdigest, _, htracked⟩ := hinv.lawful _ _ h
    exact ⟨hdigest, htracked⟩
  · obtain ⟨pending, report, status, hpending, hreport, hanswer, hok⟩ := hinv.lawful _ _ h
    simp only [ok, Bool.and_eq_true, decide_eq_true_eq] at hok
    exact ⟨pending, report, status, hpending, hreport, hanswer, hok⟩
  · obtain ⟨hids, hrunning, hprepared, _⟩ := hinv.lawful _ _ h
    exact ⟨hids, hrunning, hprepared⟩
  · have hstrict : Inv p True m := (Inv.fresh path bytes).run (fun _ => hsighted) hrun
    exact (hstrict.lawful _ _ h).2.2.2 trivial hfailed

/-- Two binaries with their digests. -/
def twoBinaries : Platform Bool where
  sha256 new := String.ofList (List.replicate 64 (if new then 'a' else 'b'))
  size _ := 400

/-- The second binary, as the second attempt of the seventh release. -/
def newBinary : AgentReleaseOffer where
  url := "https://console.example/agent"
  sha256 := twoBinaries.sha256 true
  releaseId := some 7
  attempt := some 2
  previousSha256 := some (twoBinaries.sha256 false)

/-- Nothing goes wrong. -/
def plainRound : Round Bool where
  readPending := none
  exe := none
  installedRead := true
  bootstrapRead := true
  outcomeRead := true
  reportRead := true
  guardRead := none
  downloadRead := none
  offer := .answered 200 (.ok newBinary)
  offerAgain := .answered 200 (.ok newBinary)
  answer := .answered 200 (.ok true)
  downloaded := true
  partialCopy := none
  resumeWrite := .none
  bootstrapWrite := .none
  prepareWrite := .none
  outcomeWrite := .none
  remove := .none
  fetch := .none
  mode := .none
  probe := .none
  copy := .none
  stagingMode := .none
  sync := .none
  rename := .none
  directory := .none
  discard := .none
  cleanup := .none

def agentPath : String := "/usr/local/bin/brocade-agent"

/-- The binary is replaced, and the new process reports. -/
def updateRun : List (Happening Bool) :=
  [.restart true, .round plainRound, .restart true, .round plainRound]

theorem receipts_truthful_update : ∃ m,
    updateRun.foldlM (Machine.step twoBinaries) (Machine.fresh agentPath false) = some m
      ∧ m.installed.bytes = true ∧ m.pending = none
      ∧ ∀ offer report installed older, (.created offer report installed :: older) <:+ m.log →
        report.performedUpdate = true → ∃ target, Entry.wrote ⟨offer, target, none⟩ ∈ older := by
  have hfiles : (updateRun.foldlM (Machine.step twoBinaries) (Machine.fresh agentPath false)).map
      (fun m => (m.installed.bytes, m.pending)) = some (true, none) := by
    decide +kernel
  obtain ⟨m, hrun, hm⟩ := Option.map_eq_some_iff.mp hfiles
  obtain ⟨hinstalled, hpending⟩ := Prod.mk.inj hm
  have htruthful := receipts_truthful twoBinaries agentPath false updateRun m hrun
  exact ⟨m, hrun, hinstalled, hpending, fun offer report installed older h =>
    (htruthful.2.2.2.2.1 offer report installed older h).2.2⟩

/-- The directory cannot be synced after the rename, and the digest of the file is not read. -/
def unreadRun : List (Happening Bool) :=
  [.restart true, .round { plainRound with
    directory := .fails true "Input/output error (os error 5)"
    outcomeRead := false }]

/-- A log that ends with a failure reported behind a replacement, while what was installed is the
release. -/
def deniesInstalled : List (Entry Bool) → Bool
  | .created offer report installed :: .replaced replaced _ _ :: _ =>
    decide (replaced = offer ∧ report.outcome = AgentReleaseOutcome.failed
      ∧ twoBinaries.sha256 installed = offer.sha256)
  | _ => false

theorem failure_while_installed : ¬ ∀ (path : String) (bytes : Bool)
    (run : List (Happening Bool)) (m : Machine Bool),
    run.foldlM (Machine.step twoBinaries) (Machine.fresh path bytes) = some m →
      ∀ offer report installed older, (.created offer report installed :: older) <:+ m.log →
        (∃ new old, Entry.replaced offer new old ∈ older) → report.outcome = .failed →
          twoBinaries.sha256 installed ≠ offer.sha256 := by
  intro hclaim
  have hlog : (unreadRun.foldlM (Machine.step twoBinaries) (Machine.fresh agentPath false)).map
      (fun m => deniesInstalled (m.log.drop 4)) = some true := by
    decide +kernel
  obtain ⟨m, hrun, hm⟩ := Option.map_eq_some_iff.mp hlog
  unfold deniesInstalled at hm
  split at hm
  next offer report installed replaced new old rest hdrop =>
    obtain ⟨rfl, hfailed, hdigest⟩ := of_decide_eq_true hm
    refine hclaim agentPath false unreadRun m hrun replaced report installed
      (.replaced replaced new old :: rest) ?_ ⟨new, old, List.mem_cons_self⟩ hfailed hdigest
    rw [← hdrop]
    exact List.drop_suffix 4 m.log
  next => cases hm

end Brocade.Selfupdate
