/-
What the log of a machine says of its updates.

`Lawful` says of each entry what has to come before it: a replacement follows the very offer that
was fetched last and the digest it was approved for, a receipt goes away only after an answer to
its report, a report of success comes from a process that is the offer.  `Inv` holds at every
point of a round, also where it fails or is cut off.
-/
import Brocade.Selfupdate.Cycle

namespace Brocade.Selfupdate

open Faulty

variable {β : Type}

/-! ### Reading the log -/

/-- The receipt that is there. -/
def openPending : List (Entry β) → Option PendingUpdate
  | [] => none
  | .wrote pending :: _ => some pending
  | .removed :: _ => none
  | _ :: older => openPending older

/-- The bytes the current process was started from. -/
def lastRunning : List (Entry β) → Option String
  | [] => none
  | .started running :: _ => running
  | _ :: older => lastRunning older

/-- The offer that was fetched last. -/
def lastFetched : List (Entry β) → Option AgentReleaseOffer
  | [] => none
  | .fetched offer :: _ => offer
  | _ :: older => lastFetched older

/-- The Console's last answer to a report. -/
def lastAnswer : List (Entry β) → Option (AgentReleaseReport × ℕ)
  | [] => none
  | .answered report status :: _ => some (report, status)
  | _ :: older => lastAnswer older

theorem wrote_mem_of_openPending {log : List (Entry β)} {pending : PendingUpdate}
    (h : openPending log = some pending) : Entry.wrote pending ∈ log := by
  induction log with
  | nil => cases h
  | cons entry older ih =>
    cases entry with
    | wrote p =>
      have hp : p = pending := Option.some.inj h
      rw [hp]
      exact List.mem_cons_self
    | removed => cases h
    | started _ | fetched _ | began _ | replaced _ _ _ | created _ _ _ | sent _ | answered _ _ =>
      exact List.mem_cons_of_mem _ (ih h)

/-- What an entry of the log says about those before it. -/
def Lawful (p : Platform β) (strict : Prop) : Entry β → List (Entry β) → Prop
  | .began _, older => openPending older = none
  | .removed, older => ∃ pending report status, openPending older = some pending
      ∧ pending.report = some report ∧ lastAnswer older = some (report, status) ∧ ok status = true
  | .replaced offer bytes before, older => p.sha256 bytes = offer.sha256
      ∧ (offer.tracked = false → openPending older = none)
      ∧ (offer.tracked = true → lastFetched older = some offer
        ∧ offer.previousSha256 = lastRunning older
        ∧ offer.previousSha256 = some (p.sha256 before)
        ∧ ∃ target, openPending older = some ⟨offer, target, none⟩)
  | .created offer report installed, older =>
    (some report.releaseId = offer.releaseId ∧ some report.attempt = offer.attempt)
    ∧ (report.outcome = .running →
      lastRunning older = some offer.sha256 ∧ p.sha256 installed = offer.sha256)
    ∧ (report.performedUpdate = true → ∃ target, Entry.wrote ⟨offer, target, none⟩ ∈ older)
    ∧ (strict → report.outcome = .failed → p.sha256 installed ≠ offer.sha256)
  | _, _ => True

/-- The log is lawful and tells what the machine holds. -/
structure Inv (p : Platform β) (strict : Prop) (m : Machine β) : Prop where
  lawful : ∀ entry older, (entry :: older) <:+ m.log → Lawful p strict entry older
  pending : openPending m.log = m.pending
  running : ∀ process, m.process = some process → lastRunning m.log = process.running
  target : ∀ pending, m.pending = some pending → pending.target = m.path

variable {p : Platform β} {strict : Prop}

theorem Inv.fresh (path : String) (bytes : β) : Inv p strict (Machine.fresh path bytes) where
  lawful := by
    intro entry older h
    have := List.suffix_nil.mp h
    cases this
  pending := rfl
  running := fun _ h => by cases h
  target := fun _ h => by cases h

theorem Inv.extend {m m' : Machine β} (hinv : Inv p strict m) {entry : Entry β}
    (hlog : m'.log = entry :: m.log) (hlawful : Lawful p strict entry m.log)
    (hpending : openPending (entry :: m.log) = m'.pending)
    (hrunning : ∀ process, m'.process = some process →
      lastRunning (entry :: m.log) = process.running)
    (htarget : ∀ pending, m'.pending = some pending → pending.target = m'.path) :
    Inv p strict m' where
  lawful := by
    intro e older h
    rw [hlog] at h
    rcases List.suffix_cons_iff.mp h with heq | h
    · injection heq with he ho
      subst he ho
      exact hlawful
    · exact hinv.lawful e older h
  pending := by rw [hlog, hpending]
  running := by
    rw [hlog]
    exact hrunning
  target := htarget

theorem Inv.files {m : Machine β} (hinv : Inv p strict m) (installed : File β)
    (download staging : Option β) :
    Inv p strict { m with installed := installed, download := download, staging := staging } :=
  ⟨hinv.lawful, hinv.pending, hinv.running, hinv.target⟩

theorem Inv.ended {m : Machine β} (hinv : Inv p strict m) :
    Inv p strict { m with process := none } :=
  ⟨hinv.lawful, hinv.pending, fun _ h => (by cases h), hinv.target⟩

theorem Inv.started {m : Machine β} (hinv : Inv p strict m) (running : Option String) :
    Inv p strict ({ m with process := some ⟨running, m.installed.generation⟩ }.note
      (.started running)) := by
  refine hinv.extend rfl trivial hinv.pending ?_ hinv.target
  intro process h
  have heq := Option.some.inj h
  rw [← heq]
  rfl

/-! ### In a round -/

/-- A round of a process with these bytes, on the machine of this path. -/
structure Going (p : Platform β) (strict : Prop) (running path : String) (m : Machine β) :
    Prop where
  inv : Inv p strict m
  process : ∃ generation, m.process = some ⟨some running, generation⟩
  path : m.path = path

variable {running path : String}

theorem Going.runs {m : Machine β} (h : Going p strict running path m) :
    lastRunning m.log = some running := by
  obtain ⟨generation, hprocess⟩ := h.process
  exact h.inv.running _ hprocess

/-- An entry that is neither about the receipt nor about the process. -/
def Entry.Plain : Entry β → Prop
  | .wrote _ | .removed | .started _ => False
  | _ => True

theorem Going.note {m : Machine β} (h : Going p strict running path m) {entry : Entry β}
    (hplain : entry.Plain) (hlawful : Lawful p strict entry m.log) :
    Going p strict running path (m.note entry) where
  inv := by
    have hsame : openPending (entry :: m.log) = openPending m.log
        ∧ lastRunning (entry :: m.log) = lastRunning m.log := by
      cases entry <;> first | exact hplain.elim | exact ⟨rfl, rfl⟩
    refine h.inv.extend rfl hlawful (hsame.1.trans h.inv.pending) (fun process hp => ?_)
      h.inv.target
    rw [hsame.2]
    exact h.inv.running process hp
  process := h.process
  path := h.path

theorem Going.files {m : Machine β} (h : Going p strict running path m) (installed : File β)
    (download staging : Option β) : Going p strict running path
      { m with installed := installed, download := download, staging := staging } :=
  ⟨h.inv.files installed download staging, h.process, h.path⟩

theorem Going.wrote {m : Machine β} (h : Going p strict running path m)
    {pending : PendingUpdate} (htarget : pending.target = path) :
    Going p strict running path ({ m with pending := some pending }.note (.wrote pending)) where
  inv := by
    refine h.inv.extend rfl trivial rfl (fun process hp => h.inv.running process hp) ?_
    intro written hw
    have heq := Option.some.inj hw
    rw [← heq, htarget, ← h.path]
    rfl
  process := h.process
  path := h.path

theorem Going.removed {m : Machine β} (h : Going p strict running path m)
    (hlawful : Lawful p strict .removed m.log) :
    Going p strict running path ({ m with pending := none }.note .removed) where
  inv := h.inv.extend rfl hlawful rfl (fun process hp => h.inv.running process hp)
    (fun _ hw => by cases hw)
  process := h.process
  path := h.path

end Brocade.Selfupdate
