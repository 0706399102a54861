/-
Completeness through restarts.

Seen from one label of a user, the database is the meter of `Usage/Meter`: every
transaction of a run takes its reading of the label, if it has one, against the head and
bills what the meter books.  So what a run bills is what the meter makes of the run's
readings, and a restart loses exactly what the meter loses.
-/
import Brocade.Usage.Meter

namespace Brocade.Usage

open Fallible

/-- What a transaction reads of a label: nothing if it only repeats a committed report. -/
def Transaction.readingAt (tx : Transaction) (nodeId label : String) : Option UsageReading :=
  if tx.nodeId = nodeId
      ∧ tx.before.receipts.get? (nodeId, tx.request.agentInstanceId, tx.request.sequence) = none then
    (tx.before.generations.get? (tx.request.usageGenerationId, nodeId)).bind fun generation =>
      (tx.request.readingOf label).map (tx.request.reading generation.id)
  else none

/-- The readings of a label in a run, in the order they were committed. -/
def readingsIn (platform : Platform) (db : Db) (events : List Event) (nodeId label : String) :
    List UsageReading :=
  (historyFrom platform db events).filterMap fun tx => tx.readingAt nodeId label

variable {nodeId : String} {grant : GrantMapping}

theorem take_eq_settle {db : Db} (hdb : HeadCovers db) {head : UsageHead}
    (hhead : db.heads.get? (nodeId, grant.label) = some head) (generation : UsageGeneration)
    (reading : UsageReading) (hgeneration : reading.generationId = generation.id) :
    let settled := settle (some head) generation grant.label reading generation.id
    settled.1 = some (head.take reading).1 ∧
      worth db nodeId (.user grant) reading.readAtUnixSecs settled.2 = (head.take reading).2 := by
  simp only
  by_cases hmoves : Moves head reading
  · have hlater := hmoves.1
    rw [UsageHead.take, if_pos hmoves, hgeneration]
    by_cases hepoch : head.xrayEpoch = reading.xrayEpoch
    · rw [settle_grows _ _ _ hmoves hepoch, worth_of_later hdb hhead hlater, if_pos hlater,
        if_pos hepoch]
      exact ⟨rfl, rfl⟩
    · rw [settle_restarts _ _ _ hmoves hepoch, worth_of_later hdb hhead hlater, if_neg hepoch,
        UsageReading.opening]
      refine ⟨rfl, if_congr ?_ rfl rfl⟩
      simp only
      omega
  · rw [settle_stays _ _ _ hmoves, UsageHead.take, if_neg hmoves]
    exact ⟨rfl, rfl⟩

/-- The label's head and ledger after a transaction, from those before it. -/
def Follows (nodeId label : String) (head : UsageHead) (before after : Db)
    (step : UsageHead × Bytes) : Prop :=
  before.heads.get? (nodeId, label) = some head → after.heads.get? (nodeId, label) = some step.1 ∧
      after.billed nodeId label = before.billed nodeId label + step.2

/-- **A transaction takes its reading against the meter.** -/
theorem committed_follows {platform : Platform} {label : String} {tx : Transaction}
    (hcovers : HeadCovers tx.before) (hbinds : tx.nodeId = nodeId → ∀ generation,
      tx.before.generations.get? (tx.request.usageGenerationId, nodeId) = some generation →
      generation.bindsUser label grant) (hcommitted : tx.Committed platform) (head : UsageHead) :
    Follows nodeId label head tx.before tx.after
      (head.meter (tx.readingAt nodeId label).toList) := by
  intro hhead
  have hnothing : tx.readingAt nodeId label = none →
      tx.after.heads.get? (nodeId, label) = tx.before.heads.get? (nodeId, label) →
      tx.after.billed nodeId label = tx.before.billed nodeId label →
      tx.after.heads.get? (nodeId, label) = some (head.meter (tx.readingAt nodeId label).toList).1 ∧
        tx.after.billed nodeId label
          = tx.before.billed nodeId label + (head.meter (tx.readingAt nodeId label).toList).2 := by
    intro hnone hheads hbilled
    rw [hnone, hheads, hbilled]
    exact ⟨hhead, (add_zero _).symm⟩
  rcases recordUsageReport_ok hcommitted with ⟨receipt, hreceipt, -, -, hafter⟩ |
    ⟨hfree, generation, hgeneration, hfresh⟩
  · refine hnothing (if_neg ?_) (by rw [hafter]) (by rw [hafter])
    rintro ⟨rfl, hnone⟩
    rw [hnone] at hreceipt
    cases hreceipt
  · by_cases hnode : tx.nodeId = nodeId
    · subst hnode
      cases hreading : tx.request.readingOf label with
      | none =>
        have h := recordFresh_label label hfresh
        rw [hreading] at h
        refine hnothing ?_ (h.heads _) (h.billed _)
        rw [Transaction.readingAt, if_pos ⟨rfl, hfree⟩, hgeneration, hreading]
        rfl
      | some bytes =>
        have hbinds := hbinds rfl generation hgeneration
        have hlabel := hbinds.label
        obtain ⟨hsettled, hbilled, -⟩ := recordFresh_user hbinds hreading hfresh
        have hread : tx.readingAt tx.nodeId label
            = some (tx.request.reading generation.id bytes) := by
          rw [Transaction.readingAt, if_pos ⟨rfl, hfree⟩, hgeneration, hreading]
          rfl
        rw [hhead] at hsettled hbilled
        subst hlabel
        obtain ⟨htake, hworth⟩ := take_eq_settle hcovers hhead generation
          (tx.request.reading generation.id bytes) rfl
        rw [hread]
        simp only [Option.toList_some, UsageHead.meter, add_zero]
        rw [hsettled, hbilled, htake, ← hworth]
        exact ⟨rfl, rfl⟩
    · obtain ⟨hheads, hbilled, -⟩ := recordFresh_otherNode hnode hfresh
      exact hnothing (if_neg fun hand => hnode hand.1) hheads hbilled

theorem filterMap_cons_toList {α β : Type} (f : α → Option β) (a : α) (as : List α) :
    (a :: as).filterMap f = (f a).toList ++ as.filterMap f := by
  cases h : f a <;> simp [h]

/-- **A run takes its readings against the meter**, one after another. -/
theorem run_follows {platform : Platform} {all : List Event} {label : String}
    (hbound : BoundTo all nodeId label grant) {events : List Event}
    (hevents : ∀ event ∈ events, event ∈ all) {db : Db} (hcovers : HeadCovers db)
    (hinstalled : Installed all db) (head : UsageHead) :
    Follows nodeId label head db (runFrom platform db events)
      (head.meter (readingsIn platform db events nodeId label)) := by
  induction events generalizing db head with
  | nil =>
    intro hhead
    exact ⟨hhead, (add_zero _).symm⟩
  | cons event rest ih =>
    intro hhead
    have hevent := hevents event List.mem_cons_self
    have hnext : ∀ head, Follows nodeId label head (step platform db event)
        (runFrom platform (step platform db event) rest)
        (head.meter (readingsIn platform (step platform db event) rest nodeId label)) :=
      ih (fun e he => hevents e (List.mem_cons_of_mem _ he)) (step_headCovers hcovers event)
        (step_installed hevent hinstalled)
    cases event with
    | control generations nodes => exact hnext head hhead
    | deliver serverNow n request =>
      have hrun : runFrom platform db (.deliver serverNow n request :: rest)
          = runFrom platform (step platform db (.deliver serverNow n request)) rest := rfl
      cases hrecord : recordUsageReport platform serverNow db n request with
      | error e =>
        rw [step_of_error hrecord] at hnext hrun
        rw [readingsIn, historyFrom_of_error hrecord, hrun]
        exact hnext head hhead
      | ok answer =>
        obtain ⟨result, after⟩ := answer
        have hcommitted :
            Transaction.Committed platform ⟨db, serverNow, n, request, result, after⟩ := hrecord
        rw [step_of_committed hcommitted] at hnext hrun
        obtain ⟨hhead', hbilled'⟩ := committed_follows hcovers
          (fun hn generation hgeneration =>
            hbound.of_installed hinstalled ((show n = nodeId from hn) ▸ hevent) hgeneration)
          hcommitted head hhead
        obtain ⟨hfinal, hbilled⟩ := hnext _ hhead'
        rw [readingsIn, historyFrom_of_committed hcommitted, filterMap_cons_toList,
          meter_append, hrun]
        refine ⟨hfinal, ?_⟩
        rw [hbilled, hbilled', add_assoc]
        rfl

/-- A label of a user in a run: its head after the events so far, and the readings that
follow, which continue the head's own process and then go through others, each with its
own name. -/
structure RestartRun (platform : Platform) (earlier later : List Event) (nodeId label : String)
    (head head' : UsageHead) (old : List UsageReading) (between : List Epoch) (last : Epoch) :
    Prop where
  headBefore : (run platform earlier).heads.get? (nodeId, label) = some head
  readings : readingsIn platform (run platform earlier) later nodeId label
    = old ++ readingsOf between last
  continues : Continues head old
  names : (head.xrayEpoch :: (between.map Epoch.name ++ [last.name])).Nodup
  headAfter : (run platform (earlier ++ later)).heads.get? (nodeId, label) = some head'
  moved : head'.xrayEpoch = last.name

/-- What such a run is to bill: the rest of the old process, the finished ones whole, and the
last one up to its head. -/
def owed (head head' : UsageHead) (old : List UsageReading) (between : List Epoch) : Bytes :=
  (lastRead head old).2 - head.bytes + finished between + head'.bytes

/-- **A run through restarts bills what it owes exactly when nothing it read was beyond
recovery**: no process that was replaced grew within the last second it was read in, none
was first counted in the very second it started, and none that brought bytes was read in
its predecessor's last second only. -/
theorem restarts_billed_iff (platform : Platform) {earlier later : List Event}
    {nodeId label : String} {grant : GrantMapping}
    (hbound : BoundTo (earlier ++ later) nodeId label grant) {head head' : UsageHead}
    {old : List UsageReading} {between : List Epoch} {last : Epoch}
    (hrun : RestartRun platform earlier later nodeId label head head' old between last) :
    (run platform (earlier ++ later)).billed nodeId label
        = (run platform earlier).billed nodeId label + owed head head' old between ↔
      Quiet head old ∧
        Recoverable last (lastRead head old).1 (isJournal head.xrayEpoch) between := by
  obtain ⟨hhead, hreadings, hcontinues, hnames, hhead', hmoved⟩ := hrun
  have hcovers : HeadCovers (run platform earlier) :=
    runFrom_invariant (P := HeadCovers) (fun _ event _ h => step_headCovers h event)
      headCovers_empty
  have hinstalled : Installed (earlier ++ later) (run platform earlier) :=
    runFrom_invariant (P := Installed (earlier ++ later))
      (fun _ event he h => step_installed (List.mem_append_left _ he) h) (Or.inl rfl)
  have hwhole : run platform (earlier ++ later) = runFrom platform (run platform earlier) later :=
    runFrom_append _ _ _
  obtain ⟨hfinal, hbilled⟩ := run_follows hbound (fun e he => List.mem_append_right _ he) hcovers
    hinstalled head hhead
  rw [hwhole] at hhead' ⊢
  rw [hhead', Option.some.injEq] at hfinal
  rw [hreadings] at hfinal hbilled
  subst hfinal
  rw [hbilled, add_right_inj, owed, meter_whole hcontinues hnames hmoved]

/-! ### A release between two readings of one second -/

/-- A head at second 1000, and then a protected sample in the second of an ordinary one,
right before the process is replaced. -/
def releaseReports : List UsageReportRequest :=
  [aliceReport 1 1000 900 "first" (10, 20), aliceReport 2 1005 900 "first" (15, 25),
    aliceReport 3 1005 900 "first" (18, 30), aliceReport 4 1010 1006 "second" (5, 7)]

def releaseEarlier : List Event := aliceRun (releaseReports.take 1)

def releaseLater : List Event :=
  (releaseReports.drop 1).map fun report => .deliver 2000 "n1" report

def releaseReading (readAt startedAt : Int) (epoch : String) (bytes : Bytes) : UsageReading :=
  ⟨1, epoch, readAt, startedAt, bytes⟩

def releaseOld : List UsageReading :=
  [releaseReading 1005 900 "first" (15, 25), releaseReading 1005 900 "first" (18, 30)]

/-- The process that follows. -/
def releaseLast : Epoch where
  name := "second"
  readings := [releaseReading 1010 1006 "second" (5, 7)]
  nonempty := by decide
  own := by decide
  ordered := List.pairwise_singleton _ _

theorem release_bound : BoundTo (releaseEarlier ++ releaseLater) "n1" "alice@web" aliceGrant := by
  have hnamed : ∀ report ∈ releaseReports, report.usageGenerationId = 1 := by decide
  exact aliceRun_bound hnamed

theorem release_run : RestartRun hongKong releaseEarlier releaseLater "n1" "alice@web"
    ⟨1000, (10, 20), "first", 1⟩ ⟨1010, (5, 7), "second", 1⟩ releaseOld [] releaseLast where
  headBefore := by decide +kernel
  readings := by decide +kernel
  continues := ⟨by decide, by decide, by unfold UsageReading.Precedes; decide⟩
  names := by decide
  headAfter := by decide +kernel
  moved := rfl

/-- The sample that did not move the head is never billed. -/
theorem restarts_billed_fails :
    BoundTo (releaseEarlier ++ releaseLater) "n1" "alice@web" aliceGrant ∧
      RestartRun hongKong releaseEarlier releaseLater "n1" "alice@web"
        ⟨1000, (10, 20), "first", 1⟩ ⟨1010, (5, 7), "second", 1⟩ releaseOld [] releaseLast ∧
      (run hongKong (releaseEarlier ++ releaseLater)).billed "n1" "alice@web"
        ≠ (run hongKong releaseEarlier).billed "n1" "alice@web"
          + owed ⟨1000, (10, 20), "first", 1⟩ ⟨1010, (5, 7), "second", 1⟩ releaseOld [] :=
  ⟨release_bound, release_run, by decide +kernel⟩

theorem restarts_billed_sample :
    (run hongKong (releaseEarlier ++ releaseLater)).billed "n1" "alice@web"
        = (run hongKong releaseEarlier).billed "n1" "alice@web"
          + owed ⟨1000, (10, 20), "first", 1⟩ ⟨1010, (5, 7), "second", 1⟩ releaseOld [] ↔
      Quiet ⟨1000, (10, 20), "first", 1⟩ releaseOld ∧
        Recoverable releaseLast (lastRead ⟨1000, (10, 20), "first", 1⟩ releaseOld).1
          (isJournal "first") [] :=
  restarts_billed_iff hongKong release_bound release_run

end Brocade.Usage
