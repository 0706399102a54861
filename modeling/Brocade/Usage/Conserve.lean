/-
Conservation at head moves.

The head of a label is the counter value up to which its bytes are accounted.  A report
that moves it has to book exactly the bytes in between.  It does so in every case but
one: a restart read in the very second the new process started has no positive-length
window to be booked over, and the head moves without its bytes.
-/
import Mathlib.Algebra.Order.Sub.Basic
import Mathlib.Algebra.Order.Monoid.Prod
import Brocade.Usage.Label

namespace Brocade.Usage

open Fallible

/-! ### What a reading does to an existing head -/

/-- The reading moves the head. -/
def Moves (head : UsageHead) (reading : UsageReading) : Prop :=
  head.readAtUnixSecs < reading.readAtUnixSecs ∧
    (head.xrayEpoch = reading.xrayEpoch → head.bytes ≤ reading.bytes) ∧
    ¬(isJournal head.xrayEpoch = true ∧ isJournal reading.xrayEpoch = false ∧
      reading.xrayStartedAtUnixSecs ≤ head.readAtUnixSecs)

theorem not_le_bytes {a b : Bytes} : ¬ a ≤ b ↔ b.1 < a.1 ∨ b.2 < a.2 := by
  rw [Prod.le_def, not_and_or, not_le, not_le]

section Settle

variable {head : UsageHead} {reading : UsageReading} (generation : UsageGeneration)
  (label : String) (accounting : Int)

theorem settle_stays (h : ¬ Moves head reading) :
    settle (some head) generation label reading accounting = (some head, none) := by
  unfold settle judge againstHead
  simp only
  by_cases hold : reading.readAtUnixSecs < head.readAtUnixSecs
  · simp [hold]
  by_cases hsame : reading.readAtUnixSecs = head.readAtUnixSecs
  · simp [hsame]
  by_cases hguard : isJournal head.xrayEpoch = true ∧ isJournal reading.xrayEpoch = false ∧
      reading.xrayStartedAtUnixSecs ≤ head.readAtUnixSecs
  · simp [hold, hsame, hguard]
  have hdecreased : head.xrayEpoch = reading.xrayEpoch ∧ ¬ head.bytes ≤ reading.bytes := by
    by_contra hcon
    refine h ⟨by omega, fun hepoch => ?_, hguard⟩
    by_contra hle
    exact hcon ⟨hepoch, hle⟩
  rw [not_le_bytes] at hdecreased
  have hjournal : ¬((isJournal head.xrayEpoch && !isJournal reading.xrayEpoch
      && decide (reading.xrayStartedAtUnixSecs ≤ head.readAtUnixSecs)) = true) := by
    simpa [and_assoc] using hguard
  rw [if_neg hold, if_neg hsame, if_neg hjournal, if_pos hdecreased]

theorem settle_grows (h : Moves head reading) (hepoch : head.xrayEpoch = reading.xrayEpoch) :
    settle (some head) generation label reading accounting = (some (reading.head accounting), some {
          start := head.readAtUnixSecs
          bytes := reading.bytes - head.bytes
          hasGap := decide (head.generationId ≠ accounting) }) := by
  obtain ⟨hlater, hle, hguard⟩ := h
  have hjournal : ¬((isJournal head.xrayEpoch && !isJournal reading.xrayEpoch
      && decide (reading.xrayStartedAtUnixSecs ≤ head.readAtUnixSecs)) = true) := by
    simpa [and_assoc] using hguard
  have hgrown : ¬(head.xrayEpoch = reading.xrayEpoch
      ∧ (reading.bytes.1 < head.bytes.1 ∨ reading.bytes.2 < head.bytes.2)) := by
    rw [← not_le_bytes]
    exact fun hand => hand.2 (hle hand.1)
  unfold settle judge againstHead
  simp only
  rw [if_neg (by omega), if_neg (by omega), if_neg hjournal, if_neg hgrown,
    if_neg (not_not.mpr hepoch)]

theorem settle_restarts (h : Moves head reading) (hepoch : head.xrayEpoch ≠ reading.xrayEpoch) :
    settle (some head) generation label reading accounting = (some (reading.head accounting), some {
          start := max head.readAtUnixSecs reading.xrayStartedAtUnixSecs
          bytes := reading.bytes
          hasGap := true }) := by
  obtain ⟨hlater, -, hguard⟩ := h
  have hjournal : ¬((isJournal head.xrayEpoch && !isJournal reading.xrayEpoch
      && decide (reading.xrayStartedAtUnixSecs ≤ head.readAtUnixSecs)) = true) := by
    simpa [and_assoc] using hguard
  unfold settle judge againstHead
  simp only
  rw [if_neg (by omega), if_neg (by omega), if_neg hjournal, if_neg fun hand => hepoch hand.1,
    if_pos hepoch]

theorem settle_first (reading : UsageReading) :
    (settle none generation label reading accounting).1 = some (reading.head accounting) := by
  unfold settle judge firstReading
  simp only
  cases generation.firstReadingPolicy label <;> rfl

theorem settle_mono (head : UsageHead) (reading : UsageReading) :
    ∃ head', (settle (some head) generation label reading accounting).1 = some head' ∧
      head.readAtUnixSecs ≤ head'.readAtUnixSecs := by
  by_cases hmoves : Moves head reading
  · refine ⟨reading.head accounting, ?_, le_of_lt hmoves.1⟩
    by_cases hepoch : head.xrayEpoch = reading.xrayEpoch
    · rw [settle_grows _ _ _ hmoves hepoch]
    · rw [settle_restarts _ _ _ hmoves hepoch]
  · exact ⟨head, by rw [settle_stays _ _ _ hmoves], le_rfl⟩

theorem settle_window {previous : Option UsageHead} {reading : UsageReading} {window : Window}
    (h : (settle previous generation label reading accounting).2 = some window) :
    (settle previous generation label reading accounting).1 = some (reading.head accounting) := by
  unfold settle at h ⊢
  split at h
  · cases h
  · cases h
  · rfl

end Settle

/-! ### The samples of a label lie behind its head -/

/-- Every user sample ends at or before its label's head. -/
def HeadCovers (db : Db) : Prop :=
  ∀ n label start stop, db.samples.contains (n, label, start, stop) = true →
    ∃ head, db.heads.get? (n, label) = some head ∧ stop ≤ head.readAtUnixSecs

theorem headCovers_empty : HeadCovers Db.empty := by
  intro n label start stop h
  cases h

variable {nodeId label : String} {request : UsageReportRequest} {generation : UsageGeneration}
    {db : Db} {grant : GrantMapping}

theorem Accounted.headCovers {owner : CounterOwner} {bytes : Bytes} {accounting : Int}
    {settled : Option UsageHead × Option Window} {db' : Db} (hdb : HeadCovers db)
    (hsettled : settled = settle (db.heads.get? (nodeId, owner.label)) generation owner.label
      (request.reading generation.id bytes) accounting)
    (h : Accounted nodeId request owner settled.1 settled.2 db db') : HeadCovers db' := by
  intro n label start stop hcontains
  by_cases hnew : ∃ grant w, owner = .user grant ∧ settled.2 = some w ∧
      owner.windowKey nodeId w.start request.readAtUnixSecs = (n, label, start, stop)
  · -- the window just booked ends where the head now is
    obtain ⟨grant, w, rfl, hw, hkey⟩ := hnew
    simp only [CounterOwner.windowKey, Prod.mk.injEq] at hkey
    obtain ⟨rfl, rfl, rfl, rfl⟩ := hkey
    refine ⟨(request.reading generation.id bytes).head accounting, ?_, le_rfl⟩
    rw [hsettled] at hw
    rw [h.heads, hsettled]
    exact (if_pos rfl).trans (settle_window _ _ _ hw)
  · -- an older sample is covered by the older head, and heads only move forward
    have hrow : db'.samples.get? (n, label, start, stop) = db.samples.get? (n, label, start, stop) := by
      refine h.rows.samples _ fun grant howner hsome => hnew ?_
      obtain ⟨w, hw, hkey⟩ := Option.map_eq_some_iff.mp hsome
      exact ⟨grant, w, howner, hw, hkey⟩
    rw [Table.contains, hrow, ← Table.contains] at hcontains
    obtain ⟨head, hhead, hstop⟩ := hdb n label start stop hcontains
    rw [h.heads]
    by_cases hkey : (n, label) = (nodeId, owner.label)
    · rw [if_pos hkey, hsettled, ← hkey, hhead]
      obtain ⟨head', hhead', hle⟩ := settle_mono generation owner.label accounting head
        (request.reading generation.id bytes)
      exact ⟨head', hhead', hstop.trans hle⟩
    · rw [if_neg hkey]
      exact ⟨head, hhead, hstop⟩

theorem recordCounter_headCovers {platform : Platform} {progress progress' : Progress}
    {counter : UsageCounter} (hp : HeadCovers progress.db)
    (h : recordCounter platform nodeId generation request progress counter = .ok progress') :
    HeadCovers progress'.db := by
  obtain ⟨-, -, hidle, hcounts⟩ := recordCounter_ok h
  by_cases hc : counts (Text.trim counter.label) (counter.uplinkBytes, counter.downlinkBytes)
  · have h := hcounts hc
    split at h
    · rw [h.db]
      exact hp
    · rename_i owner accounting metadata htarget
      have hlabel := resolveTarget_label htarget
      rw [← hlabel] at h
      exact Accounted.headCovers hp rfl h.1
  · rw [(hidle hc).db]
    exact hp

theorem step_headCovers {platform : Platform} (h : HeadCovers db) (event : Event) :
    HeadCovers (step platform db event) := by
  cases event with
  | deliver serverNow nodeId request =>
    unfold step
    simp only
    split
    · rename_i hrecord
      rcases recordUsageReport_ok hrecord with ⟨_, -, -, -, rfl⟩ | ⟨-, _, -, hfresh⟩
      · exact h
      · obtain ⟨progress, hcount, hrecorded⟩ := recordFresh_ok hfresh
        have hcounted : HeadCovers progress.db :=
          foldlM_invariant (P := fun p => HeadCovers p.db)
            (fun _ _ _ _ hp hstep => recordCounter_headCovers hp hstep) h hcount
        intro n label start stop hcontains
        rw [hrecorded.samples] at hcontains
        rw [hrecorded.heads]
        exact hcounted n label start stop hcontains
    · exact h
  | control generations nodes => exact h

/-! ### What a move books -/

theorem worth_of_later (hdb : HeadCovers db) {head : UsageHead}
    (hhead : db.heads.get? (nodeId, grant.label) = some head) {readAt : Int}
    (hlater : head.readAtUnixSecs < readAt) (window : Window) :
    worth db nodeId (.user grant) readAt (some window)
      = if window.start < readAt then window.bytes else 0 := by
  have hfree : db.samples.contains (nodeId, grant.label, window.start, readAt) = false := by
    rw [← Bool.not_eq_true]
    intro hcontains
    obtain ⟨head', hhead', hstop⟩ := hdb _ _ _ _ hcontains
    rw [hhead, Option.some.injEq] at hhead'
    subst hhead'
    omega
  simp [worth, bookable, CounterOwner.windowKey, hfree]

/-- What a label's ledger owes to its head, over one transaction: nothing while the head
stands, the growth when it moves within an epoch, the whole counter when it moves to
another. -/
structure Conserves (nodeId label : String) (before after : Db) : Prop where
  stands : after.heads.get? (nodeId, label) = before.heads.get? (nodeId, label) →
    ∀ start stop, after.samples.get? (nodeId, label, start, stop)
      = before.samples.get? (nodeId, label, start, stop)
  moves : ∀ head head', before.heads.get? (nodeId, label) = some head →
    after.heads.get? (nodeId, label) = some head' → head' ≠ head →
    if head'.xrayEpoch = head.xrayEpoch then
      after.billed nodeId label + head.bytes = before.billed nodeId label + head'.bytes
    else after.billed nodeId label = before.billed nodeId label + head'.bytes

/-- A report that moves the label's head into a process started in the second of the
reading, and carries bytes. -/
def LosesRestart (nodeId label : String) (tx : Transaction) : Prop :=
  tx.nodeId = nodeId ∧
    tx.before.receipts.get? (nodeId, tx.request.agentInstanceId, tx.request.sequence) = none ∧
    ∃ head bytes, tx.before.heads.get? (nodeId, label) = some head ∧
      tx.request.readingOf label = some bytes ∧
      head.readAtUnixSecs < tx.request.readAtUnixSecs ∧
      head.xrayEpoch ≠ tx.request.xrayEpoch ∧
      tx.request.xrayStartedAtUnixSecs = tx.request.readAtUnixSecs ∧ bytes ≠ 0

theorem Conserves.of_same {before after : Db}
    (hhead : after.heads.get? (nodeId, label) = before.heads.get? (nodeId, label))
    (hsamples : ∀ start stop, after.samples.get? (nodeId, label, start, stop)
      = before.samples.get? (nodeId, label, start, stop)) :
    Conserves nodeId label before after where
  stands _ := hsamples
  moves head head' hbefore hafter hne := by
    rw [hhead, hbefore, Option.some.injEq] at hafter
    exact absurd hafter.symm hne

theorem conserves_iff_of_head {before after : Db} {head : UsageHead} (reading : UsageReading)
    (hbefore : HeadCovers before) (hlabel : grant.label = label)
    (hhead : before.heads.get? (nodeId, label) = some head)
    (hstarted : reading.xrayStartedAtUnixSecs ≤ reading.readAtUnixSecs)
    (h : SettlesUser nodeId label grant reading.readAtUnixSecs
      (settle (some head) generation label reading generation.id) before after) :
    Conserves nodeId label before after ↔
      ¬(head.readAtUnixSecs < reading.readAtUnixSecs ∧ head.xrayEpoch ≠ reading.xrayEpoch ∧
        reading.xrayStartedAtUnixSecs = reading.readAtUnixSecs ∧ reading.bytes ≠ 0) := by
  subst hlabel
  by_cases hmoves : Moves head reading
  · have hne : reading.head generation.id ≠ head := by
      intro heq
      have hlater := hmoves.1
      rw [← heq] at hlater
      exact lt_irrefl _ hlater
    by_cases hepoch : head.xrayEpoch = reading.xrayEpoch
    · -- growth within an epoch
      rw [settle_grows _ _ _ hmoves hepoch] at h
      have hbilled := h.billed
      rw [worth_of_later hbefore hhead hmoves.1, if_pos hmoves.1] at hbilled
      refine iff_of_true ⟨fun hstands => ?_, fun old new hold hnew _ => ?_⟩
        fun hlost => hlost.2.1 hepoch
      · rw [h.head, hhead, Option.some.injEq] at hstands
        exact absurd hstands hne
      · rw [hhead, Option.some.injEq] at hold
        rw [h.head, Option.some.injEq] at hnew
        subst hold hnew
        refine (if_pos hepoch.symm).mpr ?_
        rw [hbilled, add_assoc]
        exact congrArg _ (tsub_add_cancel_of_le (hmoves.2.1 hepoch))
    · -- a restart books its counter where the new process is older than the reading
      rw [settle_restarts _ _ _ hmoves hepoch] at h
      have hbilled := h.billed
      rw [worth_of_later hbefore hhead hmoves.1] at hbilled
      have hlater := hmoves.1
      constructor
      · rintro hconserves ⟨-, -, hsoon, hbytes⟩
        have hmoved := hconserves.moves head _ hhead h.head hne
        have hmoved := (if_neg fun heq => hepoch heq.symm).mp hmoved
        rw [hbilled, if_neg (by simp only; omega)] at hmoved
        exact hbytes (add_left_cancel hmoved).symm
      · intro hnot
        have hwhole : (if max head.readAtUnixSecs reading.xrayStartedAtUnixSecs
            < reading.readAtUnixSecs then reading.bytes else 0) = reading.bytes := by
          by_cases hstart : max head.readAtUnixSecs reading.xrayStartedAtUnixSecs
              < reading.readAtUnixSecs
          · rw [if_pos hstart]
          · rw [if_neg hstart]
            by_contra hbytes
            exact hnot ⟨hlater, hepoch, by omega, fun heq => hbytes heq.symm⟩
        rw [hwhole] at hbilled
        refine ⟨fun hstands => ?_, fun old new hold hnew _ => ?_⟩
        · rw [h.head, hhead, Option.some.injEq] at hstands
          exact absurd hstands hne
        · rw [hhead, Option.some.injEq] at hold
          rw [h.head, Option.some.injEq] at hnew
          subst hold hnew
          exact (if_neg fun heq => hepoch heq.symm).mpr hbilled
  · -- the head stands
    rw [settle_stays _ _ _ hmoves] at h
    refine iff_of_true (.of_same (h.head.trans hhead.symm) fun start stop => ?_) ?_
    · exact h.samples start stop nofun
    · rintro ⟨hlater, hepoch, hsoon, -⟩
      exact hmoves ⟨hlater, fun heq => absurd heq hepoch, fun hguard => by omega⟩

/-- In every generation a report of the machine can name, the label belongs to the grant. -/
def BoundTo (events : List Event) (nodeId label : String) (grant : GrantMapping) : Prop :=
  ∀ generations nodes serverNow request generation,
    .control generations nodes ∈ events → .deliver serverNow nodeId request ∈ events →
    generations.get? (request.usageGenerationId, nodeId) = some generation →
    generation.bindsUser label grant

theorem BoundTo.of_installed {events : List Event} (h : BoundTo events nodeId label grant)
    (hdb : Installed events db) {serverNow : Int}
    (hdeliver : .deliver serverNow nodeId request ∈ events)
    (hgeneration : db.generations.get? (request.usageGenerationId, nodeId) = some generation) :
    generation.bindsUser label grant := by
  rcases hdb with hempty | ⟨nodes, hcontrol⟩
  · rw [hempty] at hgeneration
    cases hgeneration
  · exact h _ _ _ _ _ hcontrol hdeliver hgeneration

/-- **Every transaction of every run conserves the label's bytes, except exactly where it is
a restart read in the second the new process started.** -/
theorem head_moves_conserve (platform : Platform) {events : List Event} {nodeId label : String}
    {grant : GrantMapping} (hbound : BoundTo events nodeId label grant) :
    ∀ tx ∈ history platform events,
      (Conserves nodeId label tx.before tx.after ↔ ¬ LosesRestart nodeId label tx) := by
  intro tx htx
  obtain ⟨earlier, later, hevents, -, hcommitted⟩ := mem_historyFrom htx
  have hdeliver : .deliver tx.serverNow tx.nodeId tx.request ∈ events := by
    rw [hevents]
    simp
  have hcovers : HeadCovers tx.before :=
    historyFrom_invariant (P := HeadCovers) (fun _ event _ h => step_headCovers h event)
      headCovers_empty htx
  have hinstalled : Installed events tx.before :=
    historyFrom_invariant (P := Installed events) (fun _ event he h => step_installed he h)
      (Or.inl rfl) htx
  rcases recordUsageReport_ok hcommitted with ⟨_, hreceipt, -, -, hafter⟩ |
    ⟨hfree, generation, hgeneration, hfresh⟩
  · -- a duplicate changes nothing
    rw [hafter]
    refine iff_of_true (.of_same rfl fun _ _ => rfl) ?_
    rintro ⟨rfl, hnone, -⟩
    rw [hnone] at hreceipt
    cases hreceipt
  · by_cases hnode : tx.nodeId = nodeId
    · subst hnode
      cases hreading : tx.request.readingOf label with
      | none =>
        have h := recordFresh_label label hfresh
        rw [hreading] at h
        refine iff_of_true (.of_same (h.heads _) (h.samples _)) ?_
        rintro ⟨-, -, _, _, -, hsome, -⟩
        rw [hreading] at hsome
        cases hsome
      | some bytes =>
        have hbinds := hbound.of_installed hinstalled hdeliver hgeneration
        have hsettles := recordFresh_user hbinds hreading hfresh
        cases hhead : tx.before.heads.get? (tx.nodeId, label) with
        | none =>
          -- the first reading moves no existing head
          have hfirst := hsettles.head
          rw [hhead, settle_first] at hfirst
          refine iff_of_true ⟨fun hstands => ?_, fun old _ hold => ?_⟩ ?_
          · rw [hfirst, hhead] at hstands
            cases hstands
          · rw [hhead] at hold
            cases hold
          · rintro ⟨-, -, _, _, hsome, -⟩
            rw [hhead] at hsome
            cases hsome
        | some head =>
          rw [hhead] at hsettles
          rw [conserves_iff_of_head (tx.request.reading generation.id bytes) hcovers
            hbinds.label hhead (startedAt_le_readAt hcommitted) hsettles]
          refine not_congr ⟨?_, ?_⟩
          · rintro ⟨hlater, hepoch, hsoon, hbytes⟩
            exact ⟨rfl, hfree, head, bytes, hhead, hreading, hlater, hepoch, hsoon, hbytes⟩
          · rintro ⟨-, -, head', bytes', hhead', hreading', hlater, hepoch, hsoon, hbytes⟩
            rw [hhead, Option.some.injEq] at hhead'
            rw [hreading, Option.some.injEq] at hreading'
            subst hhead' hreading'
            exact ⟨hlater, hepoch, hsoon, hbytes⟩
    · obtain ⟨hhead, -, hsamples⟩ := recordFresh_otherNode hnode hfresh
      exact iff_of_true (.of_same hhead hsamples) fun hlost => hnode hlost.1

/-! ### A restart read too soon -/

/-- The Hong Kong calendar, and a digest that tells the reports of an agent apart. -/
def hongKong : Platform where
  payloadSha256 request := s!"{request.agentInstanceId}-{request.sequence}"
  dayStart t := (t + 28800) / 86400 * 86400 - 28800
  dayEnd t := (t + 28800) / 86400 * 86400 + 57600

def aliceGrant : GrantMapping where
  tenantId := "acme"
  userId := "alice"
  ingressId := "web"
  appId := "shop"
  label := "alice@web"

/-- A generation in which one label belongs to a user. -/
def aliceGeneration : UsageGeneration where
  id := 1
  deploymentId := none
  revisionId := some 1
  bindings := OrdMap.empty.insert "alice@web"
    (.user "acme" "alice" "web" "shop" (some "main") .establishBaseline)
  activatedAtUnixSecs := some 900

/-- A report on Alice. -/
def aliceReport (sequence : ℕ) (readAt startedAt : Int) (epoch : String) (bytes : Bytes) :
    UsageReportRequest where
  agentInstanceId := "0123456789abcdef0123456789abcdef"
  sequence := sequence
  usageGenerationId := 1
  readAtUnixSecs := readAt
  xrayStartedAtUnixSecs := startedAt
  xrayEpoch := epoch
  route := none
  counters := [⟨"alice@web", bytes.1, bytes.2⟩]
  zeroWindows := []

/-- A run of such reports. -/
def aliceRun (reports : List UsageReportRequest) : List Event :=
  .control (Table.empty.put (1, "n1") aliceGeneration) ["n1"]
    :: reports.map fun report => .deliver 2000 "n1" report

theorem aliceRun_bound {reports : List UsageReportRequest}
    (h : ∀ report ∈ reports, report.usageGenerationId = 1) :
    BoundTo (aliceRun reports) "n1" "alice@web" aliceGrant := by
  intro generations nodes serverNow request generation hcontrol hdeliver hgeneration
  have hinstalled : generations = Table.empty.put (1, "n1") aliceGeneration := by
    simp only [aliceRun, List.mem_cons, Event.control.injEq, List.mem_map, reduceCtorEq, and_false,
      exists_false, or_false] at hcontrol
    exact hcontrol.1
  have hnamed : request.usageGenerationId = 1 := by
    simp only [aliceRun, List.mem_cons, reduceCtorEq, List.mem_map, Event.deliver.injEq,
      false_or] at hdeliver
    obtain ⟨report, hreport, -, -, rfl⟩ := hdeliver
    exact h report hreport
  rw [hinstalled, hnamed, Table.get?_put, if_pos rfl, Option.some.injEq] at hgeneration
  subst hgeneration
  rfl

/-- The second report is of a process that started in the second it is read in. -/
def soonRestart : List Event :=
  aliceRun [aliceReport 1 1000 900 "first" (10, 20), aliceReport 2 1010 1010 "second" (5, 7)]

/-- The head moves to the new counter and the counter's bytes are booked nowhere. -/
theorem head_moves_conserve_fails :
    BoundTo soonRestart "n1" "alice@web" aliceGrant ∧ ∃ tx ∈ history hongKong soonRestart,
        ¬ Conserves "n1" "alice@web" tx.before tx.after := by
  refine ⟨aliceRun_bound (by decide), (history hongKong soonRestart).get ⟨1, by decide +kernel⟩,
    List.get_mem _ _, fun hconserves => ?_⟩
  have hmoved := hconserves.moves ⟨1000, (10, 20), "first", 1⟩ ⟨1010, (5, 7), "second", 1⟩
    (by decide +kernel) (by decide +kernel) (by decide)
  revert hmoved
  decide +kernel

theorem head_moves_conserve_sample :
    (history hongKong soonRestart).length = 2 ∧ ∀ tx ∈ history hongKong soonRestart,
        (Conserves "n1" "alice@web" tx.before tx.after ↔ ¬ LosesRestart "n1" "alice@web" tx) :=
  ⟨by decide +kernel, head_moves_conserve hongKong (aliceRun_bound (by decide))⟩

end Brocade.Usage
