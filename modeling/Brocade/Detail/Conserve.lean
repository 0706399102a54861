/-
Checkpoints of detail usage, in whatever order they arrive.

The agent sends checkpoints, several of them merged into one where it could not send them
at once, and sends again what was not answered.  The control plane adds to an hour what a
segment grew over its head.  Whatever was merged, and in whatever order and how often it
arrived, an hour comes to the sum over its segments of the greatest value reported of each
(`checkpoints_converge`).

The induction goes over the deliveries and carries that the head of a segment is the
greatest value delivered of it, for as long as the segment is heard of.
-/
import Brocade.Detail.Accepted

namespace Brocade.Detail

open Usage (StoreError UsageGeneration)

/-- A report as it is sent: one that was read, or the merge of two that follow each other. -/
inductive MadeOf : OtherDomainReport → List OtherDomainReport → Prop
  | read (report : OtherDomainReport) : MadeOf report [report]
  | merged {old next merged : OtherDomainReport} {parts parts' : List OtherDomainReport} :
      MadeOf old parts → MadeOf next parts' → mergeDetailCheckpoint old next = some merged →
        MadeOf merged (parts ++ parts')

def rowsOf (reports : List OtherDomainReport) : List OtherDomainCounter :=
  reports.flatMap (·.counters)

theorem rowsOf_append (reports reports' : List OtherDomainReport) :
    rowsOf (reports ++ reports') = rowsOf reports ++ rowsOf reports' := List.flatMap_append

/-- **A report says what its parts say.** -/
theorem MadeOf.agrees {report : OtherDomainReport} {parts : List OtherDomainReport}
    (h : MadeOf report parts) (segment : Segment) :
    ((∃ row ∈ report.counters, row.segment = segment) ↔ ∃ row ∈ rowsOf parts, row.segment = segment)
      ∧ ∀ bound, AtMost report.counters segment bound ↔ AtMost (rowsOf parts) segment bound := by
  induction h with
  | read report => simp [rowsOf]
  | merged _ _ hmerge ih ih' =>
    refine ⟨?_, fun bound => ?_⟩
    · rw [(merge_rows hmerge).1, rowsOf_append]
      simp only [List.mem_append, or_and_right, exists_or, ih.1, ih'.1]
    · rw [merge_atMost hmerge, rowsOf_append, atMost_append, ih.2, ih'.2]

/-! ### Deliveries -/

/-- A report reaches the control plane. -/
structure Delivery where
  console : DetailConsole
  now : ℤ
  report : OtherDomainReport
  parts : List OtherDomainReport
  made : MadeOf report parts

def Delivery.record (d : Delivery) (tables : DetailTables) : Except StoreError DetailTables :=
  recordFor d.console tables d.now d.report

/-- A transaction that fails leaves everything as it was. -/
def deliver (tables : DetailTables) (d : Delivery) : DetailTables :=
  match d.record tables with
  | .ok tables' => tables'
  | .error _ => tables

def run (tables : DetailTables) (deliveries : List Delivery) : DetailTables :=
  deliveries.foldl deliver tables

/-- The deliveries that end well. -/
def taken : DetailTables → List Delivery → List Delivery
  | _, [] => []
  | tables, d :: rest =>
    (if (d.record tables).isOk then [d] else []) ++ taken (deliver tables d) rest

/-- There is room for every row of every delivery. -/
def roomy : DetailTables → List Delivery → Bool
  | _, [] => true
  | tables, d :: rest => hasRoom d.console tables d.now d.report && roomy (deliver tables d) rest

/-- Checkpoints of one epoch whose labels are all owned. -/
def Delivery.IsCheckpoint (epoch : String) (owner : String → Option (String × String))
    (d : Delivery) : Prop :=
  d.report.version = DETAIL_CHECKPOINT_VERSION ∧ d.report.epoch = epoch
    ∧ OwnedBy d.console d.report owner

/-- The report has a row of this hour. -/
def Delivery.SpeaksOf (d : Delivery) (bucket : ℤ) : Prop :=
  ∃ row ∈ d.report.counters, row.bucket = bucket

/-- What is delivered of an hour is delivered inside the replay window, and no transaction
before it had a later one. -/
def Replayable (deliveries : List Delivery) (bucket : ℤ) : Prop :=
  deliveries.Pairwise (fun e d => d.SpeaksOf bucket → replayFloor e.now ≤ bucket)
    ∧ ∀ d ∈ deliveries, d.SpeaksOf bucket → replayFloor d.now ≤ bucket

/-- The history still keeps the hour. -/
def Kept (deliveries : List Delivery) (bucket : ℤ) : Prop :=
  ∀ d ∈ deliveries, d.now - d.console.historyHours * 3600 ≤ bucket

/-- Nothing is known yet of the epoch. -/
def FreshEpoch (tables : DetailTables) (epoch : String) : Prop :=
  ∀ id key, key.1 = counterEpoch epoch id → tables.heads.get? key = none

/-! ### One delivery -/

/-- A delivery that speaks of no segment of an hour adds nothing to what is reported of it. -/
theorem reported_silent {owner : String → Option (String × String)} {d : Delivery}
    {rows : List OtherDomainCounter} {key : HourKey} (hsilent : ¬ d.SpeaksOf key.1) :
    segmentsOf owner d.report.counters key = ∅
      ∧ reported owner (rows ++ d.report.counters) key = reported owner rows key := by
  have hempty : segmentsOf owner d.report.counters key = ∅ := by
    refine Finset.eq_empty_of_forall_notMem fun segment hmem => hsilent ?_
    obtain ⟨⟨row, hrow, rfl⟩, hkey⟩ := mem_segmentsOf.mp hmem
    obtain ⟨user, -, rfl⟩ := Option.map_eq_some_iff.mp hkey
    exact ⟨row, hrow, rfl⟩
  refine ⟨hempty, ?_⟩
  rw [reported_append, hempty, Finset.sum_empty]
  exact add_zero _

variable {owner : String → Option (String × String)} {d : Delivery} {rows : List OtherDomainCounter}
    {key : HourKey} {tables : DetailTables} {epoch : String}

theorem reported_made : reported owner (rows ++ rowsOf d.parts) key
      = reported owner (rows ++ d.report.counters) key := by
  refine reported_congr (fun segment => ?_) fun segment bound => ?_
  · simp only [List.mem_append, or_and_right, exists_or, (d.made.agrees segment).1]
  · rw [atMost_append, atMost_append, (d.made.agrees segment).2]

/-- **What a delivery that is taken adds to an hour**: what is reported with it, over what was
reported before. -/
theorem Taken.hour {tables' : DetailTables}
    (h : Taken d.console tables tables' d.now d.report owner) (hepoch : d.report.epoch = epoch)
    (hwindow : d.SpeaksOf key.1 → replayFloor d.now ≤ key.1)
    (hkept : d.now - d.console.historyHours * 3600 ≤ key.1)
    (hheads : d.SpeaksOf key.1 → ∀ segment : Segment, segment.1 = key.1 → segment.2.2.2 ≠ 0 →
      headBytes tables.heads epoch segment = greatest rows segment) {before : Bytes}
    (hbefore : (tables.hourly.get? key).getD (0, 0) = before + reported owner rows key) :
    (tables'.hourly.get? key).getD (0, 0) = before + reported owner (rows ++ rowsOf d.parts) key := by
  rw [reported_made]
  by_cases hspeaks : d.SpeaksOf key.1
  · rw [h.gained key (hwindow hspeaks) hkept, hbefore, reported_append, ← add_assoc, hepoch]
    congr 1
    refine Finset.sum_congr rfl fun segment hmem => ?_
    obtain ⟨⟨row, hrow, rfl⟩, hkey⟩ := mem_segmentsOf.mp hmem
    have hbucket : row.segment.1 = key.1 := by
      obtain ⟨user, -, rfl⟩ := Option.map_eq_some_iff.mp hkey
      rfl
    rw [hheads hspeaks row.segment hbucket (h.counterId_ne row hrow)]
  · obtain ⟨hempty, hsame⟩ := @reported_silent owner d rows key hspeaks
    rw [hsame, ← hbefore]
    by_cases hfloor : replayFloor d.now ≤ key.1
    · rw [h.gained key hfloor hkept, hempty, Finset.sum_empty]
      exact add_zero _
    · exact h.passed key (not_le.mp hfloor) hkept

/-- **The heads follow what is reported**, as long as the hour is heard of. -/
theorem Taken.heads {tables' : DetailTables} {bucket : ℤ}
    (h : Taken d.console tables tables' d.now d.report owner) (hepoch : d.report.epoch = epoch)
    (hwindow : replayFloor d.now ≤ bucket)
    (hheads : ∀ segment : Segment, segment.1 = bucket → segment.2.2.2 ≠ 0 →
      headBytes tables.heads epoch segment = greatest rows segment) (segment : Segment)
    (hbucket : segment.1 = bucket) (hid : segment.2.2.2 ≠ 0) :
    headBytes tables'.heads epoch segment = greatest (rows ++ rowsOf d.parts) segment := by
  have hsame : greatest d.report.counters segment = greatest (rowsOf d.parts) segment :=
    greatest_congr (d.made.agrees segment).2
  have hheaded := h.headed segment hid (hbucket ▸ hwindow)
  rw [hepoch, hheads segment hbucket hid, hsame, ← greatest_append] at hheaded
  exact hheaded

/-! ### Runs -/

theorem run_hour {before : Bytes} {deliveries : List Delivery}
    (hcheckpoints : ∀ d ∈ deliveries, d.IsCheckpoint epoch owner)
    (hlegacy : NoLegacy tables epoch) (hroom : roomy tables deliveries = true)
    (hwindow : Replayable deliveries key.1) (hkept : Kept deliveries key.1)
    (hheads : (∃ d ∈ deliveries, d.SpeaksOf key.1) → ∀ segment : Segment, segment.1 = key.1 →
      segment.2.2.2 ≠ 0 → headBytes tables.heads epoch segment = greatest rows segment)
    (hbefore : (tables.hourly.get? key).getD (0, 0) = before + reported owner rows key) :
    ((run tables deliveries).hourly.get? key).getD (0, 0) = before
        + reported owner (rows ++ rowsOf ((taken tables deliveries).flatMap (·.parts))) key := by
  induction deliveries generalizing tables rows with
  | nil =>
    rw [show rowsOf ((taken tables []).flatMap (·.parts)) = [] from rfl, List.append_nil]
    exact hbefore
  | cons d rest ih =>
    obtain ⟨hpairs, hinside⟩ := hwindow
    obtain ⟨hlater, hpairs⟩ := List.pairwise_cons.mp hpairs
    have hrest : Replayable rest key.1 :=
      ⟨hpairs, fun e he => hinside e (List.mem_cons_of_mem _ he)⟩
    have hkeptRest : Kept rest key.1 := fun e he => hkept e (List.mem_cons_of_mem _ he)
    have hroomRest : hasRoom d.console tables d.now d.report = true
        ∧ roomy (deliver tables d) rest = true := by
      rw [roomy, Bool.and_eq_true] at hroom
      exact hroom
    have hcheckRest : ∀ e ∈ rest, e.IsCheckpoint epoch owner :=
      fun e he => hcheckpoints e (List.mem_cons_of_mem _ he)
    obtain ⟨hversion, hepoch, howner⟩ := hcheckpoints d List.mem_cons_self
    show ((run (deliver tables d) rest).hourly.get? key).getD (0, 0) = _
    unfold taken
    cases hrecord : d.record tables with
    | error e =>
      have hsame : deliver tables d = tables := by
        unfold deliver
        rw [hrecord]
      rw [hsame] at hroomRest ⊢
      exact ih hcheckRest hlegacy hroomRest.2 hrest hkeptRest
        (fun h => h.elim fun e he => hheads ⟨e, List.mem_cons_of_mem _ he.1, he.2⟩) hbefore
    | ok tables' =>
      have hdeliver : deliver tables d = tables' := by
        unfold deliver
        rw [hrecord]
      rw [hdeliver] at hroomRest ⊢
      have htaken : Taken d.console tables tables' d.now d.report owner :=
        recordFor_taken hrecord hversion howner (hepoch ▸ hlegacy) hroomRest.1
      have hparts : rows ++ rowsOf (([d] ++ taken tables' rest).flatMap (·.parts))
          = (rows ++ rowsOf d.parts) ++ rowsOf ((taken tables' rest).flatMap (·.parts)) := by
        rw [List.flatMap_append, rowsOf_append, ← List.append_assoc]
        simp
      rw [show (Except.ok tables' : Except StoreError DetailTables).isOk = true from rfl, if_pos rfl,
        hparts]
      refine ih hcheckRest (hepoch ▸ htaken.noLegacy) hroomRest.2 hrest hkeptRest ?_ ?_
      · rintro ⟨e, he, hspeaks⟩
        exact htaken.heads hepoch (hlater e he hspeaks)
          (hheads ⟨e, List.mem_cons_of_mem _ he, hspeaks⟩)
      · exact htaken.hour hepoch (hinside d List.mem_cons_self)
          (hkept d List.mem_cons_self) (fun hspeaks => hheads ⟨d, List.mem_cons_self, hspeaks⟩)
          hbefore

/-- A delivery that nothing refuses: its report passes the validation for a generation of the
machine, and no hour outgrows its column. -/
structure Delivery.Acceptable (d : Delivery) (tables : DetailTables)
    (owner : String → Option (String × String)) : Prop where
  valid : validateFor d.console.validKey d.report d.now = .ok ()
  generation : (d.console.generations d.report.usageGenerationId).isSome = true
  /-- the server's clock is past the first window -/
  clock : 0 < replayFloor d.now
  fits : Fits tables d.report owner

theorem taken_of_acceptable (hcheckpoint : d.IsCheckpoint epoch owner)
    (haccepted : d.Acceptable tables owner) : taken tables [d] = [d] := by
  have hok : (d.record tables).isOk = true :=
    recordFor_accepted hcheckpoint.1 haccepted.valid haccepted.generation hcheckpoint.2.2
      haccepted.clock haccepted.fits
  unfold taken
  rw [if_pos hok]
  rfl

theorem reported_of_mem {reports reports' : List OtherDomainReport}
    (h : ∀ report, report ∈ reports ↔ report ∈ reports') :
    reported owner (rowsOf reports) key = reported owner (rowsOf reports') key := by
  have hrows : ∀ row, row ∈ rowsOf reports ↔ row ∈ rowsOf reports' := by
    intro row
    simp only [rowsOf, List.mem_flatMap, h]
  refine reported_congr (fun segment => ?_) fun segment bound => ?_
  · simp only [hrows]
  · unfold AtMost
    simp only [hrows]

/-- **Checkpoints converge**: whatever is delivered of reports of one epoch, in whatever order,
how often and merged in whatever way, an hour comes to the sum over its segments of the
greatest value reported; a merge of reports the control plane takes is one it takes; and it takes
every one that passes its validation, with its labels owned, while the hours fit their columns. -/
theorem checkpoints_converge :
    (∀ (epoch : String) (owner : String → Option (String × String)) (tables : DetailTables)
        (deliveries : List Delivery) (reports : List OtherDomainReport) (key : HourKey),
      (∀ d ∈ deliveries, d.IsCheckpoint epoch owner) → FreshEpoch tables epoch →
      roomy tables deliveries = true → Replayable deliveries key.1 → Kept deliveries key.1 →
      (∀ report, report ∈ reports ↔ ∃ d ∈ taken tables deliveries, report ∈ d.parts) →
      ((run tables deliveries).hourly.get? key).getD (0, 0)
        = (tables.hourly.get? key).getD (0, 0) + reported owner (rowsOf reports) key)
    ∧ (∀ (validKey : String → Bool) (old next merged : OtherDomainReport) (now : ℤ),
      validateFor validKey old now = .ok () → validateFor validKey next now = .ok () →
      (∀ a ∈ old.counters ++ next.counters, ∀ b ∈ old.counters ++ next.counters,
        a.counterId = b.counterId → a.segment = b.segment) →
      mergeDetailCheckpoint old next = some merged → validateFor validKey merged now = .ok ())
    ∧ ∀ (epoch : String) (owner : String → Option (String × String)) (tables : DetailTables)
        (d : Delivery), d.IsCheckpoint epoch owner → d.Acceptable tables owner →
      taken tables [d] = [d] := by
  refine ⟨?_, fun _ _ _ _ _ hold hnext hids hmerge => merge_valid hold hnext hids hmerge,
    fun _ _ _ _ hcheckpoint haccepted => taken_of_acceptable hcheckpoint haccepted⟩
  intro epoch owner tables deliveries reports key hcheckpoints hfresh hroom hwindow hkept hreports
  have hlegacy : NoLegacy tables epoch := fun head hhead => hfresh 0 head hhead
  have hstart : (tables.hourly.get? key).getD (0, 0)
      = (tables.hourly.get? key).getD (0, 0) + reported owner [] key := (add_zero _).symm
  have hrun := run_hour hcheckpoints hlegacy hroom hwindow hkept (fun _ segment _ _ => ?_) hstart
  · rw [hrun, List.nil_append, reported_of_mem fun report => ?_]
    rw [hreports, List.mem_flatMap]
  · unfold headBytes
    rw [hfresh segment.2.2.2 _ rfl]
    rfl

/-! ### A machine that was cut off

One user, one domain, two segments; the control plane hears of it an hour later. -/

/-- A generation that names Alice. -/
def aliceGeneration : UsageGeneration where
  id := 1
  deploymentId := none
  revisionId := none
  bindings :=
    OrdMap.empty.insert "u.alice" (.user "acme" "alice" "in" "app" none .establishBaseline)
  activatedAtUnixSecs := none

def aliceOwner (label : String) : Option (String × String) :=
  if label = "u.alice" then some ("acme", "alice") else none

/-- A console that keeps some hours. -/
def aliceConsole (historyHours : ℕ) : DetailConsole where
  node := "node"
  validKey := validDomain
  enabled := true
  nodeCapacity := 512
  historyHours := historyHours
  generations id := if id = 1 then some aliceGeneration else none

def aliceEpoch : String := "0123456789abcdef0123456789abcdef"

def aliceHour : HourKey := (472220 * 3600, "acme", "alice", "example.com")

/-- A row of Alice's. -/
def aliceRow (counterId uplinkBytes downlinkBytes : ℕ) : OtherDomainCounter where
  counterId := counterId
  bucket := 472220 * 3600
  label := "u.alice"
  domain := "example.com"
  uplinkBytes := uplinkBytes
  downlinkBytes := downlinkBytes

/-- A checkpoint so many seconds into the hour. -/
def aliceReport (seconds : ℤ) (rows : List OtherDomainCounter) : OtherDomainReport where
  version := DETAIL_CHECKPOINT_VERSION
  epoch := aliceEpoch
  activationUnixSecs := 472220 * 3600
  readAtUnixSecs := 472220 * 3600 + seconds
  usageGenerationId := 1
  limited := false
  counters := rows

def aliceEarly : OtherDomainReport := aliceReport 60 [aliceRow 1 100 10]

def aliceLate : OtherDomainReport := aliceReport 120 [aliceRow 1 90 30, aliceRow 2 20 30]

def aliceBoth : OtherDomainReport := aliceReport 120 [aliceRow 1 100 30, aliceRow 2 20 30]

theorem aliceBoth_merged : mergeDetailCheckpoint aliceEarly aliceLate = some aliceBoth := by
  decide +kernel

/-- The two reports merged, and the first of them once more. -/
def aliceDeliveries (historyHours : ℕ) : List Delivery :=
  [⟨aliceConsole historyHours, 472221 * 3600 + 600, aliceBoth, [aliceEarly, aliceLate],
      .merged (.read aliceEarly) (.read aliceLate) aliceBoth_merged⟩,
    ⟨aliceConsole historyHours, 472221 * 3600 + 660, aliceEarly, [aliceEarly], .read aliceEarly⟩]

def noTables : DetailTables := ⟨.empty, .empty, none⟩

theorem aliceDeliveries_checkpoints (historyHours : ℕ) :
    ∀ d ∈ aliceDeliveries historyHours, d.IsCheckpoint aliceEpoch aliceOwner := by
  have howned : ∀ report : OtherDomainReport, report.usageGenerationId = 1 →
      (∀ row ∈ report.counters, row.label = "u.alice") →
      OwnedBy (aliceConsole historyHours) report aliceOwner := by
    intro report hid hlabel generation hgeneration row hrow
    rw [hid] at hgeneration
    obtain rfl : aliceGeneration = generation := Option.some.inj hgeneration
    rw [hlabel row hrow]
    exact ⟨by decide +kernel, rfl⟩
  intro d hd
  rcases List.mem_cons.mp hd with rfl | hd
  · exact ⟨rfl, rfl, howned aliceBoth rfl (by simp [aliceBoth, aliceReport, aliceRow])⟩
  · obtain rfl := List.mem_singleton.mp hd
    exact ⟨rfl, rfl, howned aliceEarly rfl (by simp [aliceEarly, aliceReport, aliceRow])⟩

theorem aliceDeliveries_replayable (historyHours : ℕ) :
    Replayable (aliceDeliveries historyHours) aliceHour.1 := by
  have hfloor : ∀ d ∈ aliceDeliveries historyHours, replayFloor d.now ≤ aliceHour.1 := by
    intro d hd
    rcases List.mem_cons.mp hd with rfl | hd
    · show replayFloor (472221 * 3600 + 600) ≤ 472220 * 3600
      decide
    · obtain rfl := List.mem_singleton.mp hd
      show replayFloor (472221 * 3600 + 660) ≤ 472220 * 3600
      decide
  refine ⟨List.pairwise_cons.mpr ⟨fun d hd _ => ?_, List.pairwise_singleton _ _⟩,
    fun d hd _ => hfloor d hd⟩
  exact hfloor _ List.mem_cons_self

theorem aliceDeliveries_roomy :
    roomy noTables (aliceDeliveries 720) = true ∧ roomy noTables (aliceDeliveries 1) = true := by
  decide +kernel

theorem aliceDeliveries_taken (historyHours : ℕ) (h : historyHours = 720 ∨ historyHours = 1)
    (report : OtherDomainReport) : report ∈ [aliceLate, aliceEarly]
      ↔ ∃ d ∈ taken noTables (aliceDeliveries historyHours), report ∈ d.parts := by
  have hparts : ((taken noTables (aliceDeliveries historyHours)).map (·.parts)).flatten
      = [aliceEarly, aliceLate, aliceEarly] := by
    rcases h with rfl | rfl
    · decide +kernel
    · decide +kernel
  have hmem : (∃ d ∈ taken noTables (aliceDeliveries historyHours), report ∈ d.parts)
      ↔ report ∈ [aliceEarly, aliceLate, aliceEarly] := by
    rw [← hparts]
    simp
  rw [hmem]
  simp only [List.mem_cons, List.not_mem_nil, or_false]
  constructor
  · intro h
    exact h.elim (fun hlate => .inr (.inl hlate)) .inl
  · intro h
    exact h.elim .inr fun h => h.elim .inl .inr

/-- The first report by itself. -/
def aliceFirst : Delivery :=
  ⟨aliceConsole 720, 472221 * 3600 + 660, aliceEarly, [aliceEarly], .read aliceEarly⟩

theorem aliceFirst_acceptable : aliceFirst.Acceptable noTables aliceOwner where
  valid := by decide +kernel
  generation := rfl
  clock := by decide
  fits key := by
    rw [← said_eq_reported (by decide +kernel)]
    unfold said
    rw [show aliceFirst.report.counters = [aliceRow 1 100 10] from rfl, List.filter_cons]
    split
    · show ((0, 0) : Bytes) + ((100, 10) + 0) ≤ (I64_MAX, I64_MAX)
      decide
    · show ((0, 0) : Bytes) + 0 ≤ (I64_MAX, I64_MAX)
      decide

theorem checkpoints_converge_alice :
    ((run noTables (aliceDeliveries 720)).hourly.get? aliceHour).getD (0, 0)
        = (noTables.hourly.get? aliceHour).getD (0, 0)
          + reported aliceOwner (rowsOf [aliceLate, aliceEarly]) aliceHour
      ∧ validateFor validDomain aliceBoth (472221 * 3600 + 600) = .ok ()
      ∧ taken noTables [aliceFirst] = [aliceFirst] :=
  ⟨checkpoints_converge.1 aliceEpoch aliceOwner noTables (aliceDeliveries 720)
      [aliceLate, aliceEarly] aliceHour (aliceDeliveries_checkpoints 720) (fun _ _ _ => rfl)
      aliceDeliveries_roomy.1 (aliceDeliveries_replayable 720)
      (by
        intro d hd
        rcases List.mem_cons.mp hd with rfl | hd
        · decide
        · obtain rfl := List.mem_singleton.mp hd
          decide)
      (aliceDeliveries_taken 720 (.inl rfl)),
    checkpoints_converge.2.1 validDomain aliceEarly aliceLate aliceBoth (472221 * 3600 + 600)
      (by decide +kernel) (by decide +kernel) (by decide +kernel) aliceBoth_merged,
    checkpoints_converge.2.2 aliceEpoch aliceOwner noTables aliceFirst
      (aliceDeliveries_checkpoints 720 aliceFirst (.tail _ (.head _))) aliceFirst_acceptable⟩

/-- **An hour the history does not keep is gone**: at a retention of one hour the control plane
deletes the hour it has just written. -/
theorem forgotten_hour_fails :
    ¬ ∀ (epoch : String) (owner : String → Option (String × String)) (tables : DetailTables)
        (deliveries : List Delivery) (reports : List OtherDomainReport) (key : HourKey),
      (∀ d ∈ deliveries, d.IsCheckpoint epoch owner) → FreshEpoch tables epoch →
      roomy tables deliveries = true → Replayable deliveries key.1 →
      (∀ report, report ∈ reports ↔ ∃ d ∈ taken tables deliveries, report ∈ d.parts) →
      ((run tables deliveries).hourly.get? key).getD (0, 0)
        = (tables.hourly.get? key).getD (0, 0) + reported owner (rowsOf reports) key := by
  intro h
  have hfalse := h aliceEpoch aliceOwner noTables (aliceDeliveries 1) [aliceLate, aliceEarly]
    aliceHour (aliceDeliveries_checkpoints 1) (fun _ _ _ => rfl) aliceDeliveries_roomy.2
    (aliceDeliveries_replayable 1) (aliceDeliveries_taken 1 (.inr rfl))
  have hreported : reported aliceOwner (rowsOf [aliceLate, aliceEarly]) aliceHour = (120, 60) := by
    decide +kernel
  have hgone : (run noTables (aliceDeliveries 1)).hourly.get? aliceHour = none := by decide +kernel
  rw [hreported, hgone] at hfalse
  exact absurd hfalse (by decide)

end Brocade.Detail
