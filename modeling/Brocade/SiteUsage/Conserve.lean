/-
Runs of reports.

Within an epoch, an activation and a generation the hours of a user and a site grow by what the
user's counters gained there: the last value of each less its first baseline.  A counter's
baseline is the head it had when the run began, or zero where the report goes on from the last
one, or what the first report says.
-/
import Brocade.SiteUsage.Balance

namespace Brocade.SiteUsage

open Fallible

variable {owners : OrdMap String (String × String)} {db after : SiteDb} {generationId readAt : ℤ}
  {report : SiteUsageReport} {unseen : CounterKey → ℤ × ℤ} {tenant user site : String}
  {catalog : List String}

theorem validate_ok (h : validate catalog report = .ok ()) :
    (∀ counter ∈ report.counters, counter.uplinkBytes ≤ I64_MAX ∧ counter.downlinkBytes ≤ I64_MAX)
      ∧ (report.counters.map (·.key)).Nodup := by
  unfold validate at h
  split at h
  · cases h
  · split at h
    · cases h
    · rename_i hcounters
      rw [not_or, not_not] at hcounters
      refine ⟨fun counter hcounter => ?_, hcounters.2⟩
      have hvalid : counter.invalid catalog ≠ true := fun hinvalid =>
        hcounters.1 (List.any_eq_true.mpr ⟨counter, hcounter, hinvalid⟩)
      unfold SiteUsageCounter.invalid at hvalid
      simp only [ne_eq, Bool.or_eq_true, decide_eq_true_eq, not_or, not_lt] at hvalid
      exact ⟨hvalid.1.2, hvalid.2⟩

/-- What an accepted report leaves. -/
structure Recorded (owners : OrdMap String (String × String)) (generationId readAt : ℤ)
    (report : SiteUsageReport) (db after : SiteDb) (progress : Progress) : Prop where
  counted : report.counters.foldlM (recordCounter owners db generationId readAt report)
    ⟨.empty, db.hourly, [], report.limited⟩ = .ok progress
  flushed : flushHourly progress.hourly progress.table = .ok after.hourly
  read : 0 < readAt
  heads : after.heads = putAll (resumed db report) progress.kept
  state : ∃ baselineAt limited, after.state
    = some ⟨report.epoch, report.activationId.getD 0, generationId, readAt, baselineAt, limited⟩

theorem record_ok (haccepted : delayed db readAt = false)
    (h : record owners generationId readAt report db = .ok after) :
    ∃ progress, Recorded owners generationId readAt report db after progress := by
  unfold record at h
  rw [haccepted, if_neg nofun] at h
  obtain ⟨progress, hcounted, h⟩ := bind_eq_ok.mp h
  obtain ⟨table, hflushed, h⟩ := bind_eq_ok.mp h
  by_cases hread : readAt ≤ 0
  · rw [if_pos hread] at h
    cases h
  · rw [if_neg hread] at h
    rw [← Except.ok.inj h]
    exact ⟨progress, hcounted, hflushed, not_le.mp hread, rfl, _, _, rfl⟩

theorem record_delayed (h : delayed db readAt = true) :
    record owners generationId readAt report db = .ok db := by
  unfold record
  rw [if_pos h]

/-! ### Every history -/

theorem Sound.empty : Sound .empty where
  heads _ _ h := absurd h nofun
  before _ h := absurd h nofun
  state _ h := absurd h nofun

theorem Sound.of_record (hsound : Sound db)
    (h : record owners generationId readAt report db = .ok after) : Sound after := by
  by_cases hdelayed : delayed db readAt = true
  · rw [record_delayed hdelayed] at h
    exact Except.ok.inj h ▸ hsound
  · have haccepted := eq_false_of_ne_true hdelayed
    obtain ⟨progress, hrecorded⟩ := record_ok haccepted h
    obtain ⟨baselineAt, limited, hstate⟩ := hrecorded.state
    have hheads : ∀ key head, after.heads.get? key = some head →
        0 ≤ head.readAt ∧ 0 ≤ head.uplinkBytes ∧ 0 ≤ head.downlinkBytes ∧ head.readAt ≤ readAt := by
      intro key head hget
      rw [hrecorded.heads, recordCounters_kept hrecorded.counted] at hget
      rcases get?_putAll hget with hkept | hold
      · obtain ⟨counter, -, hrow⟩ := List.mem_map.mp hkept
        obtain ⟨-, rfl⟩ := Prod.mk.inj hrow
        exact ⟨le_of_lt hrecorded.read, Int.natCast_nonneg _, Int.natCast_nonneg _, le_refl _⟩
      · unfold resumed at hold
        by_cases hsame : sameEpoch db report = true
        · rw [if_pos hsame] at hold
          obtain ⟨h₁, h₂, h₃⟩ := hsound.heads key head hold
          refine ⟨h₁, h₂, h₃, ?_⟩
          cases hrow : db.state with
          | none =>
            rw [sameEpoch, hrow] at hsame
            cases hsame
          | some row =>
            rw [delayed, hrow] at haccepted
            have hlater : row.readAt < readAt := not_le.mp (of_decide_eq_false haccepted)
            exact le_of_lt (lt_of_le_of_lt (hsound.before row hrow key head hold) hlater)
        · rw [if_neg hsame] at hold
          cases hold
    refine ⟨fun key head hget => ?_, fun row hrow key head hget => ?_, fun row hrow => ?_⟩
    · obtain ⟨h₁, h₂, h₃, -⟩ := hheads key head hget
      exact ⟨h₁, h₂, h₃⟩
    · rw [hstate] at hrow
      rw [← Option.some.inj hrow]
      exact (hheads key head hget).2.2.2
    · rw [hstate] at hrow
      rw [← Option.some.inj hrow]
      exact hrecorded.read

theorem step_sound (hsound : Sound db) (event : Event) : Sound (step db event) := by
  cases event with
  | report owners generationId readAt report =>
    simp only [step]
    cases h : record owners generationId readAt report db with
    | ok after => exact hsound.of_record h
    | error e => exact hsound
  | missing readAt =>
    have hkept : ∀ row, (db.state.filter fun row => decide (readAt < row.readAt)) = some row →
        db.state = some row := by
      intro row hrow
      exact (Option.filter_eq_some_iff.mp hrow).1
    exact ⟨hsound.heads, fun row hrow => hsound.before row (hkept row hrow),
      fun row hrow => hsound.state row (hkept row hrow)⟩

theorem history_sound (events : List Event) : Sound (history events) := by
  have hrun : ∀ (events : List Event) (db : SiteDb), Sound db → Sound (events.foldl step db) := by
    intro events
    induction events with
    | nil => exact fun _ hsound => hsound
    | cons event events ih => exact fun db hsound => ih _ (step_sound hsound event)
  exact hrun events .empty Sound.empty

/-! ### One report -/

/-- No counter was read last before the first hour of the view. -/
def recent (db : SiteDb) (generationId readAt : ℤ) (report : SiteUsageReport) : Bool :=
  report.counters.all fun counter => inView readAt (origin db generationId readAt report counter)

/-- No owned counter is below its head. -/
def rising (owners : OrdMap String (String × String)) (db : SiteDb) (generationId readAt : ℤ)
    (report : SiteUsageReport) : Bool :=
  report.counters.all fun counter =>
    (owners.get? counter.label).isNone || risen counter (origin db generationId readAt report counter)

/-- What a report says a counter is at. -/
def counterOf (report : SiteUsageReport) (key : CounterKey) : Option (ℤ × ℤ) :=
  (report.counters.find? fun counter => decide (counter.key = key)).map (·.bytes)

/-- **A report moves the hours by as much as its heads.** -/
theorem record_surplus (tenant user site : String) (hsound : Sound db) (haccepted : delayed db readAt = false)
    (hvalid : validate catalog report = .ok ()) (hbound : readAt < 2 ^ 40)
    (hrecent : recent db generationId readAt report = true)
    (hunseen : ∀ counter ∈ report.counters, owners.get? counter.label ≠ none →
      (resumed db report).get? counter.key = none →
      unseen counter.key = (origin db generationId readAt report counter).bytes)
    (h : record owners generationId readAt report db = .ok after) :
    siteTotal tenant user site after.hourly
        - labelTotal tenant user site owners (valueOf unseen after.heads)
      = siteTotal tenant user site db.hourly
        - labelTotal tenant user site owners (valueOf unseen (resumed db report)) := by
  obtain ⟨progress, hrecorded⟩ := record_ok haccepted h
  obtain ⟨hwidth, hnodup⟩ := validate_ok hvalid
  have hfresh : (([] : List (CounterKey × Head)).map Prod.fst
      ++ report.counters.map (·.key)).Nodup := hnodup
  have hmoved : surplus tenant user site owners unseen (putAll (resumed db report) progress.kept)
      progress.hourly progress.table
        = surplus tenant user site owners unseen (resumed db report) .empty db.hourly :=
    recordCounters_surplus hsound haccepted ⟨hrecorded.read, hbound⟩
      (fun counter hcounter => ⟨hwidth counter hcounter,
        List.all_eq_true.mp hrecent counter hcounter, hunseen counter hcounter⟩)
      hfresh hrecorded.counted
  unfold surplus at hmoved
  rw [hrecorded.heads, flushHourly_total hrecorded.flushed, add_comm, hmoved]
  show 0 + _ - _ = _
  rw [zero_add]

/-- **Every owned counter has the head the report gives it**, and the others the one they had. -/
theorem record_heads (haccepted : delayed db readAt = false)
    (hvalid : validate catalog report = .ok ())
    (hrising : rising owners db generationId readAt report = true)
    (h : record owners generationId readAt report db = .ok after) {key : CounterKey}
    (howned : owners.get? key.1 ≠ none) : after.heads.get? key
      = match report.counters.find? fun counter => decide (counter.key = key) with
        | some counter => some (headRow readAt counter).2
        | none => (resumed db report).get? key := by
  obtain ⟨progress, hrecorded⟩ := record_ok haccepted h
  obtain ⟨-, hnodup⟩ := validate_ok hvalid
  have hkept := recordCounters_kept hrecorded.counted
  rw [List.nil_append] at hkept
  rw [hrecorded.heads, hkept]
  have hkeys : ((report.counters.filter (taken owners db generationId readAt report)).map
      (headRow readAt)).map Prod.fst
        = (report.counters.filter (taken owners db generationId readAt report)).map (·.key) := by
    rw [List.map_map]
    rfl
  cases hfind : report.counters.find? fun counter => decide (counter.key = key) with
  | none =>
    refine get?_putAll_of_not_mem ?_
    rw [hkeys]
    intro hmem
    obtain ⟨counter, hcounter, hkey⟩ := List.mem_map.mp hmem
    exact absurd (decide_eq_true hkey)
      (List.find?_eq_none.mp hfind counter (List.mem_of_mem_filter hcounter))
  | some counter =>
    obtain ⟨hin, hkey⟩ : counter ∈ report.counters ∧ counter.key = key :=
      ⟨List.mem_of_find?_eq_some hfind, by simpa using List.find?_some hfind⟩
    have htaken : taken owners db generationId readAt report counter = true := by
      have hrisen := List.all_eq_true.mp hrising counter hin
      have hlabel : owners.get? counter.label ≠ none := by
        rw [← hkey] at howned
        exact howned
      unfold taken
      rw [Bool.or_eq_true] at hrisen
      rw [Bool.and_eq_true]
      refine ⟨Option.isSome_iff_ne_none.mpr hlabel, hrisen.resolve_left fun hnone => ?_⟩
      exact hlabel (Option.isNone_iff_eq_none.mp hnone)
    refine get?_putAll_of_mem _ (by rw [hkeys]; exact hnodup.sublist (List.filter_sublist.map _))
      (List.mem_map.mpr ⟨counter, List.mem_filter.mpr ⟨hin, htaken⟩, ?_⟩)
    rw [← hkey]
    rfl

theorem record_values (haccepted : delayed db readAt = false)
    (hvalid : validate catalog report = .ok ())
    (hrising : rising owners db generationId readAt report = true)
    (h : record owners generationId readAt report db = .ok after) {key : CounterKey}
    (howned : owners.get? key.1 ≠ none) : valueOf unseen after.heads key
      = (counterOf report key).getD (valueOf unseen (resumed db report) key) := by
  unfold valueOf counterOf
  rw [record_heads haccepted hvalid hrising h howned]
  cases report.counters.find? fun counter => decide (counter.key = key) with
  | none => rfl
  | some counter => rfl

/-! ### Runs -/

/-- A report and its time. -/
structure Reading where
  readAt : ℤ
  report : SiteUsageReport

/-- Reports of one generation, one after the other; each of them commits. -/
def recordAll (owners : OrdMap String (String × String)) (generationId : ℤ)
    (readings : List Reading) (db : SiteDb) : Except String SiteDb :=
  readings.foldlM (fun db reading => record owners generationId reading.readAt reading.report db) db

/-- Each report that is not delayed finds its counters risen, and read within the view. -/
def steady (owners : OrdMap String (String × String)) (generationId : ℤ) :
    SiteDb → List Reading → Bool
  | _, [] => true
  | db, reading :: readings =>
    (delayed db reading.readAt
        || (recent db generationId reading.readAt reading.report
          && rising owners db generationId reading.readAt reading.report))
      && match record owners generationId reading.readAt reading.report db with
        | .ok after => steady owners generationId after readings
        | .error _ => true

/-- The last value a counter is reported at, delayed reports apart. -/
def finalCounter (key : CounterKey) : Option ℤ → List Reading → ℤ × ℤ → ℤ × ℤ
  | _, [], value => value
  | last, reading :: readings, value =>
    if last.any fun last => decide (reading.readAt ≤ last) then
      finalCounter key last readings value
    else
      finalCounter key (some reading.readAt) readings
        ((counterOf reading.report key).getD value)

/-- The report is of the node's epoch, activation and generation. -/
def Continues (db : SiteDb) (generationId : ℤ) (report : SiteUsageReport) : Prop :=
  sameEpoch db report = true ∧ sameGeneration db generationId = true

theorem Continues.resumed (h : Continues db generationId report) :
    resumed db report = db.heads := if_pos h.1

theorem continues_after {progress : Progress} {next : SiteUsageReport}
    (h : Recorded owners generationId readAt report db after progress)
    (hepoch : next.epoch = report.epoch)
    (hactivation : next.activationId.getD 0 = report.activationId.getD 0) :
    Continues after generationId next := by
  obtain ⟨baselineAt, limited, hstate⟩ := h.state
  unfold Continues sameEpoch sameGeneration
  rw [hstate, Option.any_some, Option.any_some, hepoch, hactivation]
  exact ⟨by rw [decide_eq_true rfl, decide_eq_true rfl]; rfl, decide_eq_true rfl⟩

theorem Continues.origin_bytes (h : Continues db generationId report) {counter : SiteUsageCounter}
    (hnone : (SiteUsage.resumed db report).get? counter.key = none) :
    (origin db generationId readAt report counter).bytes = 0 := by
  unfold origin
  rw [hnone]
  simp only
  rw [h.1, h.2]
  rfl

theorem recordAll_continued (tenant user site : String) {readings : List Reading} (hsound : Sound db)
    (hcontinues : ∀ reading ∈ readings, Continues db generationId reading.report)
    (hsame : ∀ reading ∈ readings, ∀ other ∈ readings, other.report.epoch = reading.report.epoch
        ∧ other.report.activationId.getD 0 = reading.report.activationId.getD 0)
    (hvalid : ∀ reading ∈ readings,
      validate catalog reading.report = .ok () ∧ reading.readAt < 2 ^ 40)
    (hsteady : steady owners generationId db readings = true)
    (hunseen : ∀ key : CounterKey, owners.get? key.1 ≠ none → db.heads.get? key = none →
      unseen key = 0)
    (h : recordAll owners generationId readings db = .ok after) :
    siteTotal tenant user site after.hourly
          - labelTotal tenant user site owners (valueOf unseen after.heads)
        = siteTotal tenant user site db.hourly
          - labelTotal tenant user site owners (valueOf unseen db.heads)
      ∧ ∀ key : CounterKey, owners.get? key.1 ≠ none → valueOf unseen after.heads key
          = finalCounter key (db.state.map (·.readAt)) readings (valueOf unseen db.heads key) := by
  induction readings generalizing db with
  | nil =>
    rw [recordAll, List.foldlM_nil, pure_eq_ok] at h
    rw [h]
    exact ⟨rfl, fun _ _ => rfl⟩
  | cons reading readings ih =>
    rw [recordAll, List.foldlM_cons, bind_eq_ok] at h
    obtain ⟨middle, hrecord, hrest⟩ := h
    have hmine := hcontinues reading List.mem_cons_self
    obtain ⟨hvalid₀, hbound⟩ := hvalid reading List.mem_cons_self
    have hvalid' := fun other hother => hvalid other (List.mem_cons_of_mem reading hother)
    have hsame' := fun one hone other hother =>
      hsame one (List.mem_cons_of_mem reading hone) other (List.mem_cons_of_mem reading hother)
    rw [steady, hrecord, Bool.and_eq_true] at hsteady
    have hany : (db.state.map (·.readAt)).any (fun last => decide (reading.readAt ≤ last))
        = delayed db reading.readAt := by
      rw [Option.any_map]
      rfl
    by_cases hdelayed : delayed db reading.readAt = true
    · rw [record_delayed hdelayed] at hrecord
      obtain rfl := Except.ok.inj hrecord
      obtain ⟨htotal, hvalues⟩ := ih hsound
        (fun other hother => hcontinues other (List.mem_cons_of_mem _ hother)) hsame' hvalid'
        hsteady.2 hunseen hrest
      refine ⟨htotal, fun key hkey => ?_⟩
      rw [finalCounter, hany, if_pos hdelayed]
      exact hvalues key hkey
    · have haccepted := eq_false_of_ne_true hdelayed
      obtain ⟨progress, hrecorded⟩ := record_ok haccepted hrecord
      rw [Bool.or_eq_true, Bool.and_eq_true] at hsteady
      obtain ⟨hrecent, hrising⟩ := hsteady.1.resolve_left hdelayed
      have hresumed := hmine.resumed
      have hmiddle : ∀ key : CounterKey, owners.get? key.1 ≠ none →
          middle.heads.get? key = none → unseen key = 0 := by
        intro key hkey hnone
        rw [hrecorded.heads, hresumed] at hnone
        exact hunseen key hkey (get?_of_putAll_none hnone)
      have horigin : ∀ counter ∈ reading.report.counters, owners.get? counter.label ≠ none →
          (resumed db reading.report).get? counter.key = none →
          unseen counter.key
            = (origin db generationId reading.readAt reading.report counter).bytes := by
        intro counter _ howned hnone
        rw [hmine.origin_bytes hnone]
        rw [hresumed] at hnone
        exact hunseen counter.key howned hnone
      have hmoved := record_surplus tenant user site hsound haccepted hvalid₀ hbound hrecent
        horigin hrecord
      obtain ⟨htotal, hvalues⟩ := ih (hsound.of_record hrecord)
        (fun other hother => by
          have hboth := hsame reading List.mem_cons_self other (List.mem_cons_of_mem _ hother)
          exact continues_after hrecorded hboth.1 hboth.2)
        hsame' hvalid' hsteady.2 hmiddle hrest
      refine ⟨htotal.trans ?_, fun key hkey => ?_⟩
      · rw [hmoved, hresumed]
      · obtain ⟨baselineAt, limited, hstate⟩ := hrecorded.state
        rw [hvalues key hkey, finalCounter, hany, if_neg hdelayed,
          record_values haccepted hvalid₀ hrising hrecord hkey, hstate, hresumed]
        rfl

/-- What a counter without a head is counted from, at the first report of a run. -/
def unseenAt (db : SiteDb) (generationId : ℤ) (report : SiteUsageReport) (key : CounterKey) : ℤ × ℤ :=
  if sameEpoch db report && sameGeneration db generationId then 0
  else (counterOf report key).getD 0

/-- A counter's baseline in the run that a report begins. -/
def baseline (db : SiteDb) (generationId : ℤ) (report : SiteUsageReport) (key : CounterKey) : ℤ × ℤ :=
  valueOf (unseenAt db generationId report) (resumed db report) key

theorem counterOf_of_mem (hnodup : (report.counters.map (·.key)).Nodup) {counter : SiteUsageCounter}
    (h : counter ∈ report.counters) : counterOf report counter.key = some counter.bytes := by
  unfold counterOf
  cases hfind : report.counters.find? fun other => decide (other.key = counter.key) with
  | none => exact absurd (decide_eq_true rfl) (List.find?_eq_none.mp hfind counter h)
  | some other =>
    have hin : other ∈ report.counters := List.mem_of_find?_eq_some hfind
    have hkey : other.key = counter.key := by simpa using List.find?_some hfind
    rw [List.inj_on_of_nodup_map hnodup hin h hkey]
    rfl

theorem labelTotal_congr {value value' : CounterKey → ℤ × ℤ}
    (h : ∀ key : CounterKey, owners.get? key.1 ≠ none → value key = value' key) :
    labelTotal tenant user site owners value = labelTotal tenant user site owners value' := by
  unfold labelTotal
  refine congrArg List.sum (List.map_congr_left fun entry hentry => h _ ?_)
  have hmem : (entry.1, entry.2) ∈ owners.entries := List.mem_of_mem_filter hentry
  rw [OrdMap.mem_entries.mp hmem]
  nofun

/-- **The hours of a user and a site grow by what the user's counters gained.** -/
theorem recordAll_total {events : List Event} {first : Reading} {rest : List Reading}
    (haccepted : delayed (history events) first.readAt = false)
    (hsame : ∀ reading ∈ rest, reading.report.epoch = first.report.epoch
      ∧ reading.report.activationId.getD 0 = first.report.activationId.getD 0)
    (hvalid : ∀ reading ∈ first :: rest,
      validate catalog reading.report = .ok () ∧ reading.readAt < 2 ^ 40)
    (hsteady : steady owners generationId (history events) (first :: rest) = true)
    (h : recordAll owners generationId (first :: rest) (history events) = .ok after) :
    siteTotal tenant user site after.hourly = siteTotal tenant user site (history events).hourly
        + (labelTotal tenant user site owners (fun key => finalCounter key none (first :: rest)
              (baseline (history events) generationId first.report key))
          - labelTotal tenant user site owners
              (baseline (history events) generationId first.report)) := by
  obtain ⟨db, hdb⟩ : ∃ db, history events = db := ⟨_, rfl⟩
  have hsound : Sound db := hdb ▸ history_sound events
  rw [hdb] at haccepted hsteady h ⊢
  rw [recordAll, List.foldlM_cons, bind_eq_ok] at h
  obtain ⟨middle, hrecord, hrest⟩ := h
  obtain ⟨hvalid₀, hbound⟩ := hvalid first List.mem_cons_self
  obtain ⟨hwidth, hnodup⟩ := validate_ok hvalid₀
  rw [steady, hrecord, haccepted, Bool.false_or, Bool.and_eq_true, Bool.and_eq_true] at hsteady
  obtain ⟨⟨hrecent, hrising⟩, hsteady'⟩ := hsteady
  obtain ⟨progress, hrecorded⟩ := record_ok haccepted hrecord
  have horigin : ∀ counter ∈ first.report.counters, owners.get? counter.label ≠ none →
      (resumed db first.report).get? counter.key = none →
      unseenAt db generationId first.report counter.key
        = (origin db generationId first.readAt first.report counter).bytes := by
    intro counter hcounter _ hnone
    unfold unseenAt origin
    rw [hnone]
    by_cases hcontinues : (sameEpoch db first.report && sameGeneration db generationId) = true
    · rw [if_pos hcontinues, if_pos hcontinues]
      rfl
    · rw [if_neg hcontinues, if_neg hcontinues, counterOf_of_mem hnodup hcounter]
      rfl
  have hmoved := record_surplus tenant user site hsound haccepted hvalid₀ hbound hrecent horigin
    hrecord
  -- a counter that has no head after the first report began at zero
  have hmiddle : ∀ key : CounterKey, owners.get? key.1 ≠ none → middle.heads.get? key = none →
      unseenAt db generationId first.report key = 0 := by
    intro key hkey hnone
    rw [record_heads haccepted hvalid₀ hrising hrecord hkey] at hnone
    unfold unseenAt counterOf
    cases hfind : first.report.counters.find? fun counter => decide (counter.key = key) with
    | none => exact ite_self 0
    | some counter =>
      rw [hfind] at hnone
      cases hnone
  obtain ⟨htotal, hvalues⟩ := recordAll_continued tenant user site
    (hsound.of_record hrecord)
    (fun reading hreading => continues_after hrecorded (hsame reading hreading).1
      (hsame reading hreading).2)
    (fun one hone other hother =>
      ⟨(hsame other hother).1.trans (hsame one hone).1.symm,
        (hsame other hother).2.trans (hsame one hone).2.symm⟩)
    (fun reading hreading => hvalid reading (List.mem_cons_of_mem _ hreading)) hsteady' hmiddle
    hrest
  obtain ⟨baselineAt, limited, hstate⟩ := hrecorded.state
  have hfinal : labelTotal tenant user site owners
        (valueOf (unseenAt db generationId first.report) after.heads)
      = labelTotal tenant user site owners (fun key => finalCounter key none (first :: rest)
          (baseline db generationId first.report key)) := by
    refine labelTotal_congr fun key hkey => ?_
    rw [hvalues key hkey, hstate, record_values haccepted hvalid₀ hrising hrecord hkey]
    rfl
  rw [← hfinal]
  have hall := htotal.trans hmoved
  show _ = _ + (_ - labelTotal tenant user site owners (valueOf _ _))
  rw [sub_eq_iff_eq_add] at hall
  rw [hall]
  abel

/-- **Every byte is in some hour.**  The hours of an interval are those it meets in the view, and
no byte is lost within it; and over a run of reports a user's hours at a site grow by what the
user's counters gained. -/
theorem hours_preserve_bytes : (∀ start stop up down : ℤ, Readable start stop up down →
      ∃ parts, hourlyParts start stop up down = some parts ∧ (up = 0 ∧ down = 0 → parts = [])
        ∧ (up ≠ 0 ∨ down ≠ 0 →
          Split start stop up down (max start ((stop / 3600 - 744) * 3600)) parts)
        ∧ ((stop / 3600 - 744) * 3600 ≤ start →
          (parts.map (·.up)).sum = up ∧ (parts.map (·.down)).sum = down))
      ∧ ∀ (catalog : List String) (owners : OrdMap String (String × String)) (generationId : ℤ)
          (events : List Event) (first : Reading) (rest : List Reading) (after : SiteDb)
          (tenant user site : String),
        delayed (history events) first.readAt = false →
        (∀ reading ∈ rest, reading.report.epoch = first.report.epoch
          ∧ reading.report.activationId.getD 0 = first.report.activationId.getD 0) →
        (∀ reading ∈ first :: rest,
          validate catalog reading.report = .ok () ∧ reading.readAt < 2 ^ 40) →
        steady owners generationId (history events) (first :: rest) = true →
        recordAll owners generationId (first :: rest) (history events) = .ok after →
        siteTotal tenant user site after.hourly = siteTotal tenant user site (history events).hourly
            + (labelTotal tenant user site owners (fun key => finalCounter key none (first :: rest)
                  (baseline (history events) generationId first.report key))
              - labelTotal tenant user site owners
                  (baseline (history events) generationId first.report)) := by
  refine ⟨fun start stop up down h => ?_, ?_⟩
  · by_cases hzero : up = 0 ∧ down = 0
    · rw [hzero.1, hzero.2]
      exact ⟨[], hourlyParts_zero start stop, fun _ => rfl, fun h => absurd rfl (h.elim id id),
        fun _ => ⟨rfl, rfl⟩⟩
    · obtain ⟨parts, hrun, hsplit⟩ := hourlyParts_spec h (by omega)
      exact ⟨parts, hrun, fun h => absurd h hzero, fun _ => hsplit, hsplit.all⟩
  · intro catalog owners generationId events first rest after tenant user site haccepted hsame
      hvalid hsteady hrun
    exact recordAll_total haccepted hsame hvalid hsteady hrun

/-! ### Two reports -/

/-- The owner of one label. -/
def sampleOwners : OrdMap String (String × String) := OrdMap.empty.insert "label" ("tenant", "user")

/-- The only counter of a report, at a moment. -/
def sampleReading (readAt : ℤ) (bytes : ℕ) : Reading where
  readAt
  report :=
    { version := 1
      epoch := "0123456789abcdef0123456789abcdef"
      activationId := none
      limited := false
      counters := [⟨"label", "site", bytes, 0⟩] }

/-- A baseline, and ten seconds later five bytes more. -/
def sampleRun : List Reading := [sampleReading 7195 1, sampleReading 7205 6]

def sampleAfter : SiteDb :=
  match recordAll sampleOwners 1 sampleRun (history []) with
  | .ok after => after
  | .error _ => .empty

theorem hours_preserve_bytes_sample : siteTotal "tenant" "user" "site" sampleAfter.hourly
      = siteTotal "tenant" "user" "site" (history []).hourly
        + (labelTotal "tenant" "user" "site" sampleOwners (fun key => finalCounter key none sampleRun
              (baseline (history []) 1 (sampleReading 7195 1).report key))
          - labelTotal "tenant" "user" "site" sampleOwners
              (baseline (history []) 1 (sampleReading 7195 1).report)) :=
  hours_preserve_bytes.2 ["site"] sampleOwners 1 [] (sampleReading 7195 1) [sampleReading 7205 6]
    sampleAfter "tenant" "user" "site" rfl (by decide) (by decide +kernel) (by decide +kernel) rfl

/-- No bytes, no hours; and two bytes of a counter that was not read for 64 days: one of them
falls before the view. -/
theorem hours_left_out : (Readable 0 10 0 0 ∧ hourlyParts 0 10 0 0 = some [] ∧ ¬Split 0 10 0 0 0 [])
      ∧ (recordAll sampleOwners 1 [sampleReading 3600 0, sampleReading 5533200 2]
          (history [])).map (fun after => siteTotal "tenant" "user" "site" after.hourly)
        = .ok (1, 0) := by
  refine ⟨⟨⟨by decide, by decide, by decide, by decide, by decide⟩, rfl, fun h => ?_⟩, ?_⟩
  · exact absurd ((h.hours 0).mpr ⟨0, by decide, by decide, rfl⟩) List.not_mem_nil
  · decide +kernel

end Brocade.SiteUsage
