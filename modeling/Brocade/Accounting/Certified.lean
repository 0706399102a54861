/-
No traffic in certified downtime.

The invariant says where every window stands: behind each process that ended before it, and no
later than the moment the present one began to serve.  While a boundary is in place, it also says
what may have happened since: nothing, or one launch that has not ended.  The order of the queued
windows is an invariant of its own (`Queued`): it needs more of a run.
-/
import Brocade.Accounting.Downtime
import Mathlib.Data.List.Basic
import Mathlib.Order.Basic

namespace Brocade.Accounting

/-- The window is over before the process served, or begins when it was gone. -/
def Apart (window : UsageZeroWindow) (life : ℤ × ℤ) : Prop :=
  life.2 ≤ window.startUnixMillis ∨ window.endUnixMillis ≤ life.1

/-- Each window ends before the next begins. -/
def Ordered (windows : List UsageZeroWindow) : Prop :=
  windows.Pairwise fun a b => a.endUnixMillis ≤ b.startUnixMillis

/-- The window is queued, or in a report. -/
def Placed (s : DowntimeState) (window : UsageZeroWindow) : Prop :=
  window ∈ s.zeroWindows ∨ ∃ report ∈ s.reports, window ∈ report

/-- Nothing happened since the boundary, or one launch that has not ended. -/
def Quiet (s : DowntimeState) : Prop :=
  s.launches = 0 ∨ (s.launches = 1 ∧ s.process ≠ none)

/-- What a boundary says of the past. -/
structure Bounded (s : DowntimeState) (start : ℤ) : Prop where
  passed : start ≤ s.now
  still : s.launches = 0 → s.process = none
  ended : Quiet s → ∀ life ∈ s.lives, life.2 ≤ start
  written : Quiet s → ∀ journal, s.journal = some journal →
    journal.launchedAt ≤ start ∨ ∃ process, s.process = some process
      ∧ process.opened = some journal.launchedAt

/-- Every window that was ever queued or reported is clear of every process. -/
structure Certified (s : DowntimeState) : Prop where
  lived : ∀ life ∈ s.lives, life.2 ≤ s.now
  serving : ∀ process, s.process = some process →
    process.started ≤ process.servingFrom ∧ process.servingFrom ≤ s.now
  written : ∀ journal, s.journal = some journal → journal.launchedAt ≤ s.now
  proper : ∀ window, Placed s window →
    window.startUnixMillis < window.endUnixMillis ∧ window.endUnixMillis ≤ s.now
  clear : ∀ window, Placed s window → ∀ life ∈ s.lives, Apart window life
  before : ∀ window, Placed s window → ∀ process, s.process = some process →
    window.endUnixMillis ≤ process.servingFrom
  bounded : ∀ start, s.boundary = some start → Bounded s start

theorem Certified.initial (now : ℤ) : Certified (.initial now) where
  lived _ h := absurd h List.not_mem_nil
  serving _ h := absurd h nofun
  written _ h := absurd h nofun
  proper _ h := by
    rcases h with h | ⟨_, h, -⟩
    · exact absurd h List.not_mem_nil
    · exact absurd h List.not_mem_nil
  clear _ _ _ h := absurd h List.not_mem_nil
  before _ _ _ h := absurd h nofun
  bounded _ h := absurd h nofun

namespace Certified

variable {s : DowntimeState}

/-! ### The process -/

section

variable (h : Certified s)

include h

theorem pass (millis : ℕ) : Certified (pass s millis) := by
  have hle : s.now ≤ s.now + millis := by omega
  refine ⟨fun life hlife => (h.lived life hlife).trans hle, fun process hprocess => ?_,
    fun journal hjournal => (h.written journal hjournal).trans hle, fun window hwindow => ?_,
    h.clear, h.before, fun start hstart => ?_⟩
  · obtain ⟨hstarted, hserving⟩ := h.serving process hprocess
    exact ⟨hstarted, hserving.trans hle⟩
  · obtain ⟨hproper, hend⟩ := h.proper window hwindow
    exact ⟨hproper, hend.trans hle⟩
  · obtain ⟨hpassed, hstill, hended, hwritten⟩ := h.bounded start hstart
    exact ⟨hpassed.trans hle, hstill, hended, hwritten⟩

theorem launch (pid : ℕ) : Certified (launch s pid) := by
  unfold Accounting.launch
  cases hnone : s.process with
  | some process => exact h
  | none =>
    refine ⟨h.lived, fun process hprocess => ?_, h.written, h.proper, h.clear,
      fun window hwindow process hprocess => ?_, fun start hstart => ?_⟩
    · obtain rfl := Option.some.inj hprocess
      exact ⟨le_refl _, le_refl _⟩
    · obtain rfl := Option.some.inj hprocess
      exact (h.proper window hwindow).2
    · have hb := h.bounded start hstart
      -- a second launch is not quiet
      have hquiet : Quiet { s with process := some ⟨pid, s.now, none⟩, launches := s.launches + 1 } →
          Quiet s := by
        intro hquiet
        rcases hquiet with hzero | ⟨hone, -⟩
        · exact absurd hzero (Nat.succ_ne_zero _)
        · exact .inl (Nat.succ.inj hone)
      refine ⟨hb.passed, fun hzero => absurd hzero (Nat.succ_ne_zero _),
        fun hq => hb.ended (hquiet hq), fun hq journal hjournal => .inl ?_⟩
      have hzero : s.launches = 0 := by
        rcases hquiet hq with hzero | ⟨-, hsome⟩
        · exact hzero
        · exact absurd hnone hsome
      rcases hb.written (.inl hzero) journal hjournal with hle | hopened
      · exact hle
      · obtain ⟨process, hprocess, -⟩ := hopened
        rw [hnone] at hprocess
        cases hprocess

theorem openJournal : Certified (openJournal s) := by
  unfold Accounting.openJournal
  cases hprocess : s.process with
  | none => exact h
  | some process =>
    simp only
    cases hopened : process.opened with
    | some moment => exact h
    | none =>
      have hfrom : process.servingFrom = process.started := by
        unfold ManagedProcess.servingFrom
        rw [hopened]
        rfl
      obtain ⟨hstarted, hserving⟩ := h.serving process hprocess
      rw [hfrom] at hserving
      refine ⟨h.lived, fun process' hprocess' => ?_, fun journal hjournal => ?_, h.proper, h.clear,
        fun window hwindow process' hprocess' => ?_, fun start hstart => ?_⟩
      · obtain rfl := Option.some.inj hprocess'
        exact ⟨hserving, le_refl _⟩
      · obtain rfl := Option.some.inj hjournal
        exact le_refl _
      · obtain rfl := Option.some.inj hprocess'
        exact (h.proper window hwindow).2
      · have hb := h.bounded start hstart
        have hquiet : Quiet { s with
            process := some { process with opened := some s.now }
            journal := some ⟨process.pid, s.now⟩ } → Quiet s := by
          intro hquiet
          rcases hquiet with hzero | ⟨hone, -⟩
          · exact .inl hzero
          · exact .inr ⟨hone, by rw [hprocess]; nofun⟩
        refine ⟨hb.passed, fun hzero => absurd (hb.still hzero) (by rw [hprocess]; nofun),
          fun hq => hb.ended (hquiet hq), fun _ journal hjournal => .inr ⟨_, rfl, ?_⟩⟩
        obtain rfl := Option.some.inj hjournal
        rfl

theorem exit : Certified (exit s) := by
  unfold Accounting.exit
  cases hprocess : s.process with
  | none => exact h
  | some process =>
    obtain ⟨hstarted, hserving⟩ := h.serving process hprocess
    refine ⟨fun life hlife => ?_, nofun, h.written, h.proper, fun window hwindow life hlife => ?_,
      nofun, fun start hstart => ?_⟩
    · rcases List.mem_cons.mp hlife with rfl | hin
      · exact le_refl _
      · exact h.lived life hin
    · rcases List.mem_cons.mp hlife with rfl | hin
      · exact .inr (h.before window hwindow process hprocess)
      · exact h.clear window hwindow life hin
    · have hb := h.bounded start hstart
      have hnot : ¬Quiet { s with
          process := none
          lives := (process.servingFrom, s.now) :: s.lives } := by
        intro hquiet
        rcases hquiet with hzero | ⟨-, hsome⟩
        · exact absurd (hb.still hzero) (by rw [hprocess]; nofun)
        · exact hsome rfl
      exact ⟨hb.passed, fun _ => rfl, fun hq => absurd hq hnot, fun hq => absurd hq hnot⟩

/-! ### The agent -/

theorem report (stopped : Option StoppedUsage)
    (hboundary : ∀ start, stopped.bind (·.stoppedAtUnixMillis) = some start →
      s.boundary = some start) :
    Certified { s with stopped, reports := s.zeroWindows :: s.reports } := by
  have hplaced : ∀ window, Placed { s with stopped, reports := s.zeroWindows :: s.reports } window →
      Placed s window := by
    intro window hwindow
    rcases hwindow with hin | ⟨report, hreport, hin⟩
    · exact .inl hin
    · rcases List.mem_cons.mp hreport with rfl | hold
      · exact .inl hin
      · exact .inr ⟨report, hold, hin⟩
  refine ⟨h.lived, h.serving, h.written, fun window hwindow => h.proper window (hplaced window hwindow),
    fun window hwindow => h.clear window (hplaced window hwindow),
    fun window hwindow => h.before window (hplaced window hwindow), fun start hstart => ?_⟩
  obtain ⟨hpassed, hstill, hended, hwritten⟩ := h.bounded start (hboundary start hstart)
  exact ⟨hpassed, hstill, hended, hwritten⟩

theorem sample : Certified (sample s) := by
  unfold Accounting.sample
  by_cases hserving : s.process.isSome = true
  · rw [if_pos hserving]
    exact h.report s.stopped fun start hstart => hstart
  · rw [if_neg hserving]
    exact h

theorem collected : Certified (collected s) := by
  have hplaced : ∀ window, Placed (Accounting.collected s) window → Placed s window := by
    intro window hwindow
    rcases hwindow with hin | hreported
    · exact absurd hin List.not_mem_nil
    · exact .inr hreported
  refine ⟨h.lived, h.serving, h.written, fun window hwindow => h.proper window (hplaced window hwindow),
    fun window hwindow => h.clear window (hplaced window hwindow),
    fun window hwindow => h.before window (hplaced window hwindow), fun start hstart => ?_⟩
  obtain ⟨hpassed, hstill, hended, hwritten⟩ := h.bounded start hstart
  exact ⟨hpassed, hstill, hended, hwritten⟩

end

theorem exit_zeroWindows (s : DowntimeState) : (Accounting.exit s).zeroWindows = s.zeroWindows := by
  unfold Accounting.exit
  split <;> rfl

theorem exit_process (s : DowntimeState) : (Accounting.exit s).process = none := by
  unfold Accounting.exit
  split
  · rfl
  · assumption

theorem noted (h : Certified s) (hnone : s.process = none) (journaled : Bool) :
    Certified (noted s journaled s.zeroWindows) := by
  have hreported := h.report none fun start hstart => by cases hstart
  refine ⟨h.lived, h.serving, h.written, hreported.proper, hreported.clear, hreported.before,
    fun start hstart => ?_⟩
  obtain rfl := Option.some.inj hstart
  exact ⟨le_refl _, fun _ => hnone, fun _ => h.lived,
    fun _ journal hjournal => .inl (h.written journal hjournal)⟩

theorem noticed (h : Certified s) (process : ManagedProcess) : Certified (noticed s process) :=
  h.report (some ⟨s.journaled process, none⟩) fun start hstart => by cases hstart

theorem stop (h : Certified s) (accounted : Bool) (outcome : StopOutcome) (dying settling : ℕ) :
    Certified (stop s accounted outcome dying settling) := by
  unfold Accounting.stop
  cases hprocess : s.process with
  | none => exact h
  | some process =>
    simp only
    by_cases haccounted : (!accounted) = true
    · rw [if_pos haccounted]
      exact (h.pass dying).exit
    · rw [if_neg haccounted]
      have hgone := ((h.noticed process).pass dying).exit
      cases outcome with
      | unread => exact h
      | pending => exact h.noticed process
      | unnoted => exact hgone
      | noted =>
        have hended := (hgone.pass settling).noted (exit_process _) (s.journaled process)
        have hsame : (Accounting.pass (Accounting.exit (Accounting.pass
            (Accounting.noticed s process) dying)) settling).zeroWindows = s.zeroWindows :=
          exit_zeroWindows _
        rw [hsame] at hended
        exact hended

/-! ### Certificates -/

variable {window : UsageZeroWindow} {windows : List UsageZeroWindow} {removed : Bool}

theorem certificate_eq (h : certificate s = some window) :
    s.boundary = some window.startUnixMillis ∧ window.endUnixMillis = s.now
      ∧ window.startUnixMillis < s.now := by
  unfold certificate at h
  cases hboundary : s.boundary with
  | none =>
    rw [hboundary] at h
    cases h
  | some start =>
    rw [hboundary, Option.bind_some] at h
    by_cases hle : s.now ≤ start
    · rw [if_pos hle] at h
      cases h
    · rw [if_neg hle] at h
      obtain rfl := Option.some.inj h
      exact ⟨rfl, rfl, not_le.mp hle⟩

/-- A certificate of a boundary that nothing was launched since. -/
structure Fresh (s : DowntimeState) (window : UsageZeroWindow) : Prop where
  start : s.boundary = some window.startUnixMillis
  finish : window.endUnixMillis = s.now
  proper : window.startUnixMillis < s.now
  still : s.launches = 0

theorem place (h : Certified s) (hf : Fresh s window) {journal : Option JournalLaunch}
    (hwindows : windows = s.zeroWindows ∨ windows = s.zeroWindows ++ [window])
    (hjournal : journal = s.journal ∨ journal = none) : Certified { s with
      journal
      zeroWindows := windows
      reports := (s.zeroWindows ++ [window]) :: s.reports } := by
  have hb := h.bounded _ hf.start
  have hnone := hb.still hf.still
  have hquiet : Quiet s := .inl hf.still
  have hplaced : ∀ other, Placed { s with
      journal
      zeroWindows := windows
      reports := (s.zeroWindows ++ [window]) :: s.reports } other → Placed s other ∨ other = window := by
    have hboth : ∀ other ∈ s.zeroWindows ++ [window], Placed s other ∨ other = window := by
      intro other hother
      rcases List.mem_append.mp hother with hin | hlast
      · exact .inl (.inl hin)
      · exact .inr (List.mem_singleton.mp hlast)
    intro other hother
    rcases hother with hin | ⟨report, hreport, hin⟩
    · rcases hwindows with rfl | rfl
      · exact .inl (.inl hin)
      · exact hboth other hin
    · rcases List.mem_cons.mp hreport with rfl | hold
      · exact hboth other hin
      · exact .inl (.inr ⟨report, hold, hin⟩)
  have hkept : ∀ j, journal = some j → s.journal = some j := by
    intro j hj
    rcases hjournal with rfl | rfl
    · exact hj
    · cases hj
  refine ⟨h.lived, h.serving, fun j hj => h.written j (hkept j hj), fun other hother => ?_,
    fun other hother life hlife => ?_, fun other hother process hprocess => ?_,
    fun start hstart => ?_⟩
  · rcases hplaced other hother with hold | rfl
    · exact h.proper other hold
    · exact ⟨lt_of_lt_of_eq hf.proper hf.finish.symm, le_of_eq hf.finish⟩
  · rcases hplaced other hother with hold | rfl
    · exact h.clear other hold life hlife
    · exact .inl (hb.ended hquiet life hlife)
  · rw [hnone] at hprocess
    cases hprocess
  · have hsame : window.startUnixMillis = start := Option.some.inj (hf.start.symm.trans hstart)
    exact ⟨hsame ▸ hb.passed, hb.still, fun hq => hsame ▸ hb.ended hq,
      fun hq j hj => hsame ▸ hb.written hq j (hkept j hj)⟩

theorem fresh_of_quiet (hcertificate : certificate s = some window)
    (hquiet : ((certificate s).isNone || decide (s.launches = 0)) = true) : Fresh s window := by
  obtain ⟨hstart, hfinish, hproper⟩ := certificate_eq hcertificate
  rw [hcertificate, Option.isNone_some, Bool.false_or] at hquiet
  exact ⟨hstart, hfinish, hproper, of_decide_eq_true hquiet⟩

theorem beforeLaunch_eq (hcertificate : certificate s = some window) (cut : LaunchCut) :
    ∃ windows journal, Accounting.beforeLaunch s cut = { s with
        journal
        zeroWindows := windows
        reports := (s.zeroWindows ++ [window]) :: s.reports }
      ∧ (windows = s.zeroWindows ∨ windows = s.zeroWindows ++ [window])
      ∧ (journal = s.journal ∨ journal = none) := by
  unfold Accounting.beforeLaunch
  rw [hcertificate]
  simp only
  by_cases hjournaled : s.stopped.any (·.journaled) = true
  · rw [if_pos hjournaled]
    cases cut with
    | reported => exact ⟨_, _, rfl, .inl rfl, .inl rfl⟩
    | archived => exact ⟨_, _, rfl, .inl rfl, .inl rfl⟩
    | complete =>
      by_cases hfull : 32 ≤ s.zeroWindows.length
      · simp only [if_pos hfull]
        exact ⟨_, _, rfl, .inl rfl, .inl rfl⟩
      · simp only [if_neg hfull]
        exact ⟨_, _, rfl, .inr rfl, .inl rfl⟩
  · rw [if_neg hjournaled]
    cases cut with
    | reported => exact ⟨_, _, rfl, .inl rfl, .inl rfl⟩
    | archived => exact ⟨_, _, rfl, .inl rfl, .inr rfl⟩
    | complete =>
      by_cases hfull : 32 ≤ s.zeroWindows.length
      · simp only [if_pos hfull]
        exact ⟨_, _, rfl, .inl rfl, .inr rfl⟩
      · simp only [if_neg hfull]
        exact ⟨_, _, rfl, .inr rfl, .inr rfl⟩

theorem beforeLaunch (h : Certified s) {cut : LaunchCut}
    (hquiet : quietCertificate s (.beforeLaunch cut) = true) : Certified (beforeLaunch s cut) := by
  cases hcertificate : certificate s with
  | none =>
    unfold Accounting.beforeLaunch
    rw [hcertificate]
    exact h
  | some window =>
    obtain ⟨windows, journal, heq, hwindows, hjournal⟩ := beforeLaunch_eq hcertificate cut
    rw [heq]
    exact h.place (fresh_of_quiet hcertificate hquiet) hwindows hjournal

theorem stoppedReport (h : Certified s) (hquiet : quietCertificate s .stoppedReport = true) :
    Certified (stoppedReport s) := by
  unfold Accounting.stoppedReport
  cases hboundary : s.boundary with
  | none => exact h
  | some start =>
    simp only
    cases hcertificate : certificate s with
    | none =>
      rw [Option.toList_none, List.append_nil]
      exact h.report s.stopped fun start hstart => hstart
    | some window => exact h.place (fresh_of_quiet hcertificate hquiet) (.inl rfl) (.inl rfl)

/-! ### The end of a launch -/

theorem mem_extendWindow {start finish : ℤ} : ∀ {windows extended : List UsageZeroWindow},
    extendWindow start finish windows = some extended → ∀ window ∈ extended, window ∈ windows
      ∨ ∃ old ∈ windows, old.startUnixMillis = start
        ∧ window = ⟨start, max old.endUnixMillis finish⟩ := by
  intro windows
  induction windows with
  | nil => intro extended hextended; cases hextended
  | cons old rest ih =>
    intro extended hextended window hwindow
    unfold extendWindow at hextended
    by_cases hstart : old.startUnixMillis = start
    · rw [if_pos hstart] at hextended
      rw [← Option.some.inj hextended] at hwindow
      rcases List.mem_cons.mp hwindow with rfl | hin
      · exact .inr ⟨old, List.mem_cons_self, hstart, by rw [hstart]⟩
      · exact .inl (List.mem_cons_of_mem _ hin)
    · rw [if_neg hstart] at hextended
      obtain ⟨tail, htail, rfl⟩ := Option.map_eq_some_iff.mp hextended
      rcases List.mem_cons.mp hwindow with rfl | hin
      · exact .inl List.mem_cons_self
      · rcases ih htail window hin with hold | ⟨other, hother, hlater⟩
        · exact .inl (List.mem_cons_of_mem _ hold)
        · exact .inr ⟨other, List.mem_cons_of_mem _ hother, hlater⟩

/-- A launch that ends the window of a boundary is the process's, and its only one. -/
structure Ends (s : DowntimeState) (start : ℤ) (process : ManagedProcess) : Prop where
  boundary : s.boundary = some start
  managed : s.process = some process
  later : start < process.servingFrom
  quiet : Quiet s

theorem launchedWindows_cases (h : Certified s) (hfirst : s.boundary = none ∨ s.launches ≤ 1)
    (hwindows : launchedWindows s = some windows) :
    windows = s.zeroWindows ∨ ∃ start process, Ends s start process ∧
      ((∃ extended, extendWindow start process.servingFrom s.zeroWindows.reverse = some extended
          ∧ windows = extended.reverse)
        ∨ extendWindow start process.servingFrom s.zeroWindows.reverse = none
          ∧ windows = s.zeroWindows ++ [⟨start, process.servingFrom⟩]) := by
  unfold launchedWindows at hwindows
  cases hboundary : s.boundary with
  | none =>
    rw [hboundary] at hwindows
    exact .inl (Option.some.inj hwindows).symm
  | some start =>
    cases hjournal : s.journal with
    | none =>
      rw [hboundary, hjournal] at hwindows
      exact .inl (Option.some.inj hwindows).symm
    | some journal =>
      rw [hboundary, hjournal] at hwindows
      simp only at hwindows
      by_cases hlaunch : start < journal.launchedAt ∧ s.process.map (·.pid) = some journal.writer
      · rw [if_pos hlaunch] at hwindows
        obtain ⟨process, hprocess, -⟩ := Option.map_eq_some_iff.mp hlaunch.2
        have hb := h.bounded start hboundary
        have hsome : s.process ≠ none := by
          rw [hprocess]
          nofun
        have hone : s.launches ≤ 1 := hfirst.resolve_left (by rw [hboundary]; nofun)
        have hquiet : Quiet s := by
          by_cases hzero : s.launches = 0
          · exact .inl hzero
          · exact .inr ⟨by omega, hsome⟩
        have hfrom : process.servingFrom = journal.launchedAt := by
          rcases hb.written hquiet journal hjournal with hle | ⟨other, hother, hopened⟩
          · exact absurd hlaunch.1 (not_lt.mpr hle)
          · rw [hprocess] at hother
            rw [← Option.some.inj hother] at hopened
            unfold ManagedProcess.servingFrom
            rw [hopened]
            rfl
        rw [← hfrom] at hlaunch hwindows
        refine .inr ⟨start, process, ⟨hboundary, hprocess, hlaunch.1, hquiet⟩, ?_⟩
        cases hextended : extendWindow start process.servingFrom s.zeroWindows.reverse with
        | some extended =>
          rw [hextended] at hwindows
          exact .inl ⟨extended, rfl, (Option.some.inj hwindows).symm⟩
        | none =>
          rw [hextended] at hwindows
          simp only at hwindows
          by_cases hfull : 32 ≤ s.zeroWindows.length
          · rw [if_pos hfull] at hwindows
            cases hwindows
          · rw [if_neg hfull] at hwindows
            exact .inr ⟨rfl, (Option.some.inj hwindows).symm⟩
      · rw [if_neg hlaunch] at hwindows
        exact .inl (Option.some.inj hwindows).symm

theorem launch_once (hquiet : quietCertificate s (.launched removed) = true) :
    s.boundary = none ∨ s.launches ≤ 1 := by
  rw [quietCertificate, Bool.or_eq_true] at hquiet
  exact hquiet.imp Option.isNone_iff_eq_none.mp of_decide_eq_true

/-- The windows behind a launch are the old ones, and the boundary's up to where it served. -/
theorem mem_launchedWindows (h : Certified s) (hfirst : s.boundary = none ∨ s.launches ≤ 1)
    (hwindows : launchedWindows s = some windows) (hwindow : window ∈ windows) :
    window ∈ s.zeroWindows
      ∨ ∃ start process, Ends s start process ∧ window = ⟨start, process.servingFrom⟩ := by
  rcases h.launchedWindows_cases hfirst hwindows with rfl
    | ⟨start, process, hends, ⟨extended, hextended, rfl⟩ | ⟨-, rfl⟩⟩
  · exact .inl hwindow
  · rcases mem_extendWindow hextended window (List.mem_reverse.mp hwindow) with hin
      | ⟨old, hold, -, rfl⟩
    · exact .inl (List.mem_reverse.mp hin)
    · have hle := h.before old (.inl (List.mem_reverse.mp hold)) process hends.managed
      exact .inr ⟨start, process, hends, by rw [max_eq_right hle]⟩
  · rcases List.mem_append.mp hwindow with hin | hlast
    · exact .inl hin
    · exact .inr ⟨start, process, hends, List.mem_singleton.mp hlast⟩

theorem boundary_of_launched {start : ℤ} (h : ({ s with
      zeroWindows := windows
      stopped := if removed then none else s.stopped } : DowntimeState).boundary = some start) :
    s.boundary = some start := by
  cases removed with
  | true => cases h
  | false => exact h

theorem launched (h : Certified s) (hquiet : quietCertificate s (.launched removed) = true) :
    Certified (launched s removed) := by
  unfold Accounting.launched
  cases hwindows : launchedWindows s with
  | none => exact h
  | some windows =>
    simp only
    have hplaced : ∀ window, Placed { s with
        zeroWindows := windows
        stopped := if removed then none else s.stopped } window → Placed s window
          ∨ ∃ start process, Ends s start process ∧ window = ⟨start, process.servingFrom⟩ := by
      intro window hwindow
      rcases hwindow with hin | hreported
      · exact (h.mem_launchedWindows (launch_once hquiet) hwindows hin).imp_left .inl
      · exact .inl (.inr hreported)
    refine ⟨h.lived, h.serving, h.written, fun window hwindow => ?_,
      fun window hwindow life hlife => ?_, fun window hwindow other hother => ?_,
      fun start hstart => ?_⟩
    · rcases hplaced window hwindow with hold | ⟨start, process, hends, rfl⟩
      · exact h.proper window hold
      · exact ⟨hends.later, (h.serving process hends.managed).2⟩
    · rcases hplaced window hwindow with hold | ⟨start, process, hends, rfl⟩
      · exact h.clear window hold life hlife
      · exact .inl ((h.bounded start hends.boundary).ended hends.quiet life hlife)
    · rcases hplaced window hwindow with hold | ⟨start, process, hends, rfl⟩
      · exact h.before window hold other hother
      · rw [Option.some.inj (hends.managed.symm.trans hother)]
    · obtain ⟨hpassed, hstill, hended, hwritten⟩ := h.bounded start (boundary_of_launched hstart)
      exact ⟨hpassed, hstill, hended, hwritten⟩

/-! ### Runs -/

theorem step (h : Certified s) {event : DowntimeEvent} (hquiet : quietCertificate s event = true) :
    Certified (downtimeStep s event) := by
  cases event with
  | pass millis => exact h.pass millis
  | launch pid => exact h.launch pid
  | openJournal => exact h.openJournal
  | exit => exact h.exit
  | stop accounted outcome dying settling => exact h.stop accounted outcome dying settling
  | beforeLaunch cut => exact h.beforeLaunch hquiet
  | launched removed => exact h.launched hquiet
  | collected => exact h.collected
  | stoppedReport => exact h.stoppedReport hquiet
  | sample => exact h.sample

theorem run (h : Certified s) {events : List DowntimeEvent}
    (hquiet : throughout quietCertificate s events = true) :
    Certified (events.foldl downtimeStep s) := by
  induction events generalizing s with
  | nil => exact h
  | cons event events ih =>
    rw [throughout, Bool.and_eq_true] at hquiet
    exact ih (h.step hquiet.1) hquiet.2

end Certified

/-! ### The windows of a report -/

/-- The queued windows and those of every report are in order, and what is queued is over by the
boundary or begins at it. -/
structure Queued (s : DowntimeState) : Prop where
  queue : Ordered s.zeroWindows
  ordered : ∀ report ∈ s.reports, Ordered report
  older : ∀ start, s.boundary = some start → ∀ window ∈ s.zeroWindows,
    window.endUnixMillis ≤ start ∨ window.startUnixMillis = start

namespace Queued

variable {s : DowntimeState}

theorem initial (now : ℤ) : Queued (.initial now) :=
  ⟨.nil, fun _ h => absurd h List.not_mem_nil, fun _ h => absurd h nofun⟩

theorem report (h : Queued s) : ∀ report ∈ s.zeroWindows :: s.reports, Ordered report :=
  List.forall_mem_cons.mpr ⟨h.queue, h.ordered⟩

theorem exit (h : Queued s) : Queued (exit s) := by
  unfold Accounting.exit
  split
  · exact ⟨h.queue, h.ordered, h.older⟩
  · exact h

theorem stop (h : Queued s) (hcertified : Certified s) (accounted : Bool) (outcome : StopOutcome)
    (dying settling : ℕ) : Queued (stop s accounted outcome dying settling) := by
  unfold Accounting.stop
  cases hprocess : s.process with
  | none => exact h
  | some process =>
    simp only
    have hnoticed : Queued (noticed s process) := ⟨h.queue, h.report, fun start hstart => by cases hstart⟩
    by_cases haccounted : (!accounted) = true
    · rw [if_pos haccounted]
      have hpassed : Queued (pass s dying) := ⟨h.queue, h.ordered, h.older⟩
      exact hpassed.exit
    · rw [if_neg haccounted]
      have hpassed : Queued (pass (noticed s process) dying) :=
        ⟨hnoticed.queue, hnoticed.ordered, hnoticed.older⟩
      cases outcome with
      | unread => exact h
      | pending => exact hnoticed
      | unnoted => exact hpassed.exit
      | noted =>
        have hsame := Certified.exit_zeroWindows (pass (noticed s process) dying)
        have hgone := (((hcertified.noticed process).pass dying).exit).pass settling
        have hover : ∀ window ∈ s.zeroWindows, window.endUnixMillis
            ≤ (pass (Accounting.exit (pass (noticed s process) dying)) settling).now := by
          intro window hwindow
          refine (hgone.proper window (.inl ?_)).2
          show window ∈ (Accounting.exit (pass (noticed s process) dying)).zeroWindows
          rw [hsame]
          exact hwindow
        refine ⟨hpassed.exit.queue, List.forall_mem_cons.mpr ⟨h.queue, hpassed.exit.ordered⟩,
          fun start hstart window hwindow => ?_⟩
        rw [← Option.some.inj hstart]
        have hin : window ∈ (Accounting.exit (pass (noticed s process) dying)).zeroWindows :=
          hwindow
        rw [hsame] at hin
        exact .inl (hover window hin)

/-- A certificate goes behind the queued windows, where none of its boundary is among them. -/
theorem behind (h : Queued s) {window : UsageZeroWindow} (hcertificate : certificate s = some window)
    (hfresh : ((certificate s).all fun window => s.zeroWindows.all fun queued =>
      decide (queued.startUnixMillis ≠ window.startUnixMillis)) = true) :
    Ordered (s.zeroWindows ++ [window]) ∧ ∀ queued ∈ s.zeroWindows ++ [window],
      queued.endUnixMillis ≤ window.startUnixMillis
        ∨ queued.startUnixMillis = window.startUnixMillis := by
  obtain ⟨hstart, -, -⟩ := Certified.certificate_eq hcertificate
  rw [hcertificate, Option.all_some] at hfresh
  have hover : ∀ queued ∈ s.zeroWindows, queued.endUnixMillis ≤ window.startUnixMillis := by
    intro queued hqueued
    exact (h.older _ hstart queued hqueued).resolve_right
      (of_decide_eq_true (List.all_eq_true.mp hfresh queued hqueued))
  refine ⟨List.pairwise_append.mpr ⟨h.queue, List.pairwise_singleton _ _, ?_⟩, ?_⟩
  · intro queued hqueued last hlast
    rw [List.mem_singleton.mp hlast]
    exact hover queued hqueued
  · intro queued hqueued
    rcases List.mem_append.mp hqueued with hin | hlast
    · exact .inl (hover queued hin)
    · exact .inr (congrArg _ (List.mem_singleton.mp hlast))

theorem beforeLaunch (h : Queued s) {cut : LaunchCut}
    (hfresh : freshCertificate s (.beforeLaunch cut) = true) : Queued (beforeLaunch s cut) := by
  cases hcertificate : certificate s with
  | none =>
    unfold Accounting.beforeLaunch
    rw [hcertificate]
    exact h
  | some window =>
    obtain ⟨windows, journal, heq, hwindows, -⟩ := Certified.beforeLaunch_eq hcertificate cut
    obtain ⟨hordered, holder⟩ := h.behind hcertificate hfresh
    rw [heq]
    have hreports := List.forall_mem_cons.mpr ⟨hordered, h.ordered⟩
    rcases hwindows with rfl | rfl
    · exact ⟨h.queue, hreports, h.older⟩
    · refine ⟨hordered, hreports, fun start hstart => ?_⟩
      have hsame := (Certified.certificate_eq hcertificate).1.symm.trans hstart
      rw [← Option.some.inj hsame]
      exact holder

theorem stoppedReport (h : Queued s) (hfresh : freshCertificate s .stoppedReport = true) :
    Queued (stoppedReport s) := by
  unfold Accounting.stoppedReport
  cases hboundary : s.boundary with
  | none => exact h
  | some start =>
    simp only
    cases hcertificate : certificate s with
    | none =>
      rw [Option.toList_none, List.append_nil]
      exact ⟨h.queue, h.report, h.older⟩
    | some window =>
      exact ⟨h.queue, List.forall_mem_cons.mpr ⟨(h.behind hcertificate hfresh).1, h.ordered⟩,
        h.older⟩

theorem split (h : Queued s) (hcertified : Certified s) {start : ℤ}
    (hboundary : s.boundary = some start) : (∀ window ∈ s.zeroWindows, window.endUnixMillis ≤ start)
      ∨ ∃ rest last, s.zeroWindows = rest ++ [last] ∧ last.startUnixMillis = start
        ∧ ∀ window ∈ rest, window.endUnixMillis ≤ start := by
  have holder := h.older start hboundary
  rcases List.eq_nil_or_concat s.zeroWindows with hnil | ⟨rest, last, hqueue⟩
  · exact .inl fun window hwindow => by
      rw [hnil] at hwindow
      cases hwindow
  · rw [List.concat_eq_append] at hqueue
    have hlast : last ∈ s.zeroWindows := by
      rw [hqueue]
      exact List.mem_append_right _ List.mem_cons_self
    have hordered := h.queue
    rw [hqueue] at hordered
    have hrest : ∀ window ∈ rest, window.endUnixMillis ≤ start := by
      intro window hwindow
      have hin : window ∈ s.zeroWindows := by
        rw [hqueue]
        exact List.mem_append_left _ hwindow
      rcases holder window hin with hle | hstart
      · exact hle
      · have hbefore : window.endUnixMillis ≤ last.startUnixMillis :=
          (List.pairwise_append.mp hordered).2.2 window hwindow last List.mem_cons_self
        have hproper := (hcertified.proper window (.inl hin)).1
        have hproper' := (hcertified.proper last (.inl hlast)).1
        rcases holder last hlast with hle | hstart' <;> omega
    rcases holder last hlast with hle | hstart
    · refine .inl fun window hwindow => ?_
      rw [hqueue] at hwindow
      rcases List.mem_append.mp hwindow with hin | hin
      · exact hrest window hin
      · rw [List.mem_singleton.mp hin]
        exact hle
    · exact .inr ⟨rest, last, hqueue, hstart, hrest⟩

theorem extendWindow_none {start finish : ℤ} {windows : List UsageZeroWindow}
    (h : ∀ window ∈ windows, window.startUnixMillis ≠ start) :
    extendWindow start finish windows = none := by
  induction windows with
  | nil => rfl
  | cons window windows ih =>
    unfold extendWindow
    rw [if_neg (h window List.mem_cons_self),
      ih fun other hother => h other (List.mem_cons_of_mem _ hother)]
    rfl

/-- What is queued behind a launch: windows that are over by the boundary, and the boundary's. -/
theorem launchedWindows_split (h : Queued s) (hcertified : Certified s)
    {windows : List UsageZeroWindow} (hfirst : s.boundary = none ∨ s.launches ≤ 1)
    (hwindows : launchedWindows s = some windows) :
    windows = s.zeroWindows ∨ ∃ start finish rest, s.boundary = some start
      ∧ windows = rest ++ [⟨start, finish⟩] ∧ rest.Sublist s.zeroWindows
      ∧ ∀ window ∈ rest, window.endUnixMillis ≤ start := by
  rcases hcertified.launchedWindows_cases hfirst hwindows with hsame
    | ⟨start, process, hends, hcases⟩
  · exact .inl hsame
  rcases h.split hcertified hends.boundary with hall | ⟨rest, last, hqueue, hstart, hrest⟩
  · have hnone : extendWindow start process.servingFrom s.zeroWindows.reverse = none := by
      refine extendWindow_none fun window hwindow => ?_
      have hin := List.mem_reverse.mp hwindow
      have hproper := (hcertified.proper window (.inl hin)).1
      have hle := hall window hin
      omega
    rcases hcases with ⟨extended, hextended, -⟩ | ⟨-, rfl⟩
    · rw [hnone] at hextended
      cases hextended
    · exact .inr ⟨start, process.servingFrom, s.zeroWindows, hends.boundary, rfl,
        List.Sublist.refl _, hall⟩
  · rw [hqueue, List.reverse_append, List.reverse_singleton, List.singleton_append, extendWindow,
      if_pos hstart] at hcases
    rcases hcases with ⟨extended, hextended, rfl⟩ | ⟨hnone, -⟩
    · refine .inr ⟨start, max last.endUnixMillis process.servingFrom, rest, hends.boundary, ?_, ?_,
        hrest⟩
      · rw [← Option.some.inj hextended, List.reverse_cons, List.reverse_reverse, hstart]
      · rw [hqueue]
        exact List.sublist_append_left _ _
    · cases hnone

theorem launched (h : Queued s) (hcertified : Certified s) {removed : Bool}
    (hquiet : quietCertificate s (.launched removed) = true) : Queued (launched s removed) := by
  unfold Accounting.launched
  cases hwindows : launchedWindows s with
  | none => exact h
  | some windows =>
    simp only
    rcases h.launchedWindows_split hcertified (Certified.launch_once hquiet) hwindows with rfl
      | ⟨start, finish, rest, hstart, rfl, hsublist, hrest⟩
    · exact ⟨h.queue, h.ordered, fun start hstart =>
        h.older start (Certified.boundary_of_launched hstart)⟩
    · refine ⟨?_, h.ordered, fun start' hstart' window hwindow => ?_⟩
      · refine List.pairwise_append.mpr ⟨h.queue.sublist hsublist, List.pairwise_singleton _ _,
          fun window hwindow last hlast => ?_⟩
        rw [List.mem_singleton.mp hlast]
        exact hrest window hwindow
      · have hold := Certified.boundary_of_launched hstart'
        have hsame : start = start' := Option.some.inj (hstart.symm.trans hold)
        rw [← hsame]
        rcases List.mem_append.mp hwindow with hin | hlast
        · exact .inl (hrest window hin)
        · exact .inr (congrArg _ (List.mem_singleton.mp hlast))

theorem step (h : Queued s) (hcertified : Certified s) {event : DowntimeEvent}
    (hquiet : quietCertificate s event = true) (hfresh : freshCertificate s event = true) :
    Queued (downtimeStep s event) := by
  cases event with
  | pass millis => exact ⟨h.queue, h.ordered, h.older⟩
  | launch pid =>
    show Queued (launch s pid)
    unfold launch
    split
    · exact h
    · exact ⟨h.queue, h.ordered, h.older⟩
  | openJournal =>
    show Queued (openJournal s)
    unfold openJournal
    split
    · split
      · exact h
      · exact ⟨h.queue, h.ordered, h.older⟩
    · exact h
  | exit => exact h.exit
  | stop accounted outcome dying settling => exact h.stop hcertified accounted outcome dying settling
  | beforeLaunch cut => exact h.beforeLaunch hfresh
  | launched removed => exact h.launched hcertified hquiet
  | collected => exact ⟨.nil, h.ordered, fun _ _ window hwindow => absurd hwindow List.not_mem_nil⟩
  | stoppedReport => exact h.stoppedReport hfresh
  | sample =>
    show Queued (sample s)
    unfold sample
    split
    · exact ⟨h.queue, h.report, h.older⟩
    · exact h

theorem run (h : Queued s) (hcertified : Certified s) {events : List DowntimeEvent}
    (hquiet : throughout quietCertificate s events = true)
    (hfresh : throughout freshCertificate s events = true) :
    Queued (events.foldl downtimeStep s) := by
  induction events generalizing s with
  | nil => exact h
  | cons event events ih =>
    rw [throughout, Bool.and_eq_true] at hquiet hfresh
    exact ih (h.step hcertified hquiet.1 hfresh.1) (hcertified.step hquiet.1) hquiet.2 hfresh.2

end Queued

/-- **Certified downtime carries no traffic.**  No instant of a window lies within the time a
process served, as long as nothing is certified from a boundary that a process was launched since.
The windows of a report do not overlap where no window of the boundary is still queued either. -/
theorem downtime_certified (now : ℤ) (events : List DowntimeEvent)
    (hquiet : throughout quietCertificate (.initial now) events = true) :
    (∀ window, Placed (events.foldl downtimeStep (.initial now)) window →
      ∀ moment, window.startUnixMillis ≤ moment → moment ≤ window.endUnixMillis →
        (∀ life ∈ (events.foldl downtimeStep (.initial now)).lives,
          ¬(life.1 < moment ∧ moment < life.2))
        ∧ ∀ process, (events.foldl downtimeStep (.initial now)).process = some process →
          ¬process.servingFrom < moment)
      ∧ (throughout freshCertificate (.initial now) events = true →
        ∀ report ∈ (events.foldl downtimeStep (.initial now)).reports, Ordered report) := by
  have h := (Certified.initial now).run hquiet
  refine ⟨fun window hwindow moment hstart hend => ⟨fun life hlife hwithin => ?_,
    fun process hprocess hserved => ?_⟩, fun hfresh =>
      ((Queued.initial now).run (Certified.initial now) hquiet hfresh).ordered⟩
  · rcases h.clear window hwindow life hlife with hle | hle <;> omega
  · have hle := h.before window hwindow process hprocess
    omega

/-! ### Two launches -/

/-- A stop, a launch that takes its time to open the journal, and its confirmation. -/
def confirmedLaunch : List DowntimeEvent :=
  [.launch 1, .openJournal, .pass 100, .stop true .noted 0 0, .pass 10, .beforeLaunch .complete,
    .pass 5, .launch 2, .pass 20, .openJournal, .pass 1, .launched true]

theorem downtime_certified_confirmed :
    (∀ window, Placed (confirmedLaunch.foldl downtimeStep (.initial 0)) window →
      ∀ moment, window.startUnixMillis ≤ moment → moment ≤ window.endUnixMillis →
        (∀ life ∈ (confirmedLaunch.foldl downtimeStep (.initial 0)).lives,
          ¬(life.1 < moment ∧ moment < life.2))
        ∧ ∀ process, (confirmedLaunch.foldl downtimeStep (.initial 0)).process = some process →
          ¬process.servingFrom < moment)
      ∧ ∀ report ∈ (confirmedLaunch.foldl downtimeStep (.initial 0)).reports, Ordered report :=
  ⟨(downtime_certified 0 confirmedLaunch (by decide +kernel)).1,
    (downtime_certified 0 confirmedLaunch (by decide +kernel)).2 (by decide +kernel)⟩

/-- A launch that dies before it is confirmed, and another one. -/
def repeatedLaunch : List DowntimeEvent :=
  [.launch 1, .openJournal, .pass 100, .stop true .noted 0 0, .pass 10, .beforeLaunch .complete,
    .launch 2, .openJournal, .pass 50, .exit, .pass 10, .beforeLaunch .complete]

/-- An agent that dies between its certificate and the launch, and reports once more. -/
def abandonedLaunch : List DowntimeEvent :=
  [.launch 1, .openJournal, .pass 100, .stop true .noted 0 0, .pass 10, .beforeLaunch .complete,
    .pass 10, .stoppedReport]

/-- A window reaches past the moment a process was started, up to where it opened its journal; where
a launch is repeated, the second certificate holds all of the first one's life and overlaps the
first in one report; and where nothing was launched, a second certificate of a boundary overlaps the
first, which is still queued. -/
theorem window_within_lifetime :
    (∃ process, (confirmedLaunch.foldl downtimeStep (.initial 0)).process = some process
        ∧ ⟨100, 135⟩ ∈ (confirmedLaunch.foldl downtimeStep (.initial 0)).zeroWindows
        ∧ process.started < 120)
      ∧ ((110, 160) ∈ (repeatedLaunch.foldl downtimeStep (.initial 0)).lives
        ∧ [⟨100, 110⟩, ⟨100, 170⟩] ∈ (repeatedLaunch.foldl downtimeStep (.initial 0)).reports)
      ∧ throughout quietCertificate (.initial 0) abandonedLaunch = true
      ∧ [⟨100, 110⟩, ⟨100, 120⟩] ∈ (abandonedLaunch.foldl downtimeStep (.initial 0)).reports := by
  refine ⟨⟨⟨2, 115, some 135⟩, by decide +kernel, by decide +kernel, by decide +kernel⟩,
    ⟨by decide +kernel, by decide +kernel⟩, by decide +kernel, by decide +kernel⟩

end Brocade.Accounting
