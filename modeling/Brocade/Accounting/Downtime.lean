/-
Downtime that is certified as free of traffic.

Stopping the managed process leaves a boundary: the moment after it was gone.  Before the next
launch, and in reports made in the meantime, the time since the boundary is certified as a zero
window; once the process has been launched, the moment it wrote into its journal before it opened
any listener ends the window.  The boundary stays until then.  A launch that fails keeps it, and
the next certificate begins there again; no traffic in the windows is claimed of runs in which that
does not happen.  A certificate also begins there again where one of the boundary is still queued,
and then the windows of a report overlap.
-/
import Mathlib.Data.Int.Order.Basic
import Mathlib.Tactic.Basic

namespace Brocade.Accounting

/-- Time certified as free of traffic. -/
structure UsageZeroWindow where
  (startUnixMillis endUnixMillis : ℤ)
deriving DecidableEq

/-- What `usage-stopped.json` holds, as far as windows depend on it. -/
structure StoppedUsage where
  /-- the epoch of the report is a journal's -/
  journaled : Bool
  stoppedAtUnixMillis : Option ℤ

/-- What a launch leaves in the header of the journal. -/
structure JournalLaunch where
  writer : ℕ
  launchedAt : ℤ

/-- A managed process. -/
structure ManagedProcess where
  pid : ℕ
  started : ℤ
  /-- when it wrote its identity into the journal; its listeners open after that -/
  opened : Option ℤ
deriving DecidableEq

/-- The moment from which a process may carry traffic. -/
def ManagedProcess.servingFrom (process : ManagedProcess) : ℤ :=
  process.opened.getD process.started

/-- What the agent keeps of the process and its boundary. -/
structure DowntimeState where
  now : ℤ
  stopped : Option StoppedUsage
  /-- what `usage-zero-windows.json` holds -/
  zeroWindows : List UsageZeroWindow
  journal : Option JournalLaunch
  process : Option ManagedProcess
  /-- the processes that ended: from when they served, and until when -/
  lives : List (ℤ × ℤ)
  /-- the windows of every report that was queued -/
  reports : List (List UsageZeroWindow)
  /-- launches since the boundary -/
  launches : ℕ

def DowntimeState.initial (now : ℤ) : DowntimeState := ⟨now, none, [], none, none, [], [], 0⟩

/-- The boundary that certificates begin at. -/
def DowntimeState.boundary (s : DowntimeState) : Option ℤ :=
  s.stopped.bind (·.stoppedAtUnixMillis)

/-! ### The process -/

/-- A process is launched where none is managed: the journal has one writer. -/
def launch (s : DowntimeState) (pid : ℕ) : DowntimeState :=
  match s.process with
  | some _ => s
  | none => { s with process := some ⟨pid, s.now, none⟩, launches := s.launches + 1 }

/-- The process opens its journal. -/
def openJournal (s : DowntimeState) : DowntimeState :=
  match s.process with
  | some process =>
    match process.opened with
    | some _ => s
    | none =>
      { s with
        process := some { process with opened := some s.now }
        journal := some ⟨process.pid, s.now⟩ }
  | none => s

/-- The process ends. -/
def exit (s : DowntimeState) : DowntimeState :=
  match s.process with
  | some process => { s with process := none, lives := (process.servingFrom, s.now) :: s.lives }
  | none => s

def pass (s : DowntimeState) (millis : ℕ) : DowntimeState := { s with now := s.now + millis }

/-! ### The agent -/

/-- How far a stop gets. -/
inductive StopOutcome where
  /-- the usage cannot be read -/
  | unread
  /-- the process is not terminated -/
  | pending
  /-- the agent dies before it has noted the boundary -/
  | unnoted
  | noted

/-- The journal's header is the process's. -/
def DowntimeState.journaled (s : DowntimeState) (process : ManagedProcess) : Bool :=
  s.journal.any fun journal => decide (journal.writer = process.pid)

/-- The last report before the process is terminated. -/
def noticed (s : DowntimeState) (process : ManagedProcess) : DowntimeState :=
  { s with
    stopped := some ⟨s.journaled process, none⟩
    reports := s.zeroWindows :: s.reports }

/-- The process is gone, and its last counters are read. -/
def noted (s : DowntimeState) (journaled : Bool) (windows : List UsageZeroWindow) :
    DowntimeState :=
  { s with
    stopped := some ⟨journaled, some s.now⟩
    reports := windows :: s.reports
    launches := 0 }

/-- `accounted`: the process has a usage generation. -/
def stop (s : DowntimeState) (accounted : Bool) (outcome : StopOutcome) (dying settling : ℕ) :
    DowntimeState :=
  match s.process with
  | none => s
  | some process =>
    if !accounted then exit (pass s dying)
    else
      match outcome with
      | .unread => s
      | .pending => noticed s process
      | .unnoted => exit (pass (noticed s process) dying)
      | .noted =>
        noted (pass (exit (pass (noticed s process) dying)) settling) (s.journaled process)
          s.zeroWindows

/-- The time since the boundary. -/
def certificate (s : DowntimeState) : Option UsageZeroWindow :=
  s.boundary.bind fun start => if s.now ≤ start then none else some ⟨start, s.now⟩

/-- How far the agent gets before a launch. -/
inductive LaunchCut where
  | reported
  | archived
  | complete

/-- What the agent certifies before it launches. -/
def beforeLaunch (s : DowntimeState) (cut : LaunchCut) : DowntimeState :=
  match certificate s with
  | none => s
  | some window =>
    let reported := { s with reports := (s.zeroWindows ++ [window]) :: s.reports }
    let archived :=
      if s.stopped.any (·.journaled) then reported else { reported with journal := none }
    match cut with
    | .reported => reported
    | .archived => archived
    | .complete =>
      if 32 ≤ s.zeroWindows.length then archived
      else { archived with zeroWindows := s.zeroWindows ++ [window] }

/-- The first window of a boundary ends no earlier than `until`. -/
def extendWindow (start finish : ℤ) : List UsageZeroWindow → Option (List UsageZeroWindow)
  | [] => none
  | window :: rest =>
    if window.startUnixMillis = start then
      some ({ window with endUnixMillis := max window.endUnixMillis finish } :: rest)
    else (extendWindow start finish rest).map (window :: ·)

/-- The queued windows once a launch is confirmed; none if the queue is full. -/
def launchedWindows (s : DowntimeState) : Option (List UsageZeroWindow) :=
  match s.boundary, s.journal with
  | some start, some journal =>
    if start < journal.launchedAt ∧ s.process.map (·.pid) = some journal.writer then
      match extendWindow start journal.launchedAt s.zeroWindows.reverse with
      | some windows => some windows.reverse
      | none =>
        if 32 ≤ s.zeroWindows.length then none
        else some (s.zeroWindows ++ [⟨start, journal.launchedAt⟩])
    else some s.zeroWindows
  | _, _ => some s.zeroWindows

/-- `removed`: the agent lives to remove the boundary. -/
def launched (s : DowntimeState) (removed : Bool) : DowntimeState :=
  match launchedWindows s with
  | none => s
  | some windows =>
    { s with zeroWindows := windows, stopped := if removed then none else s.stopped }

def collected (s : DowntimeState) : DowntimeState := { s with zeroWindows := [] }

/-- The report of a stopped process. -/
def stoppedReport (s : DowntimeState) : DowntimeState :=
  match s.boundary with
  | none => s
  | some _ => { s with reports := (s.zeroWindows ++ (certificate s).toList) :: s.reports }

/-- The report of a serving process. -/
def sample (s : DowntimeState) : DowntimeState :=
  if s.process.isSome then { s with reports := s.zeroWindows :: s.reports } else s

/-! ### Runs -/

/-- What happens to an agent that certifies downtime. -/
inductive DowntimeEvent where
  | pass (millis : ℕ)
  | launch (pid : ℕ)
  | openJournal
  | exit
  | stop (accounted : Bool) (outcome : StopOutcome) (dying settling : ℕ)
  | beforeLaunch (cut : LaunchCut)
  | launched (removed : Bool)
  | collected
  | stoppedReport
  | sample

/-- A crash of the agent between two operations leaves everything as it is. -/
def downtimeStep (s : DowntimeState) : DowntimeEvent → DowntimeState
  | .pass millis => pass s millis
  | .launch pid => launch s pid
  | .openJournal => openJournal s
  | .exit => exit s
  | .stop accounted outcome dying settling => stop s accounted outcome dying settling
  | .beforeLaunch cut => beforeLaunch s cut
  | .launched removed => launched s removed
  | .collected => collected s
  | .stoppedReport => stoppedReport s
  | .sample => sample s

/-- No process was launched since the boundary where a certificate is made, and the launch that ends
one is the only one since. -/
def quietCertificate (s : DowntimeState) : DowntimeEvent → Bool
  | .beforeLaunch _ | .stoppedReport => (certificate s).isNone || decide (s.launches = 0)
  | .launched _ => s.boundary.isNone || decide (s.launches ≤ 1)
  | _ => true

/-- No window of the boundary is still queued where a certificate is made. -/
def freshCertificate (s : DowntimeState) : DowntimeEvent → Bool
  | .beforeLaunch _ | .stoppedReport =>
    (certificate s).all fun window =>
      s.zeroWindows.all fun queued => decide (queued.startUnixMillis ≠ window.startUnixMillis)
  | _ => true

/-- A condition on every event of a run and the state that the event finds. -/
def throughout (condition : DowntimeState → DowntimeEvent → Bool) :
    DowntimeState → List DowntimeEvent → Bool
  | _, [] => true
  | s, event :: events => condition s event && throughout condition (downtimeStep s event) events

end Brocade.Accounting
