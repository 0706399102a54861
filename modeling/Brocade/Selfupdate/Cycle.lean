/-
The agent replaces the binary it runs.

A round asks the Console for an offer, downloads the bytes, tries them, copies them beside the
installed binary and renames the copy over it.  Before the rename of an offer that belongs to a
release the round writes a receipt; the process that runs next completes it with a report and
sends it until the Console answers.

A round can be cut off at every operation that leaves something behind, and each can fail with
or without its effect.  `Round` says what one round meets.  After that the supervisor starts
whatever is installed.

The log is not in the source: the newest entry comes first.
-/
import Brocade.Lib.Faulty
import Brocade.Lib.Text

namespace Brocade.Selfupdate

open Faulty

/-- A binary the Console offers. -/
structure AgentReleaseOffer where
  (url sha256 : String)
  releaseId : Option ℤ
  attempt : Option ℕ
  previousSha256 : Option String
deriving DecidableEq

/-- The offer belongs to a release. -/
def AgentReleaseOffer.tracked (offer : AgentReleaseOffer) : Bool := offer.releaseId.isSome

/-- How an update ended. -/
inductive AgentReleaseOutcome where
  | running
  | failed
deriving DecidableEq

/-- What is reported of an update. -/
structure AgentReleaseReport where
  releaseId : ℤ
  attempt : ℕ
  outcome : AgentReleaseOutcome
  performedUpdate : Bool
  (installedSha256 runningSha256 error : Option String)
deriving DecidableEq

/-- The receipt; without a report, a replacement was prepared and no new process confirmed it. -/
structure PendingUpdate where
  offer : AgentReleaseOffer
  target : String
  report : Option AgentReleaseReport
deriving DecidableEq

/-- An entry of the log. -/
inductive Entry (β : Type) where
  /-- A process started from these bytes. -/
  | started (running : Option String)
  /-- The Console was asked for an offer. -/
  | fetched (offer : Option AgentReleaseOffer)
  /-- A replacement starts. -/
  | began (offer : AgentReleaseOffer)
  | wrote (pending : PendingUpdate)
  | removed
  /-- Other bytes are at the target path. -/
  | replaced (offer : AgentReleaseOffer) (bytes before : β)
  /-- A report was made, with the bytes that were installed then. -/
  | created (offer : AgentReleaseOffer) (report : AgentReleaseReport) (installed : β)
  | sent (report : AgentReleaseReport)
  | answered (report : AgentReleaseReport) (status : ℕ)

/-- A file, and how often its path was given another one. -/
structure File (β : Type) where
  bytes : β
  generation : ℕ

/-- A process and the file it was started from. -/
structure Process where
  running : Option String
  generation : ℕ

/-- The files and the process. -/
structure Machine (β : Type) where
  path : String
  installed : File β
  (download staging : Option β)
  pending : Option PendingUpdate
  process : Option Process
  log : List (Entry β)

/-- The digest of bytes, and the size of an encoded receipt. -/
structure Platform (β : Type) where
  sha256 : β → String
  size : PendingUpdate → ℕ

/-- What comes of a request; the body may not be what was asked for. -/
inductive Response (α : Type) where
  | lost (error : String)
  | answered (status : ℕ) (body : Except String α)

/-- What one round meets: faults of its operations, errors of its reads and the Console's
answers.  The reads of the installed binary are named by what they are for. -/
structure Round (β : Type) where
  (readPending exe : Option String)
  (installedRead bootstrapRead outcomeRead reportRead : Bool)
  (guardRead downloadRead : Option String)
  (offer offerAgain : Response AgentReleaseOffer)
  answer : Response Bool
  downloaded : β
  partialCopy : Option β
  (resumeWrite bootstrapWrite prepareWrite outcomeWrite remove fetch mode probe : Fault String)
  (copy stagingMode sync rename directory discard cleanup : Fault String)

variable {β : Type}

def Machine.note (m : Machine β) (entry : Entry β) : Machine β :=
  { m with log := entry :: m.log }

/-- A round's computations. -/
abbrev Cycle (β α : Type) : Type := Act (Machine β) String α

/-- An operation with its errors in the words of the agent. -/
def operate (fault : Fault String) (wrap : String → String) (f : Machine β → Machine β) :
    Cycle β Unit :=
  Act.perform (fault.map wrap) f

/-- An operation whose failure is not looked at. -/
def ignore (fault : Fault String) (f : Machine β → Machine β) : Cycle β Unit := do
  let _ ← (operate fault id f).attempt
  pure ()

/-- A read that fails with an error or not at all. -/
def ensure (error : Option String) (wrap : String → String) : Cycle β Unit :=
  match error with
  | none => pure ()
  | some error => Act.fail (wrap error)

/-! ### Offers and receipts -/

/-- A digest in lower case. -/
def validDigest (sha : String) : Bool :=
  decide (sha.length = 64)
    && sha.toList.all fun c => c.isDigit || (decide ('a' ≤ c) && decide (c ≤ 'f'))

/-- Whether an offer can be taken. -/
def validateOffer (offer : AgentReleaseOffer) : Except String Unit :=
  if !validDigest offer.sha256 then .error "Agent 目标摘要无效"
  else
    match offer.releaseId, offer.attempt, offer.previousSha256 with
    | none, none, none => .ok ()
    | some id, some attempt, some before =>
      if 0 < id && 1 ≤ attempt && attempt ≤ 32 && validDigest before then .ok ()
      else .error "Agent 发布单身份不完整"
    | _, _, _ => .error "Agent 发布单身份不完整"

def maxPendingBytes : ℕ := 64 * 1024

/-- What makes a receipt unusable that was read. -/
def pendingError (p : Platform β) (pending : PendingUpdate) : Option String :=
  if maxPendingBytes < p.size pending then some "Agent 发布回执超出大小限制"
  else
    match validateOffer pending.offer with
    | .error error => some error
    | .ok () =>
      if pending.offer.releaseId.isNone || pending.target.toList.head? != some '/' then
        some "Agent 发布回执缺少发布身份或安装路径"
      else if pending.report.any fun report =>
          some report.releaseId != pending.offer.releaseId
            || some report.attempt != pending.offer.attempt then
        some "Agent 发布回执与批准身份不一致"
      else none

/-- The receipt is read. -/
def readPending (p : Platform β) (env : Round β) : Cycle β (Option PendingUpdate) := do
  let m ← Act.get
  match m.pending with
  | none => pure none
  | some pending => do
      ensure env.readPending fun error => s!"读取 Agent 发布回执失败：{error}"
      ensure (pendingError p pending) id
      pure (some pending)

/-- The receipt is written. -/
def writePending (fault : Fault String) (pending : PendingUpdate) : Cycle β Unit :=
  operate fault id fun m => { m with pending := some pending }.note (.wrote pending)

/-- A report of an update. -/
def resultReport (offer : AgentReleaseOffer) (running : String) (installed : Option String)
    (performedUpdate : Bool) (error : Option String) : Except String AgentReleaseReport :=
  let healthy := error.isNone && decide (running = offer.sha256)
    && decide (installed = some running)
  match offer.releaseId, offer.attempt with
  | some releaseId, some attempt =>
    .ok {
      releaseId := releaseId
      attempt := attempt
      outcome := if healthy then .running else .failed
      performedUpdate := performedUpdate
      installedSha256 := installed
      runningSha256 := some running
      error := if healthy then none
        else some ((error.getD "重启后未运行目标 Agent").take 4000).toString }
  | none, _ => .error "missing Agent release id"
  | some _, none => .error "missing Agent release attempt"

/-- The digest of the file at a path, where it can be read. -/
def fileSha256 (p : Platform β) (readable : Bool) (target : String) : Cycle β (Option String) := do
  let m ← Act.get
  pure (if readable && decide (target = m.path) then some (p.sha256 m.installed.bytes) else none)

/-- Make a report. -/
def createReport (offer : AgentReleaseOffer) (running : String) (installed : Option String)
    (performedUpdate : Bool) (error : Option String) : Cycle β AgentReleaseReport :=
  match resultReport offer running installed performedUpdate error with
  | .error error => Act.fail error
  | .ok report => do
      Act.modify fun m => m.note (.created offer report m.installed.bytes)
      pure report

def ok (status : ℕ) : Bool := decide (200 ≤ status) && decide (status < 300)

/-- The Console is asked. -/
def fetchOffer (response : Response AgentReleaseOffer) : Cycle β (Option AgentReleaseOffer) :=
  match response with
  | .lost error => Act.fail error
  | .answered status body =>
    if status = 204 then do
      Act.modify fun m => m.note (.fetched none)
      pure none
    else if !ok status then Act.fail s!"Agent 发布查询失败：HTTP {status}"
    else
      match body with
      | .error error => Act.fail s!"Agent 发布响应无效：{error}"
      | .ok offer => do
          Act.modify fun m => m.note (.fetched (some offer))
          pure (some offer)

/-- A report is sent. -/
def sendPending (env : Round β) (report : AgentReleaseReport) : Cycle β Unit := do
  Act.modify fun m => m.note (.sent report)
  match env.answer with
  | .lost error => Act.fail error
  | .answered status body => do
      Act.modify fun m => m.note (.answered report status)
      if !ok status then Act.fail s!"Agent 发布回执待确认：HTTP {status}"
      else
        match body with
        | .error error => Act.fail s!"Agent 回执响应无效：{error}"
        | .ok _ =>
          -- an answer that the report is out of date ends it all the same
          operate env.remove (fun error => s!"清理 Agent 回执失败：{error}")
            fun m => { m with pending := none }.note .removed

/-- The path of the binary that runs; it may have been given another file. -/
def selfPath (env : Round β) : Cycle β String := do
  let m ← Act.get
  ensure env.exe fun error => s!"读不了 /proc/self/exe: {error}"
  if m.process.any fun process => process.generation != m.installed.generation then
    Act.fail "这个进程的二进制已经被换掉了，等它退出即可"
  else pure m.path

/-! ### Installing -/

/-- The copy beside the binary is given up. -/
def discard (env : Round β) : Cycle β Unit :=
  ignore env.discard fun m => { m with staging := none }

/-- The copy becomes the binary. -/
def Machine.replace (m : Machine β) (offer : AgentReleaseOffer) : Machine β :=
  match m.staging with
  | none => m
  | some bytes =>
    { m with
      installed := { bytes := bytes, generation := m.installed.generation + 1 }
      staging := none }.note (.replaced offer bytes m.installed.bytes)

/-- The last look before the replacement. -/
def beforeReplace (p : Platform β) (env : Round β) (offer : AgentReleaseOffer)
    (running target : String) : Cycle β Unit := do
  (match offer.previousSha256 with
    | none => pure ()
    | some previous =>
      if previous ≠ running then Act.fail "Agent 本地摘要已偏离批准时状态，未替换"
      else do
        ensure env.guardRead id
        let installed ← fileSha256 p true target
        if installed ≠ some previous then Act.fail "Agent 本地摘要已偏离批准时状态，未替换"
        else pure ())
  if offer.tracked then do
    let current ← fetchOffer env.offerAgain
    if current ≠ some offer then Act.fail "Agent 发布已停止或尝试编号已变化，未替换"
    else writePending env.prepareWrite ⟨offer, target, none⟩
  else pure ()

/-- Download, try and stage. -/
def stageRelease (p : Platform β) (env : Round β) (offer : AgentReleaseOffer) (target : String) :
    Cycle β Unit := do
  operate env.fetch (fun error => s!"下载 agent 失败：{error}")
    fun m => { m with download := some env.downloaded }
  ensure env.downloadRead id
  let m ← Act.get
  match m.download with
  | none => Act.fail "No such file or directory (os error 2)"
  | some bytes =>
    if p.sha256 bytes ≠ offer.sha256 then
      Act.fail (s!"下载下来的 agent sha256 对不上：要 {offer.sha256}，" ++ s!"实际 {p.sha256 bytes}。没有安装")
    else do
      operate env.mode (fun error => s!"给候选 agent 加执行位失败: {error}") id
      operate env.probe id id
      -- a copy that is cut off leaves something else
      Act.modify fun m => { m with staging := env.partialCopy }
      operate env.copy
        (fun error => s!"拷到 {target} 旁失败: {error}（这个目录得可写才能自更新）")
        fun m => { m with staging := m.download }
      let made ← (operate env.stagingMode
        (fun error => s!"给暂存的 agent 加执行位失败: {error}") id).attempt
      match made with
      | .error error => do
          discard env
          Act.fail error
      | .ok () => operate env.sync (fun error => s!"同步 Agent 暂存文件失败：{error}") id

/-- The binary is replaced. -/
def installRelease (p : Platform β) (env : Round β) (offer : AgentReleaseOffer)
    (running target : String) : Cycle β Unit := do
  stageRelease p env offer target
  let guarded ← (beforeReplace p env offer running target).attempt
  match guarded with
  | .error error => do
      discard env
      Act.fail error
  | .ok () => do
      let renamed ← (operate env.rename (fun error => s!"换 {target} 失败: {error}")
        fun m => m.replace offer).attempt
      match renamed with
      | .error error => do
          discard env
          Act.fail error
      | .ok () => operate env.directory (fun error => s!"同步 Agent 安装目录失败：{error}") id

/-! ### A round -/

/-- Complete and send the receipt that is there. -/
def resume (p : Platform β) (env : Round β) (running : String) (pending : PendingUpdate) :
    Cycle β Bool :=
  match pending.report with
  | some report => do
      sendPending env report
      pure false
  | none => do
      let installed ← fileSha256 p env.installedRead pending.target
      if installed = some pending.offer.sha256 ∧ running ≠ pending.offer.sha256 then pure true
      else do
        let report ← createReport pending.offer running installed true none
        writePending env.resumeWrite { pending with report := some report }
        sendPending env report
        pure false

/-- The bytes on offer run already. -/
def observed (p : Platform β) (env : Round β) (offer : AgentReleaseOffer)
    (running target : String) : Cycle β Bool :=
  if offer.tracked then do
    let installed ← fileSha256 p env.bootstrapRead target
    let report ← createReport offer running installed false none
    writePending env.bootstrapWrite ⟨offer, target, some report⟩
    sendPending env report
    pure false
  else pure false

/-- What follows a replacement that failed. -/
def failedOutcome (p : Platform β) (env : Round β) (offer : AgentReleaseOffer)
    (running target error : String) : Cycle β Bool := do
  let installed ← fileSha256 p env.outcomeRead target
  if offer.tracked ∧ installed = some offer.sha256 then pure true
  else do
    (if offer.tracked then do
      let installed ← fileSha256 p env.reportRead target
      let report ← createReport offer running installed false (some error)
      writePending env.outcomeWrite ⟨offer, target, some report⟩
      sendPending env report
    else pure ())
    Act.fail error

/-- An offer is carried out. -/
def replaceBinary (p : Platform β) (env : Round β) (offer : AgentReleaseOffer)
    (running target : String) : Cycle β Bool := do
  Act.modify fun m => m.note (.began offer)
  let outcome ← (installRelease p env offer running target).attempt
  ignore env.cleanup fun m => { m with download := none }
  match outcome with
  | .error error => failedOutcome p env offer running target error
  | .ok () => pure true

/-- An offer is looked at. -/
def acceptOffer (p : Platform β) (env : Round β) (offer : AgentReleaseOffer) (running : String) :
    Cycle β Bool :=
  match validateOffer offer with
  | .error error => Act.fail error
  | .ok () => do
      let target ← selfPath env
      if offer.sha256 = running then observed p env offer running target
      else replaceBinary p env offer running target

/-- Whether the process has to make room for the new one. -/
def selfupdateCycle (p : Platform β) (env : Round β) : Cycle β Bool := do
  let m ← Act.get
  match m.process.bind fun process => process.running with
  | none => pure false
  | some running => do
      let pending ← readPending p env
      match pending with
      | some pending => resume p env running pending
      | none => do
          let offer ← fetchOffer env.offer
          match offer with
          | none => pure false
          | some offer => acceptOffer p env offer running

/-! ### Runs -/

/-- What can happen to a machine. -/
inductive Happening (β : Type) where
  | round (env : Round β)
  /-- The process ends, and the supervisor starts what is installed. -/
  | restart (readable : Bool)
  /-- An operator installs a binary. -/
  | reinstall (bytes : β)

/-- After a round that asks for it, and after a crash, no process is left. -/
def Machine.step (p : Platform β) (m : Machine β) : Happening β → Option (Machine β)
  | .round env =>
    if m.process.isSome then
      match selfupdateCycle p env m with
      | (.ok false, m) => some m
      | (.ok true, m) => some { m with process := none }
      | (.error (.failed _), m) => some m
      | (.error .crashed, m) => some { m with process := none }
    else none
  | .restart readable =>
    let running := if readable then some (p.sha256 m.installed.bytes) else none
    some ({ m with process := some ⟨running, m.installed.generation⟩ }.note (.started running))
  | .reinstall bytes =>
    some { m with
      installed := { bytes := bytes, generation := m.installed.generation + 1 } }

/-- A machine the agent was just put on; no process runs yet. -/
def Machine.fresh (path : String) (bytes : β) : Machine β where
  path := path
  installed := { bytes := bytes, generation := 0 }
  download := none
  staging := none
  pending := none
  process := none
  log := []

end Brocade.Selfupdate
