/-
Recording what forwarding rules have moved.

A machine counts the bytes of every rule and reports the counters, numbered by the agent
that read them.  The control plane keeps one head for each rule on each machine and charges
what a reading is above it: in samples, in the rollups of the day, and in the windows of the
machine.  A reading of a new epoch starts from zero, and one that falls back within its epoch
charges nothing and leaves the head where it is.

A report is one transaction: a new database, or an error that leaves the old one.
-/
import Brocade.Forwarding.Store

namespace Brocade.Forwarding

open Usage (StoreError Bytes I64_MAX inRange)

/-! ### Reports -/

/-- The counters of one rule. -/
structure ForwardingUsageCounter where
  ruleId : ℤ
  (uplinkBytes downlinkBytes : ℕ)

def ForwardingUsageCounter.bytes (counter : ForwardingUsageCounter) : Bytes :=
  (counter.uplinkBytes, counter.downlinkBytes)

/-- A numbered usage report. -/
structure ForwardingUsageReportRequest where
  agentInstanceId : String
  sequence : ℕ
  readAtUnixSecs : ℤ
  xrayEpoch : String
  counters : List ForwardingUsageCounter

/-- What the control plane answers to it. -/
structure ForwardingUsageReportResult where
  (nodeId agentInstanceId : String)
  sequence : ℕ
  duplicate : Bool
  (acceptedCounters insertedSamples skippedCounters : ℕ)

/-! ### Tables -/

/-- The last reading of a counter. -/
structure UsageCounterHead where
  (agentInstanceId xrayEpoch : String)
  bytes : Bytes
  readAt : ℤ
  /-- missing in a head from before reports were numbered -/
  sequence : Option ℕ
  hasGap : Bool

/-- The bytes of one window. -/
structure UsageSample where
  nodeId : String
  ruleId : ℤ
  (tenantId userId : String)
  readAt : ℤ
  bytes : Bytes
  windowStart : Option ℤ
  hasGap : Bool

/-- The answer to a report, kept for its retry. -/
structure UsageReceipt where
  result : ForwardingUsageReportResult
  payloadSha256 : Option String

/-- Day, machine, tenant, user, rule. -/
abbrev RollupKey := ℤ × String × String × String × ℤ

/-- The tables of forwarding usage. -/
structure UsageDb where
  /-- (machine, rule) -/
  heads : Table (String × ℤ) UsageCounterHead
  samples : List UsageSample
  rollups : Table RollupKey (Bytes × Bool)
  /-- (machine, tenant, window start, window end) -/
  windows : Table (String × String × ℤ × ℤ) (Bytes × Bool)
  /-- (machine, agent instance, sequence) -/
  receipts : Table (String × String × ℕ) UsageReceipt

def UsageDb.empty : UsageDb := ⟨.empty, [], .empty, .empty, .empty⟩

/-- What the code takes from outside: the payload digest and the Hong Kong calendar. -/
structure UsagePlatform where
  payloadSha256 : ForwardingUsageReportRequest → String
  /-- start of the day an instant falls in -/
  dayStart : ℤ → ℤ

/-! ### One counter -/

/-- Who a rule's bytes are charged to. -/
structure CounterOwner where
  (tenantId userId : String)
  active : Bool

/-- Who a counter is charged to: its rule is on the machine, or has been. -/
def counterOwner (db : Db) (nodeId : String) (ruleId : ℤ) : Option CounterOwner :=
  ((db.rules.get? ruleId).filter fun rule =>
      decide (rule.nodeId = nodeId) || decide ((ruleId, nodeId) ∈ db.ruleNodes)).map fun rule =>
    { tenantId := rule.tenantId
      userId := rule.userId
      active := decide (rule.nodeId = nodeId) && rule.active
        && (db.entitlements.get? rule.key).any (·.enabled)
        && (db.users.get? (rule.tenantId, rule.userId)).any fun user => user.status = .active }

/-- What a reading is worth. -/
structure Charge where
  start : Option ℤ
  bytes : Bytes
  (hasGap advanceHead : Bool)

/-- The reading is older than the head, or not the next of the head's own agent. -/
def outOfDate (head : UsageCounterHead) (request : ForwardingUsageReportRequest) : Bool :=
  decide (request.readAtUnixSecs < head.readAt)
    || (decide (head.agentInstanceId = request.agentInstanceId)
      && head.sequence.any fun previous => request.sequence ≤ previous)

/-- A reading against its head; `none` where it is passed over. -/
def chargeOf (head : Option UsageCounterHead) (request : ForwardingUsageReportRequest)
    (bytes : Bytes) : Option Charge :=
  match head with
  | none => some ⟨none, bytes, false, true⟩
  | some head =>
    let sameEpoch := decide (head.xrayEpoch = request.xrayEpoch)
    let continuous := sameEpoch && decide (head.bytes ≤ bytes)
    if outOfDate head request then none
    else if decide (request.readAtUnixSecs = head.readAt)
        && (!continuous || decide (bytes = head.bytes)) then none
    else if continuous then
      some {
        start := if head.readAt < request.readAtUnixSecs && !head.hasGap then some head.readAt
          else none
        bytes := bytes - head.bytes
        hasGap := head.hasGap
        advanceHead := true }
    else if sameEpoch then some ⟨none, 0, true, false⟩
    else some ⟨none, bytes, true, true⟩

/-- The head after a reading was charged. -/
def chargedHead (head : Option UsageCounterHead) (request : ForwardingUsageReportRequest)
    (bytes : Bytes) (charge : Charge) : Option UsageCounterHead :=
  if charge.advanceHead then
    some {
      agentInstanceId := request.agentInstanceId
      xrayEpoch := request.xrayEpoch
      bytes := bytes
      readAt := request.readAtUnixSecs
      sequence := some request.sequence
      hasGap := false }
  else head.map fun head => { head with hasGap := true }

/-- Add to a row, unless the sum overflows its columns. -/
def addRow {κ : Type} [DecidableEq κ] (table : Table κ (Bytes × Bool)) (key : κ) (bytes : Bytes)
    (hasGap : Bool) : Except StoreError (Table κ (Bytes × Bool)) :=
  if inRange (((table.get? key).getD (0, false)).1 + bytes) then
    .ok (table.upsert key fun row =>
      let row := row.getD (0, false)
      (row.1 + bytes, row.2 || hasGap))
  else .error (.database "bigint out of range")

/-- The charge makes a row of its own. -/
def Charge.recorded (charge : Charge) : Bool := decide (charge.bytes ≠ 0) || charge.hasGap

/-- The bytes of a window are booked. -/
def insertSample (platform : UsagePlatform) (usage : UsageDb) (nodeId : String)
    (request : ForwardingUsageReportRequest) (ruleId : ℤ) (owner : CounterOwner) (charge : Charge) :
    Except StoreError UsageDb :=
  if charge.recorded then do
    let sample : UsageSample := {
      nodeId, ruleId, tenantId := owner.tenantId, userId := owner.userId
      readAt := request.readAtUnixSecs, bytes := charge.bytes, windowStart := charge.start
      hasGap := charge.hasGap }
    let day := platform.dayStart (charge.start.getD request.readAtUnixSecs)
    let rollups ← addRow usage.rollups (day, nodeId, owner.tenantId, owner.userId, ruleId)
      charge.bytes charge.hasGap
    return { usage with samples := usage.samples ++ [sample], rollups }
  else .ok usage

/-- The window goes to the tenant's. -/
def insertWindow (usage : UsageDb) (nodeId : String) (request : ForwardingUsageReportRequest)
    (owner : CounterOwner) (charge : Charge) : Except StoreError UsageDb :=
  match charge.start.filter fun _ => owner.active || charge.recorded with
  | none => .ok usage
  | some start => do
      let windows ← addRow usage.windows (nodeId, owner.tenantId, start, request.readAtUnixSecs)
        charge.bytes charge.hasGap
      return { usage with windows }

/-- Everything a report has done so far. -/
structure UsageProgress where
  usage : UsageDb
  (accepted inserted skipped : ℕ)

/-- Write a charge: the head, the sample with its rollup, the window. -/
def bookCharge (platform : UsagePlatform) (nodeId : String) (request : ForwardingUsageReportRequest)
    (counter : ForwardingUsageCounter) (owner : CounterOwner) (charge : Charge)
    (progress : UsageProgress) : Except StoreError UsageProgress := do
  let key := (nodeId, counter.ruleId)
  let heads := match chargedHead (progress.usage.heads.get? key) request counter.bytes charge with
    | some head => progress.usage.heads.put key head
    | none => progress.usage.heads
  let sampled ← insertSample platform { progress.usage with heads } nodeId request counter.ruleId owner
    charge
  let usage ← insertWindow sampled nodeId request owner charge
  return {
    usage
    accepted := progress.accepted + if charge.advanceHead then 1 else 0
    inserted := progress.inserted + if charge.recorded then 1 else 0
    skipped := progress.skipped + if charge.advanceHead then 0 else 1 }

/-- One counter of a rule, booked or passed over. -/
def recordCounter (platform : UsagePlatform) (db : Db) (nodeId : String)
    (request : ForwardingUsageReportRequest) (progress : UsageProgress)
    (counter : ForwardingUsageCounter) : Except StoreError UsageProgress :=
  let skipped := { progress with skipped := progress.skipped + 1 }
  match counterOwner db nodeId counter.ruleId with
  | none => .ok skipped
  | some owner => do
      require (counter.uplinkBytes ≤ I64_MAX) (.invalidData "forwarding uplink counter overflow")
      require (counter.downlinkBytes ≤ I64_MAX) (.invalidData "forwarding downlink counter overflow")
      match chargeOf (progress.usage.heads.get? (nodeId, counter.ruleId)) request counter.bytes with
      | none => return skipped
      | some charge => bookCharge platform nodeId request counter owner charge progress

/-! ### The report -/

def MAX_USAGE_COUNTERS : ℕ := 1024

/-- The checks a report passes before its counters are looked at. -/
def checkUsageRequest (request : ForwardingUsageReportRequest) : Except StoreError Unit := do
  require (Text.trim request.agentInstanceId ≠ "" && request.agentInstanceId.utf8ByteSize ≤ 128)
    (.invalidData "invalid forwarding usage agent instance id")
  require (Text.trim request.xrayEpoch ≠ "" && request.xrayEpoch.utf8ByteSize ≤ 256)
    (.invalidData "invalid forwarding usage xray epoch")
  require (request.counters.length ≤ MAX_USAGE_COUNTERS)
    (.invalidData "too many forwarding usage counters")
  require (request.sequence ≤ I64_MAX) (.invalidData "forwarding usage sequence overflow")
  require (0 < request.sequence && 0 < request.readAtUnixSecs)
    (.invalidData "invalid forwarding sample time or sequence")

/-- In the order of their rules. -/
def sortCounters (counters : List ForwardingUsageCounter) : List ForwardingUsageCounter :=
  counters.insertionSort fun a b => a.ruleId ≤ b.ruleId

/-- A report that no receipt answers for. -/
def recordFresh (platform : UsagePlatform) (db : Db) (usage : UsageDb) (nodeId : String)
    (request : ForwardingUsageReportRequest) :
    Except StoreError (ForwardingUsageReportResult × UsageDb) := do
  let progress ← request.counters.foldlM (recordCounter platform db nodeId request) ⟨usage, 0, 0, 0⟩
  let result : ForwardingUsageReportResult := {
    nodeId, agentInstanceId := request.agentInstanceId, sequence := request.sequence
    duplicate := false, acceptedCounters := progress.accepted
    insertedSamples := progress.inserted, skippedCounters := progress.skipped }
  return (result, { progress.usage with
    receipts := progress.usage.receipts.put (nodeId, request.agentInstanceId, request.sequence)
      ⟨result, some (platform.payloadSha256 request)⟩ })

/-- **Record one report of a machine.** -/
def recordUsage (platform : UsagePlatform) (now : ℤ) (db : Db) (usage : UsageDb) (nodeId : String)
    (sent : ForwardingUsageReportRequest) :
    Except StoreError (ForwardingUsageReportResult × UsageDb) := do
  checkUsageRequest sent
  let request := { sent with counters := sortCounters sent.counters }
  require (request.counters.map (·.ruleId)).Nodup (.invalidData "duplicate forwarding counter")
  require (request.readAtUnixSecs ≤ now + 600)
    (.invalidData "forwarding sample time is in the future")
  match usage.receipts.get? (nodeId, request.agentInstanceId, request.sequence) with
  | some receipt => do
      require (receipt.payloadSha256.all fun hash => hash = platform.payloadSha256 request)
        (.conflict "forwarding receipt payload changed")
      return ({ receipt.result with duplicate := true }, usage)
  | none => recordFresh platform db usage nodeId request

end Brocade.Forwarding
