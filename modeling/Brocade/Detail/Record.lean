/-
Recording a report of detail usage.

The control plane keeps a head for every segment, and the hourly bytes of every user and
domain; a report adds to an hour what its segments grew over their heads.  The heads are
read once, before the first row, and written once, behind the last.  A checkpoint may be
older than what is known of a segment, in either direction: the head keeps the greater
value of each.

A transaction that fails leaves everything as it was.
-/
import Brocade.Detail.Report

namespace Brocade.Detail

open Usage (StoreError UsageGeneration)

def DETAIL_HISTORY_MAX_ROWS : ℕ := 65536

/-- Lifetime, hour, label and domain. -/
abbrev HeadKey := String × ℤ × String × String

/-- Hour, tenant, user and domain. -/
abbrev HourKey := ℤ × String × String × String

/-- What is known of one machine's detail. -/
structure DetailState where
  epoch : String
  (readAt observedSince : ℤ)
  limited : Bool

/-- What is kept of one machine. -/
structure DetailTables where
  heads : Table HeadKey Bytes
  hourly : Table HourKey Bytes
  state : Option DetailState

/-- What the report is judged by. -/
structure DetailConsole where
  node : String
  validKey : String → Bool
  enabled : Bool
  (nodeCapacity historyHours : ℕ)
  generations : ℤ → Option UsageGeneration

/-- The lifetime of a counter: a segment's own, or the whole epoch. -/
def counterEpoch (epoch : String) (counterId : ℕ) : String :=
  if counterId = 0 then epoch else epoch ++ ":" ++ toString counterId

/-- The user a label belongs to. -/
def otherDomainOwner (generation : UsageGeneration) (label : String) : Option (String × String) :=
  match (generation.bindings.get? label).bind (·.toCounterOwner label) with
  | some (.user grant) => some (grant.tenantId, grant.userId)
  | _ => none

/-- The head of a row. -/
def OtherDomainCounter.headKey (row : OtherDomainCounter) (epoch : String) : HeadKey :=
  (counterEpoch epoch row.counterId, row.bucket, row.label, row.domain)

def OtherDomainCounter.legacyKey (row : OtherDomainCounter) (epoch : String) : HeadKey :=
  (epoch, row.bucket, row.label, row.domain)

/-- The beginning of the window in which checkpoints are taken again. -/
def replayFloor (now : ℤ) : ℤ := (now.tdiv 3600 - 23) * 3600

/-- The heads a transaction reads before its first row. -/
def oldHeads (tables : DetailTables) (epochs : List String) (floor : ℤ) (buckets : List ℤ)
    (key : HeadKey) : Option Bytes :=
  if key.1 ∈ epochs ∧ floor ≤ key.2.1 ∧ key.2.1 ∈ buckets then tables.heads.get? key else none

/-- The least counter of the row's hour, label and domain. -/
def isFirstSegment (rows : List OtherDomainCounter) (row : OtherDomainCounter) : Bool :=
  rows.all fun other =>
    !(other.bucket = row.bucket && other.label = row.label && other.domain = row.domain)
      || decide (row.counterId ≤ other.counterId)

/-- What the rows so far come to. -/
structure Pending where
  limited : Bool
  /-- a row was dropped for want of room; no branch reads it -/
  full : Bool
  persisted : List HourKey
  (bucketCounts headCounts : ℤ → ℕ)
  totals : Table HourKey Bytes
  writes : List (HeadKey × Bytes)

def bump (counts : ℤ → ℕ) (bucket : ℤ) : ℤ → ℕ := Function.update counts bucket (counts bucket + 1)

/-- Add what a segment grew. -/
def addGrowth (report : OtherDomainReport) (row : OtherDomainCounter) (owner : String × String)
    (capacity : ℕ) (newHead : Bool) (before after : Bytes) (pending : Pending) :
    Except StoreError Pending :=
  let key : HourKey := (row.bucket, owner.1, owner.2, row.domain)
  let known := decide (key ∈ pending.persisted)
  if !known && decide (capacity ≤ pending.bucketCounts row.bucket) then
    .ok { pending with limited := true, full := true }
  else
    let total := (pending.totals.get? key).getD (0, 0) + (after - before)
    if I64_MAX < total.1 ∨ I64_MAX < total.2 then
      .error (.invalidData "domain aggregation overflow")
    else
      .ok { pending with
        persisted := if known then pending.persisted else key :: pending.persisted
        bucketCounts :=
          if known then pending.bucketCounts else bump pending.bucketCounts row.bucket
        headCounts := if newHead then bump pending.headCounts row.bucket else pending.headCounts
        totals := pending.totals.upsert key fun total => total.getD (0, 0) + (after - before)
        writes := pending.writes ++ [(row.headKey report.epoch, after)] }

/-- One row of a report. -/
def recordRow (console : DetailConsole) (report : OtherDomainReport) (floor : ℤ)
    (owner : String → Option (String × String)) (old : HeadKey → Option Bytes)
    (pending : Pending) (row : OtherDomainCounter) : Except StoreError Pending :=
  let checkpointed := decide (report.version = DETAIL_CHECKPOINT_VERSION)
  if checkpointed && decide (row.bucket < floor) then .ok pending
  else
    match owner row.label with
    | none => .ok { pending with limited := true }
    | some owner =>
      let previousHead := old (row.headKey report.epoch)
      let legacyHead :=
        if checkpointed && previousHead.isNone && isFirstSegment report.counters row then
          old (row.legacyKey report.epoch)
        else none
      let before := (previousHead.orElse fun _ => legacyHead).getD (0, 0)
      -- a segment never resets: each direction keeps its greatest value
      let after := if checkpointed then row.bytes ⊔ before else row.bytes
      if !checkpointed && decide (¬ before ≤ row.bytes) then .ok { pending with limited := true }
      else if after = before ∧ legacyHead = none then .ok pending
      else
        let newHead := checkpointed && previousHead.isNone && legacyHead.isNone
        if newHead && decide (DETAIL_HISTORY_MAX_ROWS ≤ pending.headCounts row.bucket) then
          .ok { pending with limited := true, full := true }
        else
          addGrowth report row owner
            (if checkpointed then DETAIL_HISTORY_MAX_ROWS else console.nodeCapacity) newHead
            before after pending

/-- What is known of the machine before the first row. -/
def Pending.start (tables : DetailTables) (report : OtherDomainReport) : Pending where
  limited := report.limited || tables.state.any fun state =>
    state.epoch = report.epoch
      && (state.limited || decide (3600 < report.readAtUnixSecs - state.readAt))
  full := false
  persisted := tables.hourly.keys
  bucketCounts bucket := (tables.hourly.keys.filter fun key => key.1 = bucket).length
  headCounts bucket := (tables.heads.keys.filter fun key => key.2.1 = bucket).length
  totals := .empty
  writes := []

/-- Write an hour's growth. -/
def addHourly (hourly : Table HourKey Bytes) (entry : HourKey × Bytes) :
    Except StoreError (Table HourKey Bytes) :=
  let sum := (hourly.get? entry.1).getD (0, 0) + entry.2
  if entry.1.1 ≤ 0 ∨ I64_MAX < sum.1 ∨ I64_MAX < sum.2 then .error (.database "hourly row")
  else .ok (hourly.upsert entry.1 fun bytes => bytes.getD (0, 0) + entry.2)

/-- The hours the retention lets go, the oldest first and not all at once. -/
def expiredHours (hourly : Table HourKey Bytes) (cutoff : ℤ) : List HourKey :=
  ((hourly.keys.filter fun key => decide (key.1 < cutoff)).insertionSort fun a b => a.1 ≤ b.1).take
    1024

/-- The row of the machine after a report. -/
def nextDetailState (previous : Option DetailState) (report : OtherDomainReport) (limited : Bool) :
    DetailState :=
  let since := match previous.filter fun state => state.epoch = report.epoch with
    | some state => state.observedSince
    | none => report.activationUnixSecs
  match previous with
  | none => ⟨report.epoch, report.readAtUnixSecs, since, limited⟩
  | some state =>
    if state.readAt ≤ report.readAtUnixSecs then
      ⟨report.epoch, report.readAtUnixSecs, since, limited⟩
    else { state with limited := state.limited || limited }

/-- Write what the rows came to. -/
def commitRows (console : DetailConsole) (tables : DetailTables) (now : ℤ)
    (report : OtherDomainReport) (pending : Pending) : Except StoreError DetailTables :=
  let heads := pending.writes.foldl (fun heads write => heads.put write.1 write.2) tables.heads
  -- a legacy baseline is transferred once
  let heads :=
    if report.version = DETAIL_CHECKPOINT_VERSION then
      heads.deleteWhere fun key =>
        decide (key.1 = report.epoch) && pending.writes.any fun write => write.1.2 = key.2
    else heads
  match pending.totals.rows.foldlM addHourly tables.hourly with
  | .error e => .error e
  | .ok hourly =>
    let expired := expiredHours hourly (now - console.historyHours * 3600)
    .ok {
      heads := heads.deleteWhere fun key => decide (key.2.1 < replayFloor now)
      hourly := hourly.deleteWhere fun key => decide (key ∈ expired)
      state := some (nextDetailState tables.state report pending.limited) }

/-- The rows of a report, one after the other. -/
def recordRows (console : DetailConsole) (tables : DetailTables) (now : ℤ)
    (report : OtherDomainReport) (generation : UsageGeneration) : Except StoreError Pending :=
  let epochs := report.counters.map (fun row => counterEpoch report.epoch row.counterId)
    ++ (if report.version = DETAIL_CHECKPOINT_VERSION then [report.epoch] else [])
  let old := oldHeads tables epochs (replayFloor now) (report.counters.map (·.bucket))
  report.counters.foldlM
    (recordRow console report (replayFloor now) (otherDomainOwner generation) old)
    (.start tables report)

/-- A lifetime of one of the epoch's segments. -/
def isSegmentEpoch (epoch lifetime : String) : Bool := Text.startsWith lifetime (epoch ++ ":")

/-- The envelope's checks behind its validation; `some` ends the transaction. -/
def refuse (console : DetailConsole) (tables : DetailTables) (now : ℤ)
    (report : OtherDomainReport) : Option (Except StoreError DetailTables) :=
  let checkpointed := decide (report.version = DETAIL_CHECKPOINT_VERSION)
  if checkpointed && decide (hourOf report.readAtUnixSecs < replayFloor now) then some (.ok tables)
  else if !checkpointed && tables.heads.keys.any fun key => isSegmentEpoch report.epoch key.1 then
    some (.error (.invalidData "checkpointed epoch requires v2 reports; restart Xray before legacy observation rollback"))
  else if !console.enabled && !checkpointed then
    some (.error (.forbidden "domain observations are disabled"))
  else if !checkpointed
      && tables.state.any fun state => decide (report.readAtUnixSecs ≤ state.readAt) then
    some (.ok tables)
  else if !checkpointed && tables.state.any fun state =>
      state.epoch ≠ report.epoch && decide (report.activationUnixSecs < state.observedSince) then
    some (.error (.invalidData "stale domain observation epoch"))
  else none

/-- A report, checked and then recorded. -/
def recordFor (console : DetailConsole) (tables : DetailTables) (now : ℤ)
    (report : OtherDomainReport) : Except StoreError DetailTables :=
  match validateFor console.validKey report now with
  | .error e => .error e
  | .ok _ =>
    match refuse console tables now report with
    | some result => result
    | none =>
      match console.generations report.usageGenerationId with
      | none =>
        .error (.invalidData
          s!"usage generation {report.usageGenerationId} does not belong to node {console.node}")
      | some generation =>
        match recordRows console tables now report generation with
        | .error e => .error e
        | .ok pending => commitRows console tables now report pending

end Brocade.Detail
