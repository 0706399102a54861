/-
Recording a usage report.

An agent reads xray's cumulative byte counters and delivers them in a numbered report.
`recordUsageReport` turns a report into bytes booked: for every label it compares the
reading with the durable head, decides whether the head moves and which window of bytes
that move is worth, and writes the window to the ledgers that billing, quotas and the
machine charts read.  One report is one transaction, so it is a function from the
database to a new database or an error that leaves the old one in place.

Times are whole Unix seconds, byte counts are pairs (uplink, downlink).  The tables are
those of the usage schema with the columns the code reads back; what the database alone
decides (foreign keys, connection loss) can fail a transaction and is not modelled here.
-/
import Mathlib.Algebra.Group.Prod
import Mathlib.Algebra.Order.Sub.Prod
import Mathlib.Algebra.GroupWithZero.Nat
import Brocade.Lib.OrdMap
import Brocade.Lib.Table
import Brocade.Lib.Text

namespace Brocade.Usage

/-- Uplink and downlink bytes. -/
abbrev Bytes := ℕ × ℕ

def I64_MAX : ℕ := 2 ^ 63 - 1

/-- Both directions fit a signed 64-bit column. -/
def inRange (b : Bytes) : Bool := b.1 ≤ I64_MAX && b.2 ≤ I64_MAX

/-- Why a report is refused. -/
inductive StoreError where
  | invalidData (message : String)
  | conflict (message : String)
  | forbidden (message : String)
  | notFound (message : String)
  | unsupported (message : String)
  | database (message : String)
deriving DecidableEq

/-! ### Who a counter belongs to -/

/-- What a first reading is worth. -/
inductive FirstReadingPolicy where
  | establishBaseline
  | countFromZero
deriving DecidableEq

/-- What a frozen generation says a counter label stands for. -/
inductive FrozenBinding where
  | foreign
  | user (tenantId userId ingressId appId : String) (chainId : Option String)
      (firstReading : FirstReadingPolicy)
  | chainHop (tenantId appId chainId nodeId : String)
deriving DecidableEq

/-- Whose counter a grant's label is. -/
structure GrantMapping where
  (tenantId userId ingressId appId label : String)

/-- A relay hop's attribution; `nodeId` is the machine the hop counts against. -/
structure ChainHopMapping where
  (tenantId appId chainId label nodeId : String)

/-- Whose counter a label is. -/
inductive CounterOwner where
  | user (grant : GrantMapping)
  | chainHop (hop : ChainHopMapping)

/-- Who is charged. -/
def FrozenBinding.toCounterOwner (self : FrozenBinding) (label : String) : Option CounterOwner :=
  match self with
  | .foreign => none
  | .user tenantId userId ingressId appId _ _ =>
    some (.user { tenantId, userId, ingressId, appId, label })
  | .chainHop tenantId appId chainId nodeId =>
    some (.chainHop { tenantId, appId, chainId, label, nodeId })

/-- What a first reading is worth. -/
def FrozenBinding.firstReadingPolicy : FrozenBinding → FirstReadingPolicy
  | .user _ _ _ _ _ firstReading => firstReading
  | .foreign | .chainHop .. => .establishBaseline

/-- Where usage comes from. -/
structure UsageMetadata where
  (revisionId deploymentId : Option Int)

/-- The immutable interpretation of a machine's counter labels. -/
structure UsageGeneration where
  id : Int
  (deploymentId revisionId : Option Int)
  bindings : OrdMap String FrozenBinding
  activatedAtUnixSecs : Option Int

/-- Where the usage is from. -/
def UsageGeneration.metadata (self : UsageGeneration) : UsageMetadata where
  revisionId := self.revisionId
  deploymentId := self.deploymentId

/-- The policy of a label's first reading. -/
def UsageGeneration.firstReadingPolicy (self : UsageGeneration) (label : String) :
    FirstReadingPolicy :=
  match self.bindings.get? label with
  | some binding => binding.firstReadingPolicy
  | none => .establishBaseline

/-! ### Reports -/

/-- The counters of one label. -/
structure UsageCounter where
  label : String
  (uplinkBytes downlinkBytes : ℕ)

/-- Time certified as free of traffic. -/
structure UsageZeroWindow where
  (startUnixMillis endUnixMillis : Int)

/-- A numbered usage report. -/
structure UsageReportRequest where
  agentInstanceId : String
  sequence : ℕ
  (usageGenerationId readAtUnixSecs xrayStartedAtUnixSecs : Int)
  xrayEpoch : String
  /-- the addresses the machine is reached at, kept for the payload digest only -/
  route : Option (Option String × Option String)
  counters : List UsageCounter
  zeroWindows : List UsageZeroWindow

/-- What the control plane answers to it. -/
structure UsageReportResult where
  (nodeId agentInstanceId : String)
  sequence : ℕ
  usageGenerationId : Int
  duplicate : Bool
  (acceptedReadings insertedSamples skippedCounters rejectedCounters gapSamples : ℕ)
  windowStartUnixSecs : Option Int
  zeroWindows : List UsageZeroWindow

/-! ### The database -/

/-- The baseline the next reading is differenced against. -/
structure UsageHead where
  readAtUnixSecs : Int
  bytes : Bytes
  xrayEpoch : String
  generationId : Int
deriving DecidableEq

/-- A reading of one counter. -/
structure UsageReading where
  generationId : Int
  xrayEpoch : String
  (readAtUnixSecs xrayStartedAtUnixSecs : Int)
  bytes : Bytes
deriving DecidableEq

/-- A user's bytes. -/
structure UsageSample where
  (tenantId userId ingressId appId : String)
  bytes : Bytes
  hasGap : Bool
  metadata : UsageMetadata
  generationId : Int

/-- A chain's bytes. -/
structure ChainSample where
  (tenantId appId chainId : String)
  bytes : Bytes
  hasGap : Bool
  metadata : UsageMetadata
  generationId : Int

/-- The bytes of a machine. -/
structure NodeTotals where
  (user relay : Bytes)

def NodeTotals.zero : NodeTotals := ⟨0, 0⟩

def NodeTotals.add (a b : NodeTotals) : NodeTotals := ⟨a.user + b.user, a.relay + b.relay⟩

/-- The answer to a report, kept for its retry. -/
structure Receipt where
  payloadSha256 : String
  (generationId readAtUnixSecs : Int)
  result : UsageReportResult

/-- A window's key in either sample table: machine, label, start, end. -/
abbrev WindowKey := String × String × Int × Int

/-- The tables of usage. -/
structure Db where
  /-- (generation, machine) -/
  generations : Table (Int × String) UsageGeneration
  nodes : List String
  /-- (machine, label) -/
  heads : Table (String × String) UsageHead
  /-- (machine, agent instance, sequence, label) -/
  readings : Table (String × String × ℕ × String) UsageReading
  samples : Table WindowKey UsageSample
  chainSamples : Table WindowKey ChainSample
  /-- (tenant, user, app, period start, period end) -/
  rollups : Table (String × String × String × Int × Int) (Bytes × Bool)
  /-- (tenant, machine, period start, period end) -/
  nodeRollups : Table (String × String × Int × Int) (NodeTotals × Bool)
  /-- (machine, window end, tenant) -/
  nodeWindows : Table (String × Int × String) NodeTotals
  /-- (machine, agent instance, sequence) -/
  receipts : Table (String × String × ℕ) Receipt
  /-- (machine, agent instance) ↦ last sequence -/
  cursors : Table (String × String) ℕ

/-- A control plane that has recorded nothing yet. -/
def Db.empty : Db where
  generations := .empty
  nodes := []
  heads := .empty
  readings := .empty
  samples := .empty
  chainSamples := .empty
  rollups := .empty
  nodeRollups := .empty
  nodeWindows := .empty
  receipts := .empty
  cursors := .empty

/-- What the code takes from outside: the payload digest and the Hong Kong calendar. -/
structure Platform where
  payloadSha256 : UsageReportRequest → String
  /-- start of the day an instant falls in -/
  dayStart : Int → Int
  /-- end of that day -/
  dayEnd : Int → Int

/-! ### Booking a window -/

/-- A window about to be written. -/
structure UsageSampleInsert where
  nodeId : String
  (windowStartUnixSecs windowEndUnixSecs : Int)
  bytes : Bytes
  hasGap : Bool
  metadata : UsageMetadata
  generationId : Int

/-- Add to a rollup row, unless the sum overflows its column. -/
def addRollup (rollups : Table (String × String × String × Int × Int) (Bytes × Bool))
    (key : String × String × String × Int × Int) (bytes : Bytes) (hasGap : Bool) :
    Except StoreError (Table (String × String × String × Int × Int) (Bytes × Bool)) :=
  let old := (rollups.get? key).getD (0, false)
  if inRange (old.1 + bytes) then
    .ok (rollups.upsert key fun row =>
      let row := row.getD (0, false)
      (row.1 + bytes, row.2 || hasGap))
  else .error (.database "bigint out of range")

def NodeTotals.inRange (t : NodeTotals) : Bool := Usage.inRange t.user && Usage.inRange t.relay

/-- An hour of a machine. -/
def addNodeRollup (rollups : Table (String × String × Int × Int) (NodeTotals × Bool))
    (key : String × String × Int × Int) (totals : NodeTotals) (hasGap : Bool) :
    Except StoreError (Table (String × String × Int × Int) (NodeTotals × Bool)) :=
  let old := (rollups.get? key).getD (.zero, false)
  if (old.1.add totals).inRange then
    .ok (rollups.upsert key fun row =>
      let row := row.getD (.zero, false)
      (row.1.add totals, row.2 || hasGap))
  else .error (.database "bigint out of range")

/-- Book a user's window; `false` when the same window is already there. -/
def insertUsageSample (platform : Platform) (db : Db) (grant : GrantMapping)
    (sample : UsageSampleInsert) : Except StoreError (Bool × Db) :=
  let start := platform.dayStart sample.windowStartUnixSecs
  if sample.bytes = 0 ∧ sample.hasGap = false then
    -- an idle window leaves no detail row, only the day's presence
    .ok (true, { db with
      rollups := (db.rollups.insertNew?
        (grant.tenantId, grant.userId, grant.appId, start, start + 86400) (0, false)).getD db.rollups
      nodeRollups := (db.nodeRollups.insertNew?
        (grant.tenantId, sample.nodeId, start, start + 86400) (.zero, false)).getD db.nodeRollups })
  else
    let key := (sample.nodeId, grant.label, sample.windowStartUnixSecs, sample.windowEndUnixSecs)
    let row : UsageSample := {
      tenantId := grant.tenantId, userId := grant.userId, ingressId := grant.ingressId
      appId := grant.appId, bytes := sample.bytes, hasGap := sample.hasGap
      metadata := sample.metadata, generationId := sample.generationId }
    match db.samples.insertNew? key row with
    | none => .ok (false, db)
    | some samples => do
        let period := (start, platform.dayEnd sample.windowStartUnixSecs)
        let rollups ← addRollup db.rollups
          (grant.tenantId, grant.userId, grant.appId, period) sample.bytes sample.hasGap
        let nodeRollups ← addNodeRollup db.nodeRollups
          (grant.tenantId, sample.nodeId, period) ⟨sample.bytes, 0⟩ sample.hasGap
        return (true, { db with samples, rollups, nodeRollups })

/-- Book a relay hop's window, against the hop's own machine. -/
def insertChainSample (platform : Platform) (db : Db) (hop : ChainHopMapping)
    (sample : UsageSampleInsert) : Except StoreError (Bool × Db) :=
  let key := (hop.nodeId, hop.label, sample.windowStartUnixSecs, sample.windowEndUnixSecs)
  let row : ChainSample := {
    tenantId := hop.tenantId, appId := hop.appId, chainId := hop.chainId
    bytes := sample.bytes, hasGap := sample.hasGap
    metadata := sample.metadata, generationId := sample.generationId }
  match db.chainSamples.insertNew? key row with
  | none => .ok (false, db)
  | some chainSamples => do
      let period := (platform.dayStart sample.windowStartUnixSecs,
        platform.dayEnd sample.windowStartUnixSecs)
      let nodeRollups ← addNodeRollup db.nodeRollups
        (hop.tenantId, hop.nodeId, period) ⟨0, sample.bytes⟩ sample.hasGap
      return (true, { db with chainSamples, nodeRollups })

/-- A window's bytes are booked. -/
def insertSample (platform : Platform) (db : Db) (owner : CounterOwner)
    (sample : UsageSampleInsert) : Except StoreError (Bool × Db) :=
  match owner with
  | .user grant => insertUsageSample platform db grant sample
  | .chainHop hop => insertChainSample platform db hop sample

/-- The totals of a report's windows, by (machine, tenant). -/
abbrev WindowTotals := Table (String × String) NodeTotals

/-- A window of a machine. -/
def addNodeWindow (windows : WindowTotals) (reporter : String) (owner : CounterOwner)
    (bytes : Bytes) : Except StoreError WindowTotals :=
  let (node, tenant, totals) : String × String × NodeTotals := match owner with
    | .user grant => (reporter, grant.tenantId, ⟨bytes, 0⟩)
    | .chainHop hop => (hop.nodeId, hop.tenantId, ⟨0, bytes⟩)
  let sum := ((windows.get? (node, tenant)).getD .zero).add totals
  if sum.inRange then
    .ok (windows.upsert (node, tenant) fun row => (row.getD .zero).add totals)
  else if I64_MAX < sum.user.1 ∨ I64_MAX < sum.relay.1 then
    .error (.invalidData "usage window uplink overflow")
  else .error (.invalidData "usage window downlink overflow")

/-- Flush the report's windows, adding to what other reports left at the same end. -/
def persistNodeWindows (windowEnd : Int) : List ((String × String) × NodeTotals) →
    Table (String × Int × String) NodeTotals →
    Except StoreError (Table (String × Int × String) NodeTotals)
  | [], table => .ok table
  | ((node, tenant), totals) :: rest, table =>
    let key := (node, windowEnd, tenant)
    if (((table.get? key).getD .zero).add totals).inRange then
      persistNodeWindows windowEnd rest
        (table.upsert key fun row => (row.getD .zero).add totals)
    else .error (.database "bigint out of range")

/-! ### One counter -/

/-- The bytes one head move is worth, and the time they are booked over. -/
structure Window where
  start : Int
  bytes : Bytes
  hasGap : Bool

/-- What a reading does to its head. -/
inductive Verdict where
  /-- the reading is refused and the head stays -/
  | reject
  /-- the reading is taken note of and the head stays -/
  | keep
  /-- the head moves, booking a window if there is one -/
  | advance (window : Option Window)

def isJournal (epoch : String) : Bool := Text.startsWith epoch "journal:"

/-- A reading against its durable head.  The cases come in this order: older, same second,
leaving the journal namespace without a restart, decreased, restarted, grown. -/
def againstHead (previous : UsageHead) (reading : UsageReading) (accountingGeneration : Int) :
    Verdict :=
  if reading.readAtUnixSecs < previous.readAtUnixSecs then .reject
  else if reading.readAtUnixSecs = previous.readAtUnixSecs then .keep
  else if isJournal previous.xrayEpoch && !isJournal reading.xrayEpoch
      && decide (reading.xrayStartedAtUnixSecs ≤ previous.readAtUnixSecs) then .reject
  else if previous.xrayEpoch = reading.xrayEpoch
      ∧ (reading.bytes.1 < previous.bytes.1 ∨ reading.bytes.2 < previous.bytes.2) then .reject
  else if previous.xrayEpoch ≠ reading.xrayEpoch then
    .advance (some {
      start := max previous.readAtUnixSecs reading.xrayStartedAtUnixSecs
      bytes := reading.bytes
      hasGap := true })
  else
    .advance (some {
      start := previous.readAtUnixSecs
      bytes := reading.bytes - previous.bytes
      hasGap := decide (previous.generationId ≠ accountingGeneration) })

/-- The first reading of a label. -/
def firstReading (policy : FirstReadingPolicy) (activatedAt : Option Int)
    (reading : UsageReading) : Verdict :=
  match policy with
  | .establishBaseline => .advance none
  | .countFromZero =>
    let (candidateStart, hasGap) : Int × Bool := match activatedAt with
      | some activated =>
        if activated ≤ reading.readAtUnixSecs then
          (max activated reading.xrayStartedAtUnixSecs, false)
        else (reading.readAtUnixSecs - 1, true)
      | none => (reading.readAtUnixSecs - 1, true)
    -- traffic in the very second of authorization still gets a non-empty window
    .advance (some {
      start := min candidateStart (reading.readAtUnixSecs - 1)
      bytes := reading.bytes
      hasGap })

/-- What a reading is worth. -/
def judge (previous : Option UsageHead) (policy : FirstReadingPolicy) (activatedAt : Option Int)
    (reading : UsageReading) (accountingGeneration : Int) : Verdict :=
  match previous with
  | some head => againstHead head reading accountingGeneration
  | none => firstReading policy activatedAt reading

/-- Everything a report has done so far. -/
structure Progress where
  db : Db
  labels : List String
  nodeWindows : WindowTotals
  coverageStart : Option Int
  (acceptedReadings insertedSamples skippedCounters rejectedCounters gapSamples : ℕ)

/-- The last authorized owner of a relay hop that the reported generation no longer binds. -/
def retiredChainOwner (db : Db) (nodeId label : String) (generationId : Int) :
    Option (CounterOwner × Int × UsageMetadata) := do
  let generation ← db.generations.get? (generationId, nodeId)
  let binding ← generation.bindings.get? label
  match binding.toCounterOwner label with
  | some (.chainHop hop) => some (.chainHop hop, generationId, generation.metadata)
  | _ => none

/-- The machines whose samples end at the counter's head, for this hop and generation. -/
def ownerEvidence (db : Db) (hop : ChainHopMapping) (generationId : Int)
    (previous : Option UsageHead) : List String :=
  match previous with
  | some head =>
    if head.generationId = generationId then
      ((db.chainSamples.rows.filter fun r =>
        decide (r.1.2.2.2 = head.readAtUnixSecs) && decide (r.2.generationId = generationId)
          && decide (r.1.2.1 = hop.label) && decide (r.2.tenantId = hop.tenantId)
          && decide (r.2.appId = hop.appId) && decide (r.2.chainId = hop.chainId)).map
        fun r => r.1.1).dedup
    else []
  | none => []

/-- The machine a hop's bytes go to, following a renamed machine; `none` when ambiguous or gone. -/
def resolveChainOwnerNode (db : Db) (hop : ChainHopMapping) (generationId : Int)
    (previous : Option UsageHead) : Option ChainHopMapping :=
  match ownerEvidence db hop generationId previous with
  | [] => if hop.nodeId ∈ db.nodes then some hop else none
  | [owner] => if owner ∈ db.nodes then some { hop with nodeId := owner } else none
  | _ => none

/-- The owner a counter is accounted to, with the generation and metadata it is booked under. -/
def resolveOwner (db : Db) (nodeId : String) (generation : UsageGeneration)
    (request : UsageReportRequest) (label : String) (bytes : Bytes) (previous : Option UsageHead) :
    Option (CounterOwner × Int × UsageMetadata) :=
  match (generation.bindings.get? label).bind (·.toCounterOwner label) with
  | some owner => some (owner, generation.id, generation.metadata)
  | none =>
    match previous with
    | some head =>
      if head.generationId < generation.id ∧ head.xrayEpoch = request.xrayEpoch
          ∧ head.readAtUnixSecs ≤ request.readAtUnixSecs
          ∧ head.bytes.1 ≤ bytes.1 ∧ head.bytes.2 ≤ bytes.2
          ∧ (head.bytes.1 < bytes.1 ∨ head.bytes.2 < bytes.2) then
        retiredChainOwner db nodeId label head.generationId
      else none
    | none => none

/-- Whether an unowned counter merely repeats what its head already accounts for. -/
def repeatsHead (previous : Option UsageHead) (request : UsageReportRequest) (bytes : Bytes) :
    Bool :=
  match previous with
  | some head =>
    decide (head.readAtUnixSecs ≤ request.readAtUnixSecs)
      && decide (request.xrayEpoch = head.xrayEpoch) && decide (bytes = head.bytes)
  | none => false

/-- Book the window of a head move. -/
def bookWindow (platform : Platform) (nodeId : String) (request : UsageReportRequest)
    (owner : CounterOwner) (metadata : UsageMetadata) (generationId : Int) (window : Window)
    (progress : Progress) : Except StoreError Progress :=
  if window.start < request.readAtUnixSecs then do
    let coverageStart := some (match progress.coverageStart with
      | some start => min start window.start
      | none => window.start)
    let (inserted, db) ← insertSample platform progress.db owner {
      nodeId, windowStartUnixSecs := window.start, windowEndUnixSecs := request.readAtUnixSecs
      bytes := window.bytes, hasGap := window.hasGap, metadata, generationId }
    if inserted then
      let nodeWindows ← addNodeWindow progress.nodeWindows nodeId owner window.bytes
      return { progress with
        db, nodeWindows, coverageStart
        insertedSamples := progress.insertedSamples + 1
        gapSamples := progress.gapSamples + if window.hasGap then 1 else 0 }
    else return { progress with db, coverageStart }
  else .ok progress

/-- Book a head move, which may have no window: a first reading can be a mere baseline. -/
def bookMove (platform : Platform) (nodeId : String) (request : UsageReportRequest)
    (owner : CounterOwner) (metadata : UsageMetadata) (generationId : Int)
    (window : Option Window) (progress : Progress) : Except StoreError Progress :=
  match window with
  | some window => bookWindow platform nodeId request owner metadata generationId window progress
  | none => .ok progress

/-- What a report says of one counter. -/
def UsageReportRequest.reading (request : UsageReportRequest) (generationId : Int)
    (bytes : Bytes) : UsageReading where
  generationId := generationId
  xrayEpoch := request.xrayEpoch
  readAtUnixSecs := request.readAtUnixSecs
  xrayStartedAtUnixSecs := request.xrayStartedAtUnixSecs
  bytes := bytes

/-- The head a reading leaves when it moves it. -/
def UsageReading.head (reading : UsageReading) (accountingGeneration : Int) : UsageHead where
  readAtUnixSecs := reading.readAtUnixSecs
  bytes := reading.bytes
  xrayEpoch := reading.xrayEpoch
  generationId := accountingGeneration

/-- Account one owned reading: note it, judge it, book its window, move its head. -/
def accountReading (platform : Platform) (nodeId : String) (generation : UsageGeneration)
    (request : UsageReportRequest) (label : String) (bytes : Bytes) (previous : Option UsageHead)
    (owner : CounterOwner) (accountingGeneration : Int) (metadata : UsageMetadata)
    (progress : Progress) : Except StoreError Progress :=
  let reading := request.reading generation.id bytes
  match progress.db.readings.insertNew?
      (nodeId, request.agentInstanceId, request.sequence, label) reading with
  | none => .error (.invalidData s!"duplicate usage reading for {label}")
  | some readings =>
    let progress := { progress with db := { progress.db with readings } }
    match judge previous (generation.firstReadingPolicy label) generation.activatedAtUnixSecs
      reading accountingGeneration with
    | .reject => .ok { progress with rejectedCounters := progress.rejectedCounters + 1 }
    | .keep => .ok progress
    | .advance window => do
        let progress ← bookMove platform nodeId request owner metadata accountingGeneration window
          progress
        let heads := progress.db.heads.put (nodeId, label) (reading.head accountingGeneration)
        return { progress with
          db := { progress.db with heads }
          acceptedReadings := progress.acceptedReadings + 1 }

/-- The end-to-end probe's own credential at an ingress. -/
def isProbeLabel (label : String) : Bool :=
  match Text.stripPrefix? "probe#" label with
  | some ingress => ingress ≠ ""
  | none => false

/-- One counter of a report. -/
def recordCounter (platform : Platform) (nodeId : String) (generation : UsageGeneration)
    (request : UsageReportRequest) (progress : Progress) (counter : UsageCounter) :
    Except StoreError Progress :=
  let label := Text.trim counter.label
  let bytes : Bytes := (counter.uplinkBytes, counter.downlinkBytes)
  let skipped := { progress with skippedCounters := progress.skippedCounters + 1 }
  if label = "" then .ok skipped
  else if inRange bytes = false then .ok skipped
  else if label ∈ progress.labels then
    .error (.invalidData s!"usage report contains duplicate counter label {label}")
  else
    let seen := { progress with labels := label :: progress.labels }
    if isProbeLabel label then .ok seen
    else
      let previous := progress.db.heads.get? (nodeId, label)
      match resolveOwner progress.db nodeId generation request label bytes previous with
      | none =>
        if (generation.bindings.get? label).isNone then
          .ok { seen with skippedCounters := seen.skippedCounters + 1 }
        else if repeatsHead previous request bytes then
          .ok { seen with skippedCounters := seen.skippedCounters + 1 }
        else .ok { seen with rejectedCounters := seen.rejectedCounters + 1 }
      | some (.user grant, accountingGeneration, metadata) =>
        accountReading platform nodeId generation request label bytes previous (.user grant)
          accountingGeneration metadata seen
      | some (.chainHop hop, accountingGeneration, metadata) =>
        match resolveChainOwnerNode progress.db hop accountingGeneration previous with
        | none => .ok { seen with rejectedCounters := seen.rejectedCounters + 1 }
        | some hop =>
          accountReading platform nodeId generation request label bytes previous (.chainHop hop)
            accountingGeneration metadata seen

/-! ### The report -/

def MAX_CLOCK_SKEW_SECS : Int := 600

/-- The checks a report passes before any state is read. -/
def checkRequest (serverNow : Int) (request : UsageReportRequest) : Except StoreError Unit :=
  if request.readAtUnixSecs ≤ 0 ∨ request.xrayStartedAtUnixSecs ≤ 0 then
    .error (.invalidData "usage report timestamps must be positive unix seconds")
  else if request.readAtUnixSecs < request.xrayStartedAtUnixSecs then
    .error (.invalidData "usage report read_at must not be before xray_started_at")
  else if 100000 < request.counters.length then
    .error (.invalidData "usage report contains too many counters")
  else if 64 < request.zeroWindows.length ∨ request.zeroWindows.any (fun window =>
      decide (window.startUnixMillis ≤ 0)
        || decide (window.endUnixMillis ≤ window.startUnixMillis)
        || decide (request.readAtUnixSecs < window.endUnixMillis.tdiv 1000)) then
    .error (.invalidData "invalid confirmed zero windows")
  else if Text.trim request.xrayEpoch = "" ∨ 128 < request.xrayEpoch.utf8ByteSize then
    .error (.invalidData "usage xray_epoch must contain 1..128 bytes")
  else if request.usageGenerationId ≤ 0 then
    .error (.invalidData "usage generation id must be positive")
  else if MAX_CLOCK_SKEW_SECS < request.readAtUnixSecs - serverNow then
    .error (.conflict
      s!"usage report is {request.readAtUnixSecs - serverNow}s in the future; check the node's clock")
  else .ok ()

/-- The report's idempotency key is well formed. -/
def reportIdentity (request : UsageReportRequest) : Except StoreError Unit :=
  if request.sequence = 0 ∨ request.agentInstanceId.utf8ByteSize ≠ 32
      ∨ request.agentInstanceId.toList.all (fun c =>
        ('0' ≤ c && c ≤ '9') || ('a' ≤ c && c ≤ 'f')) = false then
    .error (.invalidData
      "usage agent_instance_id must be 32 lowercase hex bytes and sequence must be positive")
  else if I64_MAX < request.sequence then .error (.invalidData "sequence is out of range")
  else .ok ()

/-- When the previous report of this agent installation was read. -/
def previousRead (db : Db) (nodeId agentInstanceId : String) : Option Int :=
  let rows := db.receipts.rows.filter fun r =>
    decide (r.1.1 = nodeId) && decide (r.1.2.1 = agentInstanceId)
  (rows.foldl (fun best r =>
    match best with
    | some (sequence, _) => if sequence < r.1.2.2 then some (r.1.2.2, r.2.readAtUnixSecs) else best
    | none => some (r.1.2.2, r.2.readAtUnixSecs)) (none : Option (ℕ × Int))).map Prod.snd

def sortCounters (counters : List UsageCounter) : List UsageCounter :=
  counters.insertionSort fun a b => a.label ≤ b.label

/-- The state a report starts counting in. -/
def Progress.start (db : Db) (nodeId : String) (request : UsageReportRequest) : Progress where
  db := db
  labels := []
  nodeWindows := .empty
  -- an empty response still proves that no user counter existed
  coverageStart :=
    if request.counters.isEmpty then
      some (max ((previousRead db nodeId request.agentInstanceId).getD
        request.xrayStartedAtUnixSecs) request.xrayStartedAtUnixSecs)
    else none
  acceptedReadings := 0
  insertedSamples := 0
  skippedCounters := 0
  rejectedCounters := 0
  gapSamples := 0

/-- A report that no receipt answers for: count it and leave its receipt. -/
def recordFresh (platform : Platform) (db : Db) (nodeId : String) (request : UsageReportRequest)
    (generation : UsageGeneration) : Except StoreError (UsageReportResult × Db) := do
  let progress ← (sortCounters request.counters).foldlM
    (recordCounter platform nodeId generation request) (.start db nodeId request)
  let nodeWindows ← persistNodeWindows request.readAtUnixSecs progress.nodeWindows.rows
    progress.db.nodeWindows
  let result : UsageReportResult := {
    nodeId, agentInstanceId := request.agentInstanceId, sequence := request.sequence
    usageGenerationId := generation.id, duplicate := false
    acceptedReadings := progress.acceptedReadings, insertedSamples := progress.insertedSamples
    skippedCounters := progress.skippedCounters, rejectedCounters := progress.rejectedCounters
    gapSamples := progress.gapSamples
    windowStartUnixSecs :=
      progress.coverageStart.filter fun start => decide (start < request.readAtUnixSecs)
    zeroWindows := request.zeroWindows }
  return (result, { progress.db with
    nodeWindows
    receipts := progress.db.receipts.put (nodeId, request.agentInstanceId, request.sequence) {
      payloadSha256 := platform.payloadSha256 request, generationId := generation.id
      readAtUnixSecs := request.readAtUnixSecs, result }
    cursors := progress.db.cursors.put (nodeId, request.agentInstanceId) request.sequence })

/-- **Record one usage report**, exactly once however often it is delivered. -/
def recordUsageReport (platform : Platform) (serverNow : Int) (db : Db) (nodeId : String)
    (request : UsageReportRequest) : Except StoreError (UsageReportResult × Db) := do
  checkRequest serverNow request
  reportIdentity request
  match db.receipts.get? (nodeId, request.agentInstanceId, request.sequence) with
  | some receipt =>
    if receipt.payloadSha256 ≠ platform.payloadSha256 request then
      .error (.invalidData
        s!"usage report sequence {request.sequence} was reused with different content")
    else return ({ receipt.result with duplicate := true }, db)
  | none =>
    match db.cursors.get? (nodeId, request.agentInstanceId) with
    | some last =>
      if request.sequence ≤ last then
        .error (.invalidData
          s!"usage report sequence {request.sequence} is behind committed sequence {last}")
      else recordGeneration
    | none => recordGeneration
where
  recordGeneration : Except StoreError (UsageReportResult × Db) :=
    match db.generations.get? (request.usageGenerationId, nodeId) with
    | none => .error (.invalidData
        s!"usage generation {request.usageGenerationId} does not belong to node {nodeId}")
    | some generation => recordFresh platform db nodeId request generation

end Brocade.Usage
