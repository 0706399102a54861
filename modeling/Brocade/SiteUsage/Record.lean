/-
What a node's reports of visited sites leave in the database.

A report carries cumulative counters by label and site.  What a counter gained since its head
is spread over the hours in between and added to the rows of the label's owner; then the head
moves.  The first report of an epoch is a baseline, and so is a new counter unless the report
continues its epoch and its generation, when the counter began at zero.
-/
import Brocade.Lib.Fallible
import Brocade.Lib.OrdMap
import Brocade.Lib.Table
import Brocade.SiteUsage.Hourly
import Mathlib.Algebra.Group.Prod

namespace Brocade.SiteUsage

def SITE_USAGE_VERSION : ℕ := 1

def MAX_SITE_USAGE_COUNTERS : ℕ := 8192

def I64_MAX : ℕ := 2 ^ 63 - 1

/-- The bytes of one site. -/
structure SiteUsageCounter where
  (label siteId : String)
  (uplinkBytes downlinkBytes : ℕ)

/-- An agent's report of sites. -/
structure SiteUsageReport where
  version : ℕ
  epoch : String
  activationId : Option ℤ
  limited : Bool
  counters : List SiteUsageCounter

/-- A label and a site. -/
abbrev CounterKey := String × String

def SiteUsageCounter.key (counter : SiteUsageCounter) : CounterKey :=
  (counter.label, counter.siteId)

def SiteUsageCounter.bytes (counter : SiteUsageCounter) : ℤ × ℤ :=
  (counter.uplinkBytes, counter.downlinkBytes)

def isHexDigit (c : Char) : Bool :=
  ('0' ≤ c && c ≤ '9') || ('a' ≤ c && c ≤ 'f') || ('A' ≤ c && c ≤ 'F')

/-- A counter that is not taken. -/
def SiteUsageCounter.invalid (catalog : List String) (counter : SiteUsageCounter) : Bool :=
  counter.label == "" || decide (496 < counter.label.utf8ByteSize)
    || !catalog.contains counter.siteId
    || decide (I64_MAX < counter.uplinkBytes) || decide (I64_MAX < counter.downlinkBytes)

/-- `catalog` is the ids of the known sites. -/
def validate (catalog : List String) (report : SiteUsageReport) : Except String Unit :=
  if report.version ≠ SITE_USAGE_VERSION ∨ report.epoch.utf8ByteSize ≠ 32
      ∨ report.epoch.toList.all isHexDigit = false
      ∨ MAX_SITE_USAGE_COUNTERS < report.counters.length
      ∨ report.activationId.any (fun id => decide (id ≤ 0)) = true then
    .error "unsupported or invalid site usage report"
  else if report.counters.any (·.invalid catalog) = true ∨ ¬(report.counters.map (·.key)).Nodup then
    .error "invalid or duplicate site usage counter"
  else .ok ()

/-! ### Tables -/

/-- The row of a node in `node_site_usage_state`. -/
structure SiteState where
  epoch : String
  (activationId generationId readAt baselineAt : ℤ)
  limited : Bool

/-- A row of `site_usage_counter_heads`. -/
structure Head where
  (readAt uplinkBytes downlinkBytes : ℤ)

def Head.bytes (head : Head) : ℤ × ℤ := (head.uplinkBytes, head.downlinkBytes)

/-- A bucket, a tenant, a user and a site. -/
abbrev HourKey := ℤ × String × String × String

/-- `user_site_usage_hourly`, and what is gathered for it. -/
abbrev HourlyTotals := Table HourKey (ℤ × ℤ)

abbrev Heads := Table CounterKey Head

/-- The rows of one node. -/
structure SiteDb where
  state : Option SiteState
  heads : Heads
  hourly : HourlyTotals

def SiteDb.empty : SiteDb := ⟨none, .empty, .empty⟩

def checkedAdd (a b : ℤ) (error : String) : Except String Unit :=
  match i64? (a + b) with
  | some _ => .ok ()
  | none => .error error

/-- A part of an hour gathered for its owner. -/
def addPart (tenant user site : String) (totals : HourlyTotals) (part : Part) :
    Except String HourlyTotals :=
  if part.up = 0 ∧ part.down = 0 then .ok totals
  else do
    let old := (totals.get? (part.bucket, tenant, user, site)).getD 0
    checkedAdd old.1 part.up "site uplink aggregation overflow"
    checkedAdd old.2 part.down "site downlink aggregation overflow"
    .ok (totals.upsert (part.bucket, tenant, user, site) fun row =>
      row.getD 0 + (part.up, part.down))

/-- A gathered row goes into the table, which checks its buckets and its width. -/
def insertHour (table : HourlyTotals) (row : HourKey × (ℤ × ℤ)) : Except String HourlyTotals := do
  if ¬(0 < row.1.1 ∧ row.1.1 % 3600 = 0) then .error "user_site_usage_hourly_bucket_check"
  else
    let old := (table.get? row.1).getD 0
    checkedAdd old.1 row.2.1 "bigint out of range"
    checkedAdd old.2 row.2.2 "bigint out of range"
    .ok (table.upsert row.1 fun there => there.getD 0 + row.2)

def flushHourly (totals table : HourlyTotals) : Except String HourlyTotals :=
  totals.rows.foldlM insertHour table

/-- What is gathered does not grow without bound. -/
def flushLong (totals table : HourlyTotals) : Except String (HourlyTotals × HourlyTotals) :=
  if 1024 ≤ totals.rows.length then (flushHourly totals table).map fun after => (.empty, after)
  else .ok (totals, table)

/-! ### A report -/

/-- The report goes on where the last one stopped. -/
def sameEpoch (db : SiteDb) (report : SiteUsageReport) : Bool :=
  db.state.any fun row =>
    decide (row.epoch = report.epoch) && decide (row.activationId = report.activationId.getD 0)

def sameGeneration (db : SiteDb) (generationId : ℤ) : Bool :=
  db.state.any fun row => decide (row.generationId = generationId)

/-- The heads that still count. -/
def resumed (db : SiteDb) (report : SiteUsageReport) : Heads :=
  if sameEpoch db report then db.heads else .empty

/-- Where a counter is counted from. -/
def origin (db : SiteDb) (generationId readAt : ℤ) (report : SiteUsageReport)
    (counter : SiteUsageCounter) : Head :=
  match (resumed db report).get? counter.key with
  | some head => head
  | none =>
    if sameEpoch db report && sameGeneration db generationId then
      ⟨(db.state.map (·.readAt)).getD readAt, 0, 0⟩
    else ⟨readAt, counter.uplinkBytes, counter.downlinkBytes⟩

/-- What is booked while a report is read. -/
structure Progress where
  (hourly table : HourlyTotals)
  kept : List (CounterKey × Head)
  limited : Bool

/-- One counter of a report, booked or passed over. -/
def recordCounter (owners : OrdMap String (String × String)) (db : SiteDb)
    (generationId readAt : ℤ) (report : SiteUsageReport) (progress : Progress)
    (counter : SiteUsageCounter) : Except String Progress :=
  match owners.get? counter.label with
  | none => .ok progress
  | some (tenant, user) =>
    let head := origin db generationId readAt report counter
    if counter.uplinkBytes < head.uplinkBytes ∨ counter.downlinkBytes < head.downlinkBytes then
      .ok { progress with limited := true }
    else
      match hourlyParts head.readAt readAt (counter.uplinkBytes - head.uplinkBytes)
        (counter.downlinkBytes - head.downlinkBytes) with
      | none => .error "overflow"
      | some parts => do
          let hourly ← parts.foldlM (addPart tenant user counter.siteId) progress.hourly
          let flushed ← flushLong hourly progress.table
          .ok
            { hourly := flushed.1
              table := flushed.2
              kept := progress.kept
                ++ [(counter.key, ⟨readAt, counter.uplinkBytes, counter.downlinkBytes⟩)]
              limited := progress.limited }

/-- A delayed report changes nothing. -/
def delayed (db : SiteDb) (readAt : ℤ) : Bool := db.state.any fun row => decide (readAt ≤ row.readAt)

def putAll (heads : Heads) (kept : List (CounterKey × Head)) : Heads :=
  kept.foldl (fun heads row => heads.put row.1 row.2) heads

/-- A transaction: an error leaves the database as it was. -/
def record (owners : OrdMap String (String × String)) (generationId readAt : ℤ)
    (report : SiteUsageReport) (db : SiteDb) : Except String SiteDb :=
  if delayed db readAt then .ok db
  else do
    let progress ← report.counters.foldlM (recordCounter owners db generationId readAt report)
      ⟨.empty, db.hourly, [], report.limited⟩
    let table ← flushHourly progress.hourly progress.table
    if readAt ≤ 0 then .error "node_site_usage_state_read_at_check"
    else
      .ok
        { state := some
            { epoch := report.epoch
              activationId := report.activationId.getD 0
              generationId
              readAt
              baselineAt :=
                if sameEpoch db report then (db.state.map (·.baselineAt)).getD readAt else readAt
              limited := progress.limited }
          heads := putAll (resumed db report) progress.kept
          hourly := table }

/-! ### Histories -/

/-- What the site ledger hears of. -/
inductive Event where
  | report (owners : OrdMap String (String × String)) (generationId readAt : ℤ)
      (report : SiteUsageReport)
  /-- a usage report without observations -/
  | missing (readAt : ℤ)

/-- What an event does. -/
def step (db : SiteDb) : Event → SiteDb
  | .report owners generationId readAt report =>
    match record owners generationId readAt report db with
    | .ok after => after
    | .error _ => db
  | .missing readAt => { db with state := db.state.filter fun row => decide (readAt < row.readAt) }

def history (events : List Event) : SiteDb := events.foldl step .empty

end Brocade.SiteUsage
