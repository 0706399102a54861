/-
Recording one absolute reading of a machine's traffic meter.

An agent reads a meter that only counts up; the control plane turns the difference between
two readings into bytes of calendar days.  Two records are kept of the same bytes: the
scalar totals of the meter's state, and one row a UTC day.  A reading carries the meter's
counters at the midnights since it was last heard, and where it carries all of them the
difference is split there; elsewhere it goes to the day of the reading as a whole.

A transaction that fails leaves everything as it was.
-/
import Mathlib.Algebra.Group.Prod
import Mathlib.Algebra.Order.Sub.Prod
import Mathlib.Algebra.GroupWithZero.Nat
import Brocade.Lib.Fallible
import Brocade.Lib.Table
import Brocade.Lib.Text

namespace Brocade.Traffic

/-- Received and sent. -/
abbrev Bytes := ℕ × ℕ

/-! ### Readings -/

/-- The meter's counters at the beginning of a UTC day. -/
structure TrafficDayBoundary where
  dayStartUnixSecs : ℤ
  (rxBytes txBytes : ℕ)
deriving DecidableEq

def TrafficDayBoundary.bytes (boundary : TrafficDayBoundary) : Bytes :=
  (boundary.rxBytes, boundary.txBytes)

/-- One durable reading of the machine's default-route interface. -/
structure NodeTrafficReading where
  meterId : String
  sequence : ℕ
  (interface bootId : String)
  (rxBytes txBytes discontinuities : ℕ)
  sampledAtUnixSecs : Option ℤ
  dayBoundaries : List TrafficDayBoundary
deriving DecidableEq

def NodeTrafficReading.bytes (reading : NodeTrafficReading) : Bytes :=
  (reading.rxBytes, reading.txBytes)

/-- Why a reading is refused. -/
inductive StoreError where
  | invalidData (message : String)
  /-- the database refused a statement -/
  | database

/-- Boundaries in order, given the one before them. -/
def dayBoundariesOk (sampledAt : Option ℤ) (bytes : Bytes) :
    Option TrafficDayBoundary → List TrafficDayBoundary → Bool
  | _, [] => true
  | previous, boundary :: rest =>
    !(decide (boundary.dayStartUnixSecs ≤ 0)
      || decide (boundary.dayStartUnixSecs % 86400 ≠ 0)
      || sampledAt.all (fun at' => decide (at' < boundary.dayStartUnixSecs))
      || decide (bytes.1 < boundary.rxBytes)
      || decide (bytes.2 < boundary.txBytes)
      || previous.any fun old =>
      decide (boundary.dayStartUnixSecs ≤ old.dayStartUnixSecs)
        || decide (boundary.rxBytes < old.rxBytes) || decide (boundary.txBytes < old.txBytes))
      && dayBoundariesOk sampledAt bytes (some boundary) rest

/-- Boundaries in order. -/
def validateDayBoundaries (boundaries : List TrafficDayBoundary) (sampledAt : Option ℤ)
    (bytes : Bytes) : Except String Unit :=
  if 400 < boundaries.length then .error "too many traffic day boundaries"
  else if dayBoundariesOk sampledAt bytes none boundaries then .ok ()
  else .error "invalid traffic day boundary"

def isHexDigit (c : Char) : Bool := c.isDigit || ('a' ≤ c && c ≤ 'f') || ('A' ≤ c && c ≤ 'F')

def validMeterId (value : String) : Bool :=
  value.toList.length = 32 && value.toList.all fun c => isHexDigit c && !('A' ≤ c && c ≤ 'Z')

/-- The four hyphens of a boot id are where they belong. -/
def bootIdChar (index : ℕ) (c : Char) : Bool :=
  if index = 8 ∨ index = 13 ∨ index = 18 ∨ index = 23 then c == '-' else isHexDigit c

def validBootId (value : String) : Bool :=
  value.toList.length = 36 && value.toList.zipIdx.all fun c => bootIdChar c.2 c.1

/-- An interface's name. -/
def validInterface (value : String) : Bool :=
  value ≠ "" && value.utf8ByteSize ≤ 64 && Text.trim value = value && !Text.contains value "/"
    && value ≠ "." && value ≠ ".."

/-- Whether a reading is taken. -/
def validateReading (reading : NodeTrafficReading) : Except StoreError Unit :=
  match validateDayBoundaries reading.dayBoundaries reading.sampledAtUnixSecs reading.bytes with
  | .error message => .error (.invalidData message)
  | .ok _ =>
    if !validMeterId reading.meterId then
      .error (.invalidData "traffic meter id has an invalid shape")
    else if reading.sequence = 0 then
      .error (.invalidData "traffic sequence must be positive")
    else if !validInterface reading.interface || !validBootId reading.bootId then
      .error (.invalidData "traffic interface or boot id has an invalid shape")
    else .ok ()

/-! ### The rows of one machine -/

/-- Why a reading could not simply extend the ledger. -/
inductive GapReason where
  | meterReplaced
  | machineReboot
  | interfaceChanged
  | counterRegressed
  | agentDiscontinuity
  | reportGap

/-- What is known of a machine's meter. -/
structure NodeTrafficState where
  meterId : String
  sequence : ℕ
  (interface bootId : String)
  (agentBytes accountedBytes : Bytes)
  discontinuities : ℕ
  (trackingStartedAt lastReportedAt : ℤ)
deriving DecidableEq

/-- What the database holds of one machine's traffic; a daily row is keyed by its UTC date,
counted in days since the epoch. -/
structure NodeTraffic where
  state : Option NodeTrafficState
  daily : Table ℤ Bytes
  gaps : List (ℤ × GapReason)

def NodeTraffic.empty : NodeTraffic := ⟨none, .empty, []⟩

/-! ### The transaction -/

/-- The first second of the UTC day. -/
def dayOf (at' : ℤ) : ℤ := at' / 86400 * 86400

/-- What the counters grew since the last reading, and why that may not be all. -/
def counterDelta (previous : Option NodeTrafficState) (reading : NodeTrafficReading) :
    Bytes × Option GapReason :=
  match previous with
  | none => ((0, 0), if 0 < reading.discontinuities then some .agentDiscontinuity else none)
  | some old =>
    if old.meterId ≠ reading.meterId then ((0, 0), some .meterReplaced)
    else
      ((reading.rxBytes - old.agentBytes.1, reading.txBytes - old.agentBytes.2),
        if reading.rxBytes < old.agentBytes.1 ∨ reading.txBytes < old.agentBytes.2 then
          some .counterRegressed
        else if old.bootId ≠ reading.bootId then some .machineReboot
        else if old.interface ≠ reading.interface then some .interfaceChanged
        else if reading.discontinuities ≠ old.discontinuities then some .agentDiscontinuity
        else none)

/-- The boundaries since the last reading that lie above its counters. -/
def newBoundaries (old : NodeTrafficState) (reading : NodeTrafficReading) (at' : ℤ) :
    List TrafficDayBoundary :=
  reading.dayBoundaries.filter fun boundary =>
    decide (dayOf old.lastReportedAt < boundary.dayStartUnixSecs)
      && decide (boundary.dayStartUnixSecs ≤ dayOf at')
      && decide (old.agentBytes.1 ≤ boundary.rxBytes)
      && decide (old.agentBytes.2 ≤ boundary.txBytes)

/-- From boundary to boundary: what each day between them received. -/
def splitAt (day : ℤ) (bytes : Bytes) :
    ℤ → Bytes → List TrafficDayBoundary → List (ℤ × Bytes)
  | _, last, [] => [(day, (bytes.1 - last.1, bytes.2 - last.2))]
  | cursor, last, boundary :: rest =>
    (cursor, (boundary.rxBytes - last.1, boundary.txBytes - last.2))
      :: splitAt day bytes boundary.dayStartUnixSecs boundary.bytes rest

/-- Split only newly accepted bytes at the agent's boundaries; also whether they were
complete. -/
def splitDailyDeltas (previous : Option NodeTrafficState) (reading : NodeTrafficReading) (at' : ℤ)
    (delta : Bytes) : List (ℤ × Bytes) × Bool :=
  match previous.filter fun old => old.meterId = reading.meterId with
  | none => ([(dayOf at', delta)], false)
  | some old =>
    let boundaries := newBoundaries old reading at'
    if (boundaries.length : ℤ) = (dayOf at' - dayOf old.lastReportedAt) / 86400 then
      (splitAt (dayOf at') reading.bytes (dayOf old.lastReportedAt) old.agentBytes boundaries, true)
    else ([(dayOf at', delta)], false)

def crossesUnobservedUtcDay (previous current : ℤ) : Bool :=
  120 < current - previous && current / 86400 ≠ previous / 86400

/-- Older than the last reading, or of its meter and not newer than it. -/
def isStale (previous : Option NodeTrafficState) (reading : NodeTrafficReading) (at' : ℤ) : Bool :=
  previous.any fun old =>
    decide (at' < old.lastReportedAt)
      || (old.meterId = reading.meterId && decide (reading.sequence ≤ old.sequence))

/-- The end of the database's timestamps, in seconds since the epoch. -/
def timestampEnd : ℤ := 9224318016000

/-- A value of `NUMERIC(20,0)`. -/
def numeric20 (bytes : Bytes) : Bool := bytes.1 < 10 ^ 20 && bytes.2 < 10 ^ 20

/-- Add to the row of a day, unless nothing is added. -/
def addDay (daily : Table ℤ Bytes) (entry : ℤ × Bytes) : Except StoreError (Table ℤ Bytes) :=
  if entry.2 = (0, 0) then .ok daily
  else
    let date := entry.1 / 86400
    let bytes := ((daily.get? date).map (· + entry.2)).getD entry.2
    if numeric20 bytes then .ok (daily.upsert date fun row => (row.map (· + entry.2)).getD entry.2)
    else .error .database

/-- The meter's row after a reading that is not stale. -/
def nextState (previous : Option NodeTrafficState) (reading : NodeTrafficReading) (at' : ℤ)
    (delta : Bytes) : NodeTrafficState where
  meterId := reading.meterId
  sequence := reading.sequence
  interface := reading.interface
  bootId := reading.bootId
  agentBytes := reading.bytes
  accountedBytes := match previous with
    | none => (0, 0)
    | some old => old.accountedBytes + delta
  discontinuities := reading.discontinuities
  trackingStartedAt := match previous with
    | none => at'
    | some old => old.trackingStartedAt
  lastReportedAt := at'

/-- Write a reading that is not stale. -/
def applyReading (rows : NodeTraffic) (reading : NodeTrafficReading) (at' : ℤ) :
    Except StoreError NodeTraffic :=
  let delta := counterDelta rows.state reading
  let split := splitDailyDeltas rows.state reading at' delta.1
  let gap := delta.2.orElse fun _ =>
    if !split.2 && rows.state.any fun old => crossesUnobservedUtcDay old.lastReportedAt at' then
      some .reportGap
    else none
  let state := nextState rows.state reading at' delta.1
  if timestampEnd ≤ at' then .error .database
  else if !numeric20 state.accountedBytes then .error .database
  else
    match split.1.foldlM addDay rows.daily with
    | .error e => .error e
    | .ok daily =>
      .ok {
        state := some state
        daily := daily
        gaps := rows.gaps ++ (gap.map fun reason => (at', reason)).toList }

/-- When a reading was taken: as it says, or when it arrived. -/
def sampledAt (observedAt : ℤ) (reading : NodeTrafficReading) : ℤ :=
  reading.sampledAtUnixSecs.getD observedAt

/-- Accept one absolute agent meter reading. -/
def recordReading (rows : NodeTraffic) (observedAt : ℤ) (reading : NodeTrafficReading) :
    Except StoreError NodeTraffic :=
  match validateReading reading with
  | .error e => .error e
  | .ok _ =>
    let at' := sampledAt observedAt reading
    if at' ≤ 0 ∨ observedAt + 300 < at' then
      .error (.invalidData "invalid traffic sample timestamp")
    else if isStale rows.state reading at' then .ok rows
    else applyReading rows reading at'

/-- The traffic tables: every statement names one machine. -/
structure Db where
  nodes : List String
  traffic : String → NodeTraffic

/-- A reading arrives. -/
def recordNodeTraffic (db : Db) (nodeId : String) (observedAt : ℤ) (reading : NodeTrafficReading) :
    Except StoreError Db :=
  match recordReading (db.traffic nodeId) observedAt reading with
  | .error e => .error e
  | .ok rows =>
    -- the first row of a machine that does not exist breaks the foreign key
    if nodeId ∈ db.nodes ∨ rows.state = none then
      .ok { db with traffic := Function.update db.traffic nodeId rows }
    else .error .database

end Brocade.Traffic
