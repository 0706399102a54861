/-
Minute history of the load samples.

Samples of a machine are folded into at most one minute, within one bucket of the clock and one
boot, as long as their windows touch and none has a gap.  Events are totals and are added, what is
a snapshot stays that of the last sample, and what is measured over an interval is averaged; the
averages are floating-point numbers and any averaging will do.  A maintenance pass replaces the old
raw rows of a machine by their minutes.
-/
import Mathlib.Data.List.DropRight
import Mathlib.Data.List.Sort
import Mathlib.Algebra.GroupWithZero.Nat
import Brocade.Lib.Fallible
import Brocade.Lib.Groups

namespace Brocade.Load

open Groups

def MINUTE : ℤ := 60

def I64_MAX : ℕ := 2 ^ 63 - 1

/-- The events every sample counts. -/
inductive Event where
  | oomKills
  | nicRxDrop
  | nicTxDrop
  | nicErr

def Event.all : List Event := [.oomKills, .nicRxDrop, .nicTxDrop, .nicErr]

/-- The totals of memory. -/
inductive MemoryEvent where
  | swapInBytes
  | swapOutBytes
  | majorFaults
  | directReclaimPages

def MemoryEvent.all : List MemoryEvent :=
  [.swapInBytes, .swapOutBytes, .majorFaults, .directReclaimPages]

/-- The totals of the network. -/
inductive NetworkEvent where
  | tcpActiveOpens
  | tcpPassiveOpens
  | tcpAttemptFails
  | tcpEstabResets
  | tcpRetransSegs
  | tcpSynRetrans
  | tcpInErrors
  | tcpOutResets
  | tcpTimeouts
  | tcpListenOverflows
  | tcpListenDrops
  | udpInErrors
  | udpNoPorts
  | udpRcvbufErrors
  | udpSndbufErrors

/-- All counters of the network. -/
def NetworkEvent.all : List NetworkEvent :=
  [.tcpActiveOpens, .tcpPassiveOpens, .tcpAttemptFails, .tcpEstabResets, .tcpRetransSegs,
    .tcpSynRetrans, .tcpInErrors, .tcpOutResets, .tcpTimeouts, .tcpListenOverflows,
    .tcpListenDrops, .udpInErrors, .udpNoPorts, .udpRcvbufErrors, .udpSndbufErrors]

/-- What is averaged in each part of a sample, and the readings at the end of the window that the
part carries along. -/
structure Kinds where
  (Averages CpuAverages MemoryAverages DiskAverages Snapshot CpuSnapshot MemorySnapshot : Type)
  (DiskSnapshot NetworkSnapshot : Type)

variable {K : Kinds}

/-- What a sample says of the processor. -/
structure CpuDetailSample (K : Kinds) where
  averages : K.CpuAverages
  snapshot : K.CpuSnapshot
  throttledUsec : Option ℕ

/-- What a sample says of memory. -/
structure MemoryDetailSample (K : Kinds) where
  averages : K.MemoryAverages
  snapshot : K.MemorySnapshot
  availableMinBytes : ℕ
  events : MemoryEvent → ℕ

/-- What a sample says of disks. -/
structure DiskDetailSample (K : Kinds) where
  averages : K.DiskAverages
  snapshot : K.DiskSnapshot

/-- What a sample says of the network. -/
structure NetworkDetailSample (K : Kinds) where
  snapshot : K.NetworkSnapshot
  events : NetworkEvent → Option ℕ

/-- One sample of a machine's load. -/
structure LoadSample (K : Kinds) where
  (windowStartUnixSecs windowEndUnixSecs : ℤ)
  hasGap : Bool
  averages : K.Averages
  snapshot : K.Snapshot
  events : Event → ℕ
  cpuDetail : Option (CpuDetailSample K)
  memoryDetail : Option (MemoryDetailSample K)
  diskDetail : Option (DiskDetailSample K)
  networkDetail : Option (NetworkDetailSample K)

/-- A sample and the boot it is of. -/
structure TimedSample (K : Kinds) where
  btime : ℤ
  sample : LoadSample K

/-- The averages of a group of samples, weighted by their windows. -/
structure Averaging (K : Kinds) where
  row : List (TimedSample K) → K.Averages
  cpu : List (TimedSample K) → K.CpuAverages
  memory : List (TimedSample K) → K.MemoryAverages
  disk : List (TimedSample K) → K.DiskAverages

/-! ### Merging -/

def exceedsRange : String := "load rollup counter exceeds storage range"

/-- One step of a total: added in 64 bits and kept within what the column stores. -/
def addChecked (total value : ℕ) : Except String ℕ :=
  if total + value < 2 ^ 64 ∧ total + value ≤ I64_MAX then .ok (total + value)
  else .error exceedsRange

def sum (values : List ℕ) : Except String ℕ := values.foldlM addChecked 0

/-- Known where every value is. -/
def optionalSum (values : List (Option ℕ)) : Except String (Option ℕ) :=
  if values.all Option.isSome then (sum (values.filterMap id)).map some else .ok none

/-- The values for every counter of a family; one that fails fails them all. -/
def forEach {ι α : Type} (all : List ι) (f : ι → Except String α) (blank : α) :
    Except String (ι → α) :=
  match all.mapM f with
  | .error e => .error e
  | .ok _ => .ok fun i => match f i with
    | .error _ => blank
    | .ok a => a

/-- Several say this of the processor. -/
def mergeCpu (avg : Averaging K) (samples : List (TimedSample K)) (last : CpuDetailSample K) :
    Except String (CpuDetailSample K) := do
  let throttled ← optionalSum (samples.map fun s => s.sample.cpuDetail.bind (·.throttledUsec))
  .ok { last with averages := avg.cpu samples, throttledUsec := throttled }

/-- Several say this of memory. -/
def mergeMemory (avg : Averaging K) (samples : List (TimedSample K))
    (last : MemoryDetailSample K) : Except String (MemoryDetailSample K) := do
  let details := samples.filterMap fun s => s.sample.memoryDetail
  let events ← forEach MemoryEvent.all (fun c => sum (details.map fun d => d.events c)) 0
  .ok { last with
    averages := avg.memory samples
    availableMinBytes := (details.map fun d => d.availableMinBytes).foldl min last.availableMinBytes
    events := events }

/-- Several say this of the network. -/
def mergeNetwork (samples : List (TimedSample K)) (last : NetworkDetailSample K) :
    Except String (NetworkDetailSample K) := do
  let events ← forEach NetworkEvent.all
    (fun c => optionalSum (samples.map fun s => s.sample.networkDetail.bind fun d => d.events c)) none
  .ok { last with events := events }

/-- A detail stays only where every sample has it. -/
def complete {α : Type} (samples : List (TimedSample K)) (detail : LoadSample K → Option α)
    (last : LoadSample K) : Option α :=
  if samples.any fun s => (detail s.sample).isNone then none else detail last

/-- Merge a detail that stayed. -/
def mergeDetail {α : Type} (f : α → Except String α) : Option α → Except String (Option α)
  | none => .ok none
  | some detail => (f detail).map some

/-- `none` is the panic of an empty group. -/
def merge (avg : Averaging K) (samples : List (TimedSample K)) :
    Option (Except String (TimedSample K)) :=
  match samples with
  | [] => none
  | [only] => some (.ok only)
  | first :: _ :: _ => samples.getLast?.map fun last => do
      let events ← forEach Event.all (fun c => sum (samples.map fun s => s.sample.events c)) 0
      let cpu ← mergeDetail (mergeCpu avg samples) (complete samples (·.cpuDetail) last.sample)
      let memory ← mergeDetail (mergeMemory avg samples)
        (complete samples (·.memoryDetail) last.sample)
      let network ← mergeDetail (mergeNetwork samples)
        (complete samples (·.networkDetail) last.sample)
      .ok { btime := last.btime, sample := { last.sample with
        windowStartUnixSecs := first.sample.windowStartUnixSecs
        averages := avg.row samples
        events := events
        cpuDetail := cpu
        memoryDetail := memory
        diskDetail := (complete samples (·.diskDetail) last.sample).map fun d =>
          { d with averages := avg.disk samples }
        networkDetail := network } }

/-! ### Aggregating -/

/-- The end of the minute that a window ends in. -/
def bucketEnd (sample : LoadSample K) : ℤ :=
  (sample.windowEndUnixSecs - 1) / MINUTE * MINUTE + MINUTE

/-- Whether a sample continues the group: same boot, same bucket, no gap, touching, one minute. -/
def continues (group : List (TimedSample K)) (sample : TimedSample K) : Bool :=
  match group.head?, group.getLast? with
  | some first, some previous =>
    previous.btime == sample.btime && bucketEnd previous.sample == bucketEnd sample.sample
      && !previous.sample.hasGap
      && !sample.sample.hasGap
      && previous.sample.windowEndUnixSecs == sample.sample.windowStartUnixSecs
      && decide (sample.sample.windowEndUnixSecs - first.sample.windowStartUnixSecs ≤ MINUTE)
  | _, _ => false

/-- The panic of an empty group reads as an error of its own; no group is ever empty. -/
def merged (avg : Averaging K) (group : List (TimedSample K)) : Except String (TimedSample K) :=
  (merge avg group).getD (.error "nonempty aggregation group")

/-- Samples are folded one by one. -/
def aggregateLoop (avg : Averaging K) : List (TimedSample K) → List (TimedSample K) →
    List (TimedSample K) → Except String (List (TimedSample K))
  | result, group, [] =>
    if group.isEmpty then .ok result
    else do
      let row ← merged avg group
      .ok (result ++ [row])
  | result, group, sample :: samples =>
    if continues group sample then aggregateLoop avg result (group ++ [sample]) samples
    else if group.isEmpty then aggregateLoop avg result [sample] samples
    else do
      let row ← merged avg group
      aggregateLoop avg (result ++ [row]) [sample] samples

/-- The minutes of samples. -/
def aggregate (avg : Averaging K) (samples : List (TimedSample K)) :
    Except String (List (TimedSample K)) :=
  aggregateLoop avg [] [] samples

end Brocade.Load
