/-
The agent's side of a traffic limit.

The control plane hands the agent one anchor: a reading it accepted, with what the billing
period already held there.  From then on the agent reckons alone, from the anchor's counters
as long as the anchor's period lasts, and from the meter's own boundary at the reset once it
does not.
-/
import Brocade.Traffic.Period
import Brocade.Traffic.Record

namespace Brocade.Traffic

/-- Which direction is billed. -/
inductive NodeTrafficAccountingMode where
  | bidirectionalSum
  | bidirectionalMax
  | outboundOnly
  | inboundOnly
deriving DecidableEq

def U64_MAX : ℕ := 2 ^ 64 - 1

/-- What a mode counts of two directions, with the sum held at the largest `u64`. -/
def NodeTrafficAccountingMode.apply (mode : NodeTrafficAccountingMode) (bytes : Bytes) : ℕ :=
  match mode with
  | .bidirectionalSum => min (bytes.1 + bytes.2) U64_MAX
  | .bidirectionalMax => max bytes.1 bytes.2
  | .outboundOnly => bytes.2
  | .inboundOnly => bytes.1

/-- What a limit counts from. -/
structure TrafficLimitAnchor where
  meterId : String
  sequence : ℕ
  (sampledAtUnixSecs periodStartUnixSecs : ℤ)
  meterBytes : Bytes
  /-- directional amounts since the period start, or since the active calibration -/
  bytes : Bytes
  calibratedTotalBytes : ℕ
deriving DecidableEq

/-- The limit an agent is told. -/
structure TrafficLimitDesired where
  cycle : TrafficCycle
  accountingMode : NodeTrafficAccountingMode
  anchor : Option TrafficLimitAnchor
deriving DecidableEq

/-! ### Used traffic -/

/-- A `u64` sum. -/
def checkedAdd (a b : ℕ) : Option ℕ := if a + b ≤ U64_MAX then some (a + b) else none

def checkedSub (a b : ℕ) : Option ℕ := if b ≤ a then some (a - b) else none

/-- Where the reckoning starts: directional bytes at that point, the meter there, and the
calibrated total before it. -/
def reckonFrom (anchor : TrafficLimitAnchor) (reading : NodeTrafficReading) (period : ℤ) :
    Except String (Bytes × Bytes × ℕ) :=
  if anchor.periodStartUnixSecs = period ∧ period ≤ anchor.sampledAtUnixSecs then
    .ok (anchor.bytes, anchor.meterBytes, anchor.calibratedTotalBytes)
  else
    match reading.dayBoundaries.find? fun boundary => boundary.dayStartUnixSecs = period with
    | none => .error "缺少本账期重置边界，保持已有上限并等待计量同步"
    | some boundary =>
      .ok ((0, 0), boundary.bytes,
        if anchor.periodStartUnixSecs = period then anchor.calibratedTotalBytes else 0)

/-- The period's traffic as the agent reckons it, and when the period began. -/
def usedBytes (desired : TrafficLimitDesired) (reading : NodeTrafficReading) (now : ℤ) :
    Except String (ℕ × ℤ) :=
  let period := (desired.cycle.period now).1
  match desired.anchor with
  | none => .error "等待控制面确认流量计量基线"
  | some anchor =>
    if anchor.meterId ≠ reading.meterId ∨ reading.sequence < anchor.sequence then
      .error "流量计量基线已变化，等待重新同步"
    else
      match reckonFrom anchor reading period with
      | .error e => .error e
      | .ok (base, meter, calibrated) =>
        match (checkedSub reading.rxBytes meter.1).bind (checkedAdd base.1) with
        | none => .error "接收计数倒退或溢出"
        | some rx =>
          match (checkedSub reading.txBytes meter.2).bind (checkedAdd base.2) with
          | none => .error "发送计数倒退或溢出"
          | some tx =>
            match checkedAdd calibrated (desired.accountingMode.apply (rx, tx)) with
            | none => .error "账期总量溢出"
            | some used => .ok (used, period)

end Brocade.Traffic
