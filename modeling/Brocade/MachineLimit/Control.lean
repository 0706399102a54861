/-
The file of the machine's cap, as the Agent writes it.

The Agent keeps the cap in memory and in a private file beside it, which the generations of Xray
read.  A change goes to the file first.  A file can be missing, damaged or unreadable at any
time; what an Agent that starts makes of it depends on whether it has a policy to go by.
-/
import Brocade.Lib.Faulty
import Brocade.MachineLimit.Budget

namespace Brocade.MachineLimit

open Faulty

/-! ### Files -/

/-- A file, by what reading it gives. -/
inductive File (β : Type) where
  | missing
  /-- not a regular file, oversized, or not to be read -/
  | unreadable (error : String)
  | holds (bytes : β)
deriving DecidableEq

/-- What reading the file gives. -/
def File.read {β : Type} : File β → Except String (Option β)
  | .missing => .ok none
  | .unreadable error => .error error
  | .holds bytes => .ok (some bytes)

/-- Who enforces a limit. -/
inductive TrafficLimitLayer where
  | system
  | application
  | both

def TrafficLimitLayer.coversApplication : TrafficLimitLayer → Bool
  | .application | .both => true
  | .system => false

/-- What the desired policy says of caps. -/
structure DesiredPolicy where
  enabled : Bool
  layer : TrafficLimitLayer

/-- The text of the files and its readers, the Agent's and Xray's. -/
structure Codec (β : Type) where
  encode : ApplicationControl → β
  (control config : β → Option ApplicationControl)
  desired : β → Option DesiredPolicy
  control_encode : ∀ control', control (encode control') = some control'
  config_encode : ∀ control', config (encode control') = some control'

def MAX_TRAFFIC_RATE_BPS : ℕ := 1000000000000

def isTokenChar (c : Char) : Bool := ('0' ≤ c && c ≤ '9') || ('a' ≤ c && c ≤ 'f')

/-- Whether a control can be used. -/
def validControl (control : ApplicationControl) : Bool :=
  decide (control.token.length = 32) && control.token.toList.all isTokenChar
    && decide (control.rateBps ≤ MAX_TRAFFIC_RATE_BPS)
    && (decide (control.rateBps = 0) || decide (1000 ≤ control.rateBps))
    && (control.enabled || decide (control.rateBps = 0))

/-- The control lets bytes pass without the budget. -/
def inactive (control : ApplicationControl) : Bool := !control.enabled || control.rateBps == 0

/-- What is left behind by an Agent. -/
structure Durable (β : Type) where
  (control desired : File β)

variable {β : Type}

/-- A new Xray needs the budget unless the files prove that no cap was active. -/
def requiredAtStart (codec : Codec β) (dir : Durable β) : Bool :=
  match dir.control.read with
  | .ok (some bytes) =>
    match codec.control bytes with
    | some control => !validControl control || !inactive control
    | none => true
  | .ok none =>
    match dir.desired.read with
    | .ok (some bytes) =>
      match codec.desired bytes with
      | some desired => desired.enabled && desired.layer.coversApplication
      | none => true
    | .ok none => false
    | .error _ => true
  | .error _ => true

/-! ### The Agent -/

/-- The cap in memory: what it was set to, and what connections are served at. -/
structure Budget where
  control : ApplicationControl
  rate : ℕ

/-- The Agent and its files. -/
structure Agent (β : Type) where
  dir : Durable β
  budget : Option Budget

abbrev Work (β α : Type) : Type := Act (Agent β) String α

/-- The control goes to disk. -/
def writeFile (fault : Fault String) (bytes : β) : Work β Unit :=
  .perform fault fun agent =>
    { agent with
      dir := { agent.dir with control := .holds bytes } }

def setBudget (budget : Budget) : Work β Unit :=
  .modify fun agent => { agent with budget := some budget }

/-- What the platform gives a budget that starts. -/
structure Platform where
  /-- the address it could listen on, the former one if that was free -/
  (endpoint entropy : Except String String)
  /-- the thread that serves it -/
  worker : Except String Unit

def lift (x : Except String α) : Work β α :=
  match x with
  | .ok a => pure a
  | .error error => .fail error

/-- The control that was on disk, if it may be gone by. -/
def previousControl (codec : Codec β) (file : File β) (hasPolicy : Bool) :
    Except String (Option ApplicationControl) :=
  match file.read with
  | .ok (some bytes) =>
    match (codec.control bytes).filter validControl with
    | some control => .ok (some control)
    | none => if hasPolicy then .ok none else .error "无效应用层限速检查点"
  | .ok none => .ok none
  | .error error => if hasPolicy then .ok none else .error s!"读取应用层限速检查点失败：{error}"

/-- The first control of a budget: by the policy if there is one, else what was on disk. -/
def initialControl (previous : Option ApplicationControl) (policy : Option (Bool × Option ℕ))
    (endpoint entropy : String) : ApplicationControl where
  enabled := match policy with
    | some policy => policy.1
    | none => previous.any (·.enabled)
  rateBps := match policy with
    | some policy => requestedRate policy.1 policy.2
    | none => (previous.map (·.rateBps)).getD 0
  progress := true
  endpoint := endpoint
  token := (previous.map (·.token)).getD entropy

/-- The agent takes over a policy. -/
def initializeWithPolicy (codec : Codec β) (platform : Platform) (fault : Fault String)
    (policy : Option (Bool × Option ℕ)) : Work β Unit := do
  let agent ← .get
  if agent.budget.isSome then pure ()
  else do
    let previous ← lift (previousControl codec agent.dir.control policy.isSome)
    if previous.isNone && policy.isNone && requiredAtStart codec agent.dir then
      .fail "应用层历史上限未知，等待有效策略与计量重新计算"
    else do
      let endpoint ← lift platform.endpoint
      let entropy ← lift platform.entropy
      let control := initialControl previous policy endpoint entropy
      writeFile fault (codec.encode control)
      lift platform.worker
      setBudget { control, rate := control.rateBps }

/-- A change of the cap, the file before the memory.  The same cap again repairs the file. -/
def configureBudget [DecidableEq β] (codec : Codec β) (fault : Fault String) (budget : Budget)
    (enabled : Bool) (rate : Option ℕ) : Work β Unit := do
  let wanted := wantedControl budget.control enabled rate
  if budget.control.enabled = enabled ∧ budget.control.rateBps = requestedRate enabled rate then do
    let agent ← .get
    if agent.dir.control = .holds (codec.encode budget.control) then pure ()
    else writeFile fault (codec.encode budget.control)
  else do
    writeFile fault (codec.encode wanted)
    setBudget { control := wanted, rate := requestedRate enabled rate }

/-- The cap changes. -/
def configure [DecidableEq β] (codec : Codec β) (fault : Fault String) (enabled : Bool)
    (rate : Option ℕ) : Work β Unit := do
  let agent ← .get
  match agent.budget with
  | none => .fail "应用层限速预算尚未启动"
  | some budget => configureBudget codec fault budget enabled rate

/-- `first` is what the write of a new budget meets, `second` that of the change after it. -/
def ensureConfigured [DecidableEq β] (codec : Codec β) (platform : Platform)
    (first second : Fault String) (enabled : Bool) (rate : Option ℕ) : Work β Unit := do
  let agent ← .get
  if agent.budget.isNone then
    if !enabled && !requiredAtStart codec agent.dir then pure ()
    else do
      initializeWithPolicy codec platform first (some (enabled, rate))
      configure codec second enabled rate
  else configure codec second enabled rate

end Brocade.MachineLimit
