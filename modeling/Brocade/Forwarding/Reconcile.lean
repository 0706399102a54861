/-
How the Agent brings the forwarding listeners of the running Xray to the desired rules.

The listeners of Xray are gone when it restarts, and Xray does not say what a listener forwards to.
What the Agent knows of them is its checkpoint: the definitions it has proof of, and the rules it
was about to install.  A round reads both sides, revokes, replaces and adds, and writes the
checkpoint before and after every change.

Every operation on Xray or on the file can fail, with or without effect, and the Agent can be
cut off at any of them.  Where in a round an operation stands is its `Site`; a round meets each
site at most once, so one fault for every site is any pattern of faults.
-/
import Brocade.Forwarding.Rule
import Brocade.Lib.Faulty
import Brocade.Lib.OrdMap

namespace Brocade.Forwarding

open Faulty

def FORWARD_OUTBOUND_TAG : String := "out:forward"

def forwardingTag (id : ℤ) : String := s!"fwd:{id}"

/-! ### What outlives a crash -/

/-- What the agent keeps on disk. -/
structure ForwardingCheckpoint where
  applied : ForwardingDesiredState
  installingRuleIds : Finset ℤ
deriving DecidableEq

/-- The file of the checkpoint; a damaged one with what reading it answers. -/
inductive Disk where
  | missing
  | damaged (error : String)
  | holds (checkpoint : ForwardingCheckpoint)
deriving DecidableEq

/-- Nothing has been applied. -/
def ForwardingCheckpoint.none : ForwardingCheckpoint :=
  { applied := { generation := 0, rules := [] }, installingRuleIds := ∅ }

/-- What the file says. -/
def readCheckpoint : Disk → Except String ForwardingCheckpoint
  | .missing => .ok .none
  | .damaged error => .error error
  | .holds checkpoint => .ok checkpoint

/-- The file, and the forwarding listeners Xray has. -/
structure Machine where
  disk : Disk
  runtime : OrdMap ℤ ForwardingRuleDesired
deriving DecidableEq

/-- The rules the file says are applied. -/
def Machine.recorded (machine : Machine) : List ForwardingRuleDesired :=
  match machine.disk with
  | .holds checkpoint => checkpoint.applied.rules
  | _ => []

/-- One change of the machine. -/
inductive Change where
  | wrote (checkpoint : ForwardingCheckpoint)
  | removed (id : ℤ)
  | added (rule : ForwardingRuleDesired)
deriving DecidableEq

/-- The machine behind a change. -/
def Machine.apply (machine : Machine) : Change → Machine
  | .wrote checkpoint => { machine with disk := .holds checkpoint }
  | .removed id => { machine with runtime := machine.runtime.erase id }
  | .added rule => { machine with runtime := machine.runtime.insert rule.id rule }

/-- A change as it took effect. -/
structure Moment where
  change : Change
  before : Machine

def Moment.after (moment : Moment) : Machine := moment.before.apply moment.change

/-! ### What a round remembers -/

/-- What went wrong in a round. -/
structure ReconcileErrors where
  messages : List String
  omitted : Bool
  rules : OrdMap ℤ String

namespace ReconcileErrors

def none : ReconcileErrors := { messages := [], omitted := false, rules := .empty }

/-- The first 96 characters. -/
def cut (error : String) : String := String.ofList (error.toList.take 96)

/-- Eight messages are kept; of more, only that there were more. -/
def push (errors : ReconcileErrors) (error : String) : ReconcileErrors :=
  if errors.messages.length < 8 then { errors with messages := errors.messages ++ [cut error] }
  else { errors with omitted := true }

/-- An error of one rule. -/
def pushRule (errors : ReconcileErrors) (id : ℤ) (error : String) : ReconcileErrors :=
  let rules :=
    if errors.rules.entries.length < 1024 && !errors.rules.contains id then
      errors.rules.insert id (cut error)
    else errors.rules
  push { errors with rules } error

/-- The errors, in one text. -/
def finish (errors : ReconcileErrors) : Option String :=
  let messages :=
    if errors.omitted then errors.messages ++ ["additional errors omitted"] else errors.messages
  if messages.isEmpty then Option.none else some ("; ".intercalate messages)

end ReconcileErrors

/-- What a round remembers. -/
structure Memory where
  known : OrdMap ℤ ForwardingRuleDesired
  (installing remaining : Finset ℤ)
  errors : ReconcileErrors

/-- The machine, what the round remembers, and the changes so far, the last first. -/
structure State where
  machine : Machine
  memory : Memory
  moments : List Moment

/-! ### A round and its faults -/

/-- Which installation of a rule: for another, back after a failed one, or where none was. -/
inductive Stage where
  | replace
  | restore (attempt : ℕ)
  | add
deriving DecidableEq

/-- The operations of one installation, the last but one three after a failed addition. -/
inductive Install where
  | announce
  | add
  | tags
  | cleanup
  | withdrawn
  | record
deriving DecidableEq

/-- Where in a round an operation stands. -/
inductive Site where
  | firstTags
  | begin
  | preflight (id : ℤ)
  | remove (id : ℤ)
  | removed (id : ℤ)
  | install (stage : Stage) (id : ℤ) (operation : Install)
  | lastTags
  | finish
deriving DecidableEq

/-- What a round is told, what Xray answers, and what it meets. -/
structure Round where
  desired : ForwardingDesiredState
  (outboundReady targetPolicySupported : Bool)
  publicTarget : ℤ → Bool
  faults : Site → Fault String

abbrev Work (α : Type) : Type := Act State String α

/-- A rule of before the target policy has the stricter one. -/
def withPolicy (rule : ForwardingRuleDesired) : ForwardingRuleDesired :=
  { rule with allowPrivateTargets := some (rule.allowPrivateTargets.getD false) }

def allowsPrivate (rule : ForwardingRuleDesired) : Bool := rule.allowPrivateTargets.getD false

namespace Round

def rules (round : Round) : List ForwardingRuleDesired := round.desired.rules.map withPolicy

/-- The running Xray can be trusted with the rule. -/
def enforceable (round : Round) (rule : ForwardingRuleDesired) : Bool :=
  !blockedTarget rule.targetHost (allowsPrivate rule)
    && (round.targetPolicySupported || targetHostIsPublicIp rule.targetHost)

/-- What is to be installed. -/
def wanted (round : Round) : OrdMap ℤ ForwardingRuleDesired :=
  .ofList ((round.rules.filter round.enforceable).map fun rule => (rule.id, rule))

end Round

/-! ### Operations -/

/-- The state behind a change. -/
def State.changed (s : State) (change : Change) : State :=
  { s with
    machine := s.machine.apply change
    moments := { change, before := s.machine } :: s.moments }

/-- Make a change, as far as the fault lets it. -/
def change (fault : Fault String) (change : Change) : Work Unit :=
  .perform fault fun s => s.changed change

/-- Ask for something that changes nothing. -/
def ask (fault : Fault String) : Work Unit := .perform fault id

def remember (f : Memory → Memory) : Work Unit :=
  .modify fun s => { s with memory := f s.memory }

/-- An error of one rule is kept. -/
def pushRule (id : ℤ) (error : String) : Work Unit :=
  remember fun memory => { memory with errors := memory.errors.pushRule id error }

/-- An error is kept. -/
def push (error : String) : Work Unit :=
  remember fun memory => { memory with errors := memory.errors.push error }

/-- The checkpoint goes to disk. -/
def writeCheckpoint (round : Round) (site : Site) : Work Unit := do
  let s ← .get
  change (round.faults site) (.wrote {
    applied := { generation := round.desired.generation, rules := s.memory.known.values }
    installingRuleIds := s.memory.installing })

/-- The ids of the forwarding listeners. -/
def inboundTags (round : Round) (site : Site) : Work (List ℤ) := do
  ask (round.faults site)
  let s ← .get
  return s.machine.runtime.keys

/-- Xray refuses a tag it has. -/
def addInbound (round : Round) (site : Site) (rule : ForwardingRuleDesired) : Work Unit := do
  let s ← .get
  if s.machine.runtime.contains rule.id then do
    ask (round.faults site)
    .fail s!"existing tag found: {forwardingTag rule.id}"
  else change (round.faults site) (.added rule)

/-- Xray refuses to remove a tag it has not. -/
def removeInbound (round : Round) (site : Site) (id : ℤ) : Work Unit := do
  let s ← .get
  if s.machine.runtime.contains id then change (round.faults site) (.removed id)
  else do
    ask (round.faults site)
    .fail "not enough information for making a decision"

/-! ### Installing -/

def announce (id : ℤ) (memory : Memory) : Memory :=
  { memory with installing := insert id memory.installing }

def withdraw (id : ℤ) (memory : Memory) : Memory :=
  { memory with installing := memory.installing.erase id }

def learn (rule : ForwardingRuleDesired) (memory : Memory) : Memory :=
  { memory with
    known := memory.known.insert rule.id rule
    installing := memory.installing.erase rule.id }

/-- After a failed addition: whatever came of it is taken away again. -/
def cleanup (round : Round) (stage : Stage) (rule : ForwardingRuleDesired) : Work Unit := do
  let tags ← inboundTags round (.install stage rule.id .tags)
  (if rule.id ∈ tags then removeInbound round (.install stage rule.id .cleanup) rule.id else pure ())
  remember (withdraw rule.id)
  writeCheckpoint round (.install stage rule.id .withdrawn)

/-- A rule is installed. -/
def installListener (round : Round) (stage : Stage) (rule : ForwardingRuleDesired) : Work Unit := do
  -- the attempt is on disk before it is made: an answer can be lost, and so can the process
  remember (announce rule.id)
  writeCheckpoint round (.install stage rule.id .announce)
  match ← (addInbound round (.install stage rule.id .add) rule).attempt with
  | .ok () => do
      remember (learn rule)
      writeCheckpoint round (.install stage rule.id .record)
  | .error error => do
      match ← (cleanup round stage rule).attempt with
      | .ok () => .fail error
      | .error pending => .fail s!"{error}; cleanup pending: {pending}"

/-- Install `previous` again, in `left` attempts of twenty. -/
def restoreListener (round : Round) (previous : ForwardingRuleDesired) : ℕ → Work Unit
  | 0 => .fail "listener restore failed"
  | left + 1 => do
      match ← (installListener round (.restore (19 - left)) previous).attempt with
      | .ok () => pure ()
      | .error error => if left = 0 then .fail error else restoreListener round previous left

/-! ### Revoking and replacing -/

/-- Whether the old policy forbids keeping it. -/
def previousPolicyRequiresReplacement (previous : Option ForwardingRuleDesired)
    (replacement : ForwardingRuleDesired) : Bool :=
  previous.all fun rule =>
    rule.allowPrivateTargets.isNone || (!allowsPrivate replacement && allowsPrivate rule)

/-- The flag means nothing for a fixed public address: it is taken over without a new socket. -/
def levelFlag (replacement : Option ForwardingRuleDesired) (previous : ForwardingRuleDesired) :
    ForwardingRuleDesired :=
  match replacement with
  | some replacement =>
    if targetHostIsPublicIp replacement.targetHost then
      { previous with allowPrivateTargets := replacement.allowPrivateTargets }
    else previous
  | none => previous

/-- The flag of the wanted rule is taken over. -/
def level (id : ℤ) (replacement : Option ForwardingRuleDesired) (memory : Memory) : Memory :=
  match memory.known.get? id with
  | some previous =>
    { memory with known := memory.known.insert id (levelFlag replacement previous) }
  | none => memory

/-- The listener is gone. -/
def forget (id : ℤ) (memory : Memory) : Memory :=
  { memory with
    known := memory.known.erase id
    installing := memory.installing.erase id
    remaining := memory.remaining.erase id }

def keep (id : ℤ) : Work Unit :=
  remember fun memory => { memory with remaining := insert id memory.remaining }

/-- The former definition may come back: it is not more permissive than the new one. -/
def restorable (replacement previous : ForwardingRuleDesired) : Bool :=
  allowsPrivate replacement || !allowsPrivate previous

/-- In the place of a removed listener, or that one again. -/
def reinstall (round : Round) (id : ℤ) (previous : Option ForwardingRuleDesired)
    (replacement : ForwardingRuleDesired) : Work Unit := do
  match ← (installListener round .replace replacement).attempt with
  | .ok () => keep id
  | .error error => do
      pushRule id s!"rule {id} add failed: {error}"
      match previous.filter (restorable replacement) with
      | none => pure ()
      | some previous => do
          match ← (restoreListener round previous 20).attempt with
          | .ok () => keep id
          | .error rollback => pushRule id s!"rule {id} restore failed: {rollback}"

/-- Whether the replacement could be bound, where there is something to replace. -/
def preflight (round : Round) (id : ℤ) (previous : Option ForwardingRuleDesired) : Work Unit :=
  if previous.isSome && round.wanted.contains id then ask (round.faults (.preflight id))
  else pure ()

/-- Remove a listener, and put what is wanted in its place. -/
def removeListener (round : Round) (id : ℤ) (previous : Option ForwardingRuleDesired) :
    Work Unit := do
  match ← (removeInbound round (.remove id) id).attempt with
  | .error error => pushRule id s!"rule {id} remove failed: {error}"
  | .ok () => do
      remember (forget id)
      writeCheckpoint round (.removed id)
      match (round.wanted.get? id).filter fun _ => round.outboundReady with
      | none => pure ()
      | some replacement => reinstall round id previous replacement

/-- A listener is revised. -/
def replaceListener (round : Round) (id : ℤ) (previous : Option ForwardingRuleDesired) :
    Work Unit := do
  match ← (preflight round id previous).attempt with
  | .error error => pushRule id s!"rule {id} preflight failed: {error}"
  | .ok () => removeListener round id previous

/-- A listener goes that is not wanted, is not as wanted, or may not stay as it is. -/
def condemned (round : Round) (id : ℤ) (unproven : Bool)
    (previous : Option ForwardingRuleDesired) : Bool :=
  let replacement := round.wanted.get? id
  let unchanged := previous.isSome && decide (previous = replacement)
  let revoked := replacement.isNone
  let securityRevocation := unproven || replacement.any fun replacement =>
    !targetHostIsPublicIp replacement.targetHost
      && previousPolicyRequiresReplacement previous replacement
  revoked || (round.outboundReady && !unchanged) || securityRevocation

/-- One listener of the first snapshot: revoked, replaced or left alone. -/
def reviseListener (round : Round) (id : ℤ) : Work Unit := do
  let before ← .get
  let installing := decide (id ∈ before.memory.installing)
  let replacement := round.wanted.get? id
  let unknown := !before.memory.known.contains id && !installing
  let provenPublic :=
    unknown && replacement.any (targetHostIsPublicIp ·.targetHost) && round.publicTarget id
  remember (level id replacement)
  let s ← .get
  let previous := s.memory.known.get? id
  if condemned round id (unknown && !provenPublic) previous then
    if replacement.isSome && previous.isNone && !installing && provenPublic then
      pushRule id s!"rule {id} has no applied checkpoint; preserving its existing listener"
    else replaceListener round id previous
  else pure ()

/-- One wanted rule, installed if it has no listener. -/
def supplyListener (round : Round) (rule : ForwardingRuleDesired) : Work Unit := do
  let s ← .get
  if rule.id ∈ s.memory.remaining then pure ()
  else do
    remember fun memory => { memory with known := memory.known.erase rule.id }
    match ← (installListener round .add rule).attempt with
    | .ok () => pure ()
    | .error error => pushRule rule.id s!"rule {rule.id} add failed: {error}"

/-! ### The round -/

/-- What is remembered of a checkpoint: only what has a listener, and every listener remains. -/
def readBack (checkpoint : ForwardingCheckpoint) (actual : List ℤ) : Memory :=
  let known := (OrdMap.ofList (checkpoint.applied.rules.map fun rule => (rule.id, rule))).filter
    fun entry => decide (entry.1 ∈ actual)
  { known
    installing := checkpoint.installingRuleIds.filter fun id => id ∈ actual ∧ known.contains id = false
    remaining := actual.toFinset
    errors := .none }

/-- Rules that the running Xray cannot be trusted with are reported. -/
def reportBlocked (round : Round) (rule : ForwardingRuleDesired) : Work Unit :=
  if round.wanted.contains rule.id then pure ()
  else pushRule rule.id
    s!"rule {rule.id} target is blocked or running Xray needs forwarding-target-policy-v1"

/-- Every wanted rule has its listener, by what is known, and nothing else has one. -/
def converged (round : Round) (actual : List ℤ) (known : OrdMap ℤ ForwardingRuleDesired) : Bool :=
  decide (actual = round.wanted.keys)
    && round.wanted.entries.all fun entry => decide (known.get? entry.1 = some entry.2)

/-- What the report says of a rule. -/
def ruleResult (round : Round) (memory : Memory) (rule : ForwardingRuleDesired) :
    ForwardingRuleReconcileResult :=
  let installed := decide (memory.known.get? rule.id = some rule)
  let ownError := (memory.errors.rules.get? rule.id).filter fun _ =>
    !round.wanted.contains rule.id || !installed
  let unavailable :=
    if !round.outboundReady && !installed then
      some "Forwarding outbound is unavailable; publish a compatible Xray configuration first"
    else none
  { rule
    applied := round.wanted.contains rule.id && installed
    error := ownError.or unavailable }

/-- The round's report. -/
def finish (round : Round) : Work ForwardingReconcileReport := do
  let actual ← inboundTags round .lastTags
  remember fun memory =>
    { memory with known := memory.known.filter fun entry => decide (entry.1 ∈ actual) }
  let s ← .get
  (if converged round actual s.memory.known then pure ()
    else push "Xray forwarding listeners have not fully converged; retrying next round")
  writeCheckpoint round .finish
  let s ← .get
  return {
    generation := round.desired.generation
    appliedRuleIds := actual
    error := s.memory.errors.finish
    ruleResults := some (round.rules.map (ruleResult round s.memory)) }

/-- What stands in the way of the round as a whole. -/
def reportObstacles (round : Round) (checkpoint : Except String ForwardingCheckpoint) :
    Work Unit := do
  Act.each (reportBlocked round) round.rules
  (match checkpoint with
    | .ok _ => pure ()
    | .error error => push error)
  if !round.outboundReady && !round.rules.isEmpty then
    push s!"Xray forwarding requires {FORWARD_OUTBOUND_TAG} as the first freedom outbound; publish a compatible Xray configuration first"
  else pure ()

/-- One round. -/
def reconcileListeners (round : Round) : Work ForwardingReconcileReport := do
  let start ← .get
  let checkpoint := readCheckpoint start.machine.disk
  let actual ← inboundTags round .firstTags
  remember fun _ => readBack (checkpoint.toOption.getD .none) actual
  writeCheckpoint round .begin
  reportObstacles round checkpoint
  -- revocations come before additions, and happen whether or not the outbound is ready
  Act.each (reviseListener round) actual
  (if round.outboundReady then Act.each (supplyListener round) round.wanted.values else pure ())
  finish round

/-- Nothing is remembered when a round begins. -/
def begun (machine : Machine) : State :=
  { machine
    memory := { known := .empty, installing := ∅, remaining := ∅, errors := .none }
    moments := [] }

/-! ### Rounds and what happens between them -/

/-- What happens to a machine. -/
inductive Event where
  | round (round : Round)
  /-- Xray starts anew, without a listener. -/
  | restarted
  | damaged (error : String)
  | lost
  /-- Xray is off and no rule is desired: the checkpoint of nothing. -/
  | off (generation : ℤ)

/-- The machine behind an event. -/
def Machine.next (machine : Machine) : Event → Machine
  | .round round => (reconcileListeners round (begun machine)).2.machine
  | .restarted => { machine with runtime := .empty }
  | .damaged error => { machine with disk := .damaged error }
  | .lost => { machine with disk := .missing }
  | .off generation =>
    { machine with
      disk := .holds {
        applied := { generation, rules := [] }
        installingRuleIds := ∅ } }

end Brocade.Forwarding
