/-
The managed sources an agent remembers.

A control plane that answers 404 is an old one that knows no budgets, and it must not release a
user that a newer one limited.  So the agent keeps the sources that were managed, in memory and in a
file.  Snapshots of all policies replace the set, and grants change it source by source; each is an
answer that was given earlier, and nothing but the lock orders them here.

`accepted` is not in the source: the answers that were taken over.
-/
import Brocade.Budget.Reserve
import Brocade.Lib.Steps
import Mathlib.Data.Finset.Card

namespace Brocade.UserTraffic

open Budget (UserTrafficEffect UserBudgetGrant MAX_BUDGET_BYTES BUDGET_TTL_MS)

def MAX_SOURCES : ℕ := 4096

/-! ### Answers -/

/-- The effect on one source. -/
structure UserTrafficAssignment where
  source : String
  revision : ℕ
  effect : UserTrafficEffect

/-- All effects at once. -/
structure UserTrafficSnapshot where
  sha256 : String
  sources : List UserTrafficAssignment

def isHexDigit (c : Char) : Bool :=
  c.isDigit || decide ('a' ≤ c ∧ c ≤ 'f') || decide ('A' ≤ c ∧ c ≤ 'F')

def rateInRange (rateBps : ℕ) : Bool := decide (1000 ≤ rateBps ∧ rateBps ≤ 1000000000000)

/-- One row of a snapshot. -/
def assign (effects : OrdMap String UserTrafficEffect) (row : UserTrafficAssignment) :
    Except String (OrdMap String UserTrafficEffect) :=
  let valid := match row.effect with
    | .limited rateBps => rateInRange rateBps
    | _ => true
  if row.revision = 0 ∨ valid = false then .error "invalid user policy assignment"
  else if 512 < row.source.utf8ByteSize ∨ effects.contains row.source then
    .error "invalid or duplicate user policy source"
  else .ok (effects.insert row.source row.effect)

/-- The effects of a snapshot. -/
def UserTrafficSnapshot.effects (snapshot : UserTrafficSnapshot) :
    Except String (OrdMap String UserTrafficEffect) :=
  if snapshot.sha256.utf8ByteSize ≠ 64 ∨ snapshot.sha256.toList.all isHexDigit = false then
    .error "invalid user policy snapshot identity"
  else if MAX_SOURCES < snapshot.sources.length then
    .error "user policy assignments exceed capacity"
  else snapshot.sources.foldlM assign OrdMap.empty

/-- The sources with any policy but an unmanaged one without a limit. -/
def managedSources (effects : OrdMap String UserTrafficEffect) : Finset String :=
  ((effects.entries.filter fun row => row.2 != .unlimited false).map Prod.fst).toFinset

/-- Whether a grant says that its source is managed; nothing where it is refused or repeated. -/
def grantManaged : UserBudgetGrant → Option Bool
  | .unlimited _ managed => some managed
  | .suspended _ => some true
  | .limited bytes rateBps validMs =>
    if bytes = 0 ∨ MAX_BUDGET_BYTES < bytes ∨ rateInRange rateBps = false
        ∨ BUDGET_TTL_MS < validMs then none
    else some true
  | .retry _ => none

/-! ### The agent -/

/-- What the file holds. -/
inductive Checkpoint where
  | absent
  | keys (keys : Finset String)
  | broken

/-- A write replaces the file, or fails before or after it has. -/
inductive Write where
  | written
  | refused (error : String)
  | unsure (error : String)

/-- The write took effect and failed. -/
def Write.unclear : Write → Bool
  | .unsure _ => true
  | _ => false

/-- What an agent remembers. -/
structure Agent where
  known : Finset String
  unknownCheckpoint : Bool
  file : Checkpoint

/-- `initialize` -/
def Agent.start (file : Checkpoint) : Agent :=
  match file with
  | .absent => ⟨∅, false, file⟩
  | .keys keys => if keys.card ≤ MAX_SOURCES then ⟨keys, false, file⟩ else ⟨∅, true, file⟩
  | .broken => ⟨∅, true, file⟩

/-- The keys go to disk. -/
def Agent.checkpoint (a : Agent) (keys : Finset String) : Write → Agent × Option String
  | .written => ({ a with known := keys, file := .keys keys }, none)
  | .refused error => (a, some error)
  | .unsure error => ({ a with file := .keys keys }, some error)

/-- One source is kept or not. -/
def Agent.remember (a : Agent) (source : String) (limited : Bool) (write : Write) :
    Agent × Option String :=
  if limited = decide (source ∈ a.known) then (a, none)
  else if limited ∧ MAX_SOURCES ≤ a.known.card then
    (a, some "user budget checkpoint capacity reached")
  else a.checkpoint (if limited then insert source a.known else a.known.erase source) write

/-- The part of `synchronize` that takes the managed sources over. -/
def Agent.takeOver (a : Agent) (managed : Finset String) (write : Write) :
    Agent × Option String :=
  if a.known ≠ managed ∨ a.unknownCheckpoint then
    match a.checkpoint managed write with
    | (a, none) => ({ a with unknownCheckpoint := false }, none)
    | (a, some error) => (a, some error)
  else (a, none)

/-- `required` is what the other file says. -/
def requiredAtStart (required : Bool) (file : Checkpoint) : Bool :=
  required || match file with
    | .absent => false
    | .keys keys => keys ≠ ∅
    | .broken => true

/-- `fetch`, where the control plane answers 404. -/
def Agent.fetchMissing (a : Agent) (source : String) (required : Bool) :
    Except String UserBudgetGrant :=
  if a.unknownCheckpoint || decide (source ∈ a.known) || requiredAtStart required a.file then
    .error "old Console cannot release a previously limited user"
  else .ok (.unlimited BUDGET_TTL_MS false)

/-! ### The system -/

/-- What an answer says. -/
inductive Said where
  | policies (managed : Finset String)
  | grant (source : String) (managed : Bool)

/-- An answer that was taken over, by the time it was given. -/
structure Accepted where
  time : ℕ
  said : Said

/-- What an answer says about a source; a source that a snapshot leaves out is not managed. -/
def Accepted.tells (answer : Accepted) (source : String) : Option Bool :=
  match answer.said with
  | .policies managed => some (decide (source ∈ managed))
  | .grant other managed => if other = source then some managed else none

/-- A grant on its way to `remember`: an answer, or what `fetch` made of a 404. -/
structure Reply where
  time : ℕ
  source : String
  grant : UserBudgetGrant
  answered : Bool

/-- The agent and the control plane. -/
structure World where
  agent : Agent
  /-- how many answers were given -/
  time : ℕ
  snapshots : List (ℕ × UserTrafficSnapshot)
  replies : List Reply
  accepted : List Accepted

def World.start (file : Checkpoint) : World := ⟨Agent.start file, 0, [], [], []⟩

/-- The steps of a run. -/
inductive Event where
  /-- the control plane answers a request for all policies, or one for bytes of a source -/
  | policies (snapshot : UserTrafficSnapshot)
  | budget (source : String) (grant : UserBudgetGrant)
  /-- it answers 404 to a request for bytes -/
  | missing (source : String) (required : Bool)
  /-- the agent comes to one of the answers -/
  | synchronize (index : ℕ) (write : Write)
  | remember (index : ℕ) (write : Write)
  | restart

/-- A snapshot arrives. -/
def World.synchronize (w : World) (answer : ℕ × UserTrafficSnapshot) (write : Write) : World :=
  match answer.2.effects with
  | .error _ => w
  | .ok effects =>
    match w.agent.takeOver (managedSources effects) write with
    | (agent, none) =>
      { w with
        agent := agent
        accepted := ⟨answer.1, .policies (managedSources effects)⟩ :: w.accepted }
    | (agent, some _) => { w with agent := agent }

/-- A grant arrives. -/
def World.remember (w : World) (reply : Reply) (write : Write) : World :=
  match grantManaged reply.grant with
  | none => w
  | some managed =>
    match w.agent.remember reply.source managed write with
    | (agent, none) =>
      { w with
        agent := agent
        accepted :=
          if reply.answered then ⟨reply.time, .grant reply.source managed⟩ :: w.accepted
          else w.accepted }
    | (agent, some _) => { w with agent := agent }

/-- The world behind one event. -/
def World.step (w : World) : Event → Option World
  | .policies snapshot =>
    some { w with time := w.time + 1, snapshots := w.snapshots ++ [(w.time, snapshot)] }
  | .budget source grant =>
    some { w with time := w.time + 1, replies := w.replies ++ [⟨w.time, source, grant, true⟩] }
  | .missing source required =>
    match w.agent.fetchMissing source required with
    | .error _ => some w
    | .ok grant => some { w with replies := w.replies ++ [⟨w.time, source, grant, false⟩] }
  | .synchronize index write =>
    (w.snapshots[index]?).map fun answer =>
      { w with snapshots := w.snapshots.eraseIdx index }.synchronize answer write
  | .remember index write =>
    (w.replies[index]?).map fun reply =>
      { w with replies := w.replies.eraseIdx index }.remember reply write
  | .restart => some { w with agent := Agent.start w.agent.file, snapshots := [], replies := [] }

/-- The latest answer about a source, of those that were taken over, says that it is managed. -/
def LatestManaged (accepted : List Accepted) (source : String) : Prop :=
  ∃ a ∈ accepted, a.tells source = some true ∧
    ∀ b ∈ accepted, (b.tells source).isSome = true → b.time ≤ a.time

/-! ### Taking an answer over -/

/-- What an answer changes. -/
def Agent.accept (a : Agent) (said : Said) (write : Write) : Agent × Option String :=
  match said with
  | .policies managed => a.takeOver managed write
  | .grant source managed => a.remember source managed write

/-- What an event takes over: the answer, whether the control plane gave it, and how the write
goes. -/
def Event.handles (w : World) : Event → Option (Accepted × Bool × Write)
  | .synchronize index write => (w.snapshots[index]?).bind fun answer =>
    match answer.2.effects with
    | .error _ => none
    | .ok effects => some (⟨answer.1, .policies (managedSources effects)⟩, true, write)
  | .remember index write => (w.replies[index]?).bind fun reply =>
    (grantManaged reply.grant).map fun managed =>
      (⟨reply.time, .grant reply.source managed⟩, reply.answered, write)
  | _ => none

/-- An answer that takes a source out is newer than every one that put it in; what a 404 takes out
was not in by then; and a write that takes it out fails, if it does, before it takes effect. -/
def InOrder (source : String) (agent : Agent) (accepted : List Accepted) (answer : Accepted)
    (answered : Bool) (write : Write) : Prop :=
  answer.tells source = some false →
    (if answered then ∀ a ∈ accepted, a.tells source = some true → a.time < answer.time
      else ¬ LatestManaged accepted source) ∧
    (source ∈ agent.known → write.unclear = false)

/-- The answer handled at the event, if any, comes in its order. -/
def Orderly (source : String) (w : World) (event : Event) : Prop :=
  match event.handles w with
  | none => True
  | some (answer, answered, write) => InOrder source w.agent w.accepted answer answered write

instance decidableLatestManaged (accepted : List Accepted) (source : String) :
    Decidable (LatestManaged accepted source) :=
  inferInstanceAs (Decidable (∃ a ∈ accepted, a.tells source = some true ∧
    ∀ b ∈ accepted, (b.tells source).isSome = true → b.time ≤ a.time))

instance decidableInOrder (source : String) (agent : Agent) (accepted : List Accepted)
    (answer : Accepted) (answered : Bool) (write : Write) :
    Decidable (InOrder source agent accepted answer answered write) := by
  unfold InOrder
  infer_instance

instance decidableOrderly (source : String) (w : World) (event : Event) :
    Decidable (Orderly source w event) := by
  unfold Orderly
  split <;> infer_instance

section Accept

variable {a g : Agent} {source : String} {said : Said} {write : Write}

/-- What of the set an answer leaves. -/
def Said.leaves (said : Said) (known : Finset String) : Finset String :=
  match said with
  | .policies managed => managed
  | .grant source true => insert source known
  | .grant source false => known.erase source

/-- A source that is put in finds room. -/
def Said.Fits (said : Said) (known : Finset String) : Prop :=
  match said with
  | .grant _ true => known.card < MAX_SOURCES
  | _ => True

/-- What taking an answer over comes to. -/
inductive Taken (a : Agent) (said : Said) (write : Write) : Agent × Option String → Prop
  | kept {g : Agent} (hknown : g.known = a.known) (hfile : g.file = a.file)
      (hsame : said.leaves a.known = a.known) : Taken a said write (g, none)
  | written {g : Agent} (hknown : g.known = said.leaves a.known)
      (hfile : g.file = .keys (said.leaves a.known)) (hroom : said.Fits a.known) :
      Taken a said write (g, none)
  | refused {error : String} : Taken a said write (a, some error)
  | unsure {g : Agent} {error : String} (hwrite : write = .unsure error) (hknown : g.known = a.known)
      (hfile : g.file = .keys (said.leaves a.known)) (hroom : said.Fits a.known) :
      Taken a said write (g, some error)

theorem accept_taken (a : Agent) (said : Said) (write : Write) :
    Taken a said write (a.accept said write) := by
  cases said with
  | policies managed =>
    show Taken a _ write (a.takeOver managed write)
    unfold Agent.takeOver
    by_cases hchange : a.known ≠ managed ∨ a.unknownCheckpoint = true
    · rw [if_pos hchange]
      cases write with
      | written => exact .written rfl rfl trivial
      | refused error => exact .refused
      | unsure error => exact .unsure rfl rfl rfl trivial
    · rw [if_neg hchange]
      rw [not_or, not_not] at hchange
      exact .kept rfl rfl hchange.1.symm
  | grant source managed =>
    show Taken a _ write (a.remember source managed write)
    have hleaves : (Said.grant source managed).leaves a.known
        = if managed then insert source a.known else a.known.erase source := by
      cases managed with
      | true => rfl
      | false => rfl
    unfold Agent.remember
    by_cases hsame : managed = decide (source ∈ a.known)
    · rw [if_pos hsame]
      refine .kept rfl rfl ?_
      rw [hleaves]
      by_cases hin : source ∈ a.known
      · simp [hsame, hin]
      · simp [hsame, hin]
    rw [if_neg hsame]
    by_cases hfull : managed = true ∧ MAX_SOURCES ≤ a.known.card
    · rw [if_pos hfull]
      exact .refused
    have hroom : (Said.grant source managed).Fits a.known := by
      cases managed with
      | true => exact Nat.lt_of_not_le fun hle => hfull ⟨rfl, hle⟩
      | false => exact trivial
    rw [if_neg hfull, ← hleaves]
    cases write with
    | written => exact .written rfl rfl hroom
    | refused error => exact .refused
    | unsure error => exact .unsure rfl rfl rfl hroom

theorem leaves_card {known : Finset String} (hcap : known.card ≤ MAX_SOURCES)
    (hroom : said.Fits known) (hsaid : ∀ managed, said = .policies managed →
      managed.card ≤ MAX_SOURCES) : (said.leaves known).card ≤ MAX_SOURCES := by
  cases said with
  | policies managed => exact hsaid managed rfl
  | grant source managed =>
    cases managed with
    | true =>
      have hlt : known.card < MAX_SOURCES := hroom
      exact Nat.le_trans (Finset.card_insert_le source known) hlt
    | false => exact Nat.le_trans (Finset.card_erase_le) hcap

/-- What an answer leaves has a source where the answer says so, and where it says nothing of it. -/
theorem mem_leaves {known : Finset String} (answer : Accepted) :
    source ∈ answer.said.leaves known ↔ (answer.tells source).getD (decide (source ∈ known)) = true := by
  obtain ⟨time, said⟩ := answer
  cases said with
  | policies managed => simp [Said.leaves, Accepted.tells]
  | grant other managed =>
    by_cases hother : other = source
    · subst hother
      cases managed with
      | true => simp [Said.leaves, Accepted.tells]
      | false => simp [Said.leaves, Accepted.tells]
    · have hne : source ≠ other := fun h => hother h.symm
      cases managed with
      | true => simp [Said.leaves, Accepted.tells, hother, hne]
      | false => simp [Said.leaves, Accepted.tells, hother, hne]

end Accept

/-! ### The invariant -/

theorem assign_ok {effects mid : OrdMap String UserTrafficEffect} {row : UserTrafficAssignment}
    (h : assign effects row = .ok mid) : mid = effects.insert row.source row.effect := by
  unfold assign at h
  extract_lets valid at h
  by_cases hinvalid : row.revision = 0 ∨ valid = false
  · rw [if_pos hinvalid] at h
    cases h
  by_cases hdup : 512 < row.source.utf8ByteSize ∨ effects.contains row.source = true
  · rw [if_neg hinvalid, if_pos hdup] at h
    cases h
  · rw [if_neg hinvalid, if_neg hdup] at h
    exact (Except.ok.inj h).symm

theorem assigned_listed : ∀ {rows : List UserTrafficAssignment}
    {effects effects' : OrdMap String UserTrafficEffect}, rows.foldlM assign effects = .ok effects' →
      ∀ source effect, effects'.get? source = some effect →
        effects.get? source = some effect ∨ source ∈ rows.map UserTrafficAssignment.source := by
  intro rows
  induction rows with
  | nil =>
    intro effects effects' h source effect hget
    cases h
    exact .inl hget
  | cons row rows ih =>
    intro effects effects' h source effect hget
    rw [List.foldlM_cons, Fallible.bind_eq_ok] at h
    obtain ⟨mid, hmid, hrest⟩ := h
    rcases ih hrest source effect hget with hmore | hlisted
    · rw [assign_ok hmid, OrdMap.get?_insert] at hmore
      by_cases hsame : source = row.source
      · exact .inr (by simp [hsame])
      · rw [if_neg hsame] at hmore
        exact .inl hmore
    · exact .inr (List.mem_cons_of_mem _ hlisted)

theorem managedSources_card {snapshot : UserTrafficSnapshot}
    {effects : OrdMap String UserTrafficEffect} (h : snapshot.effects = .ok effects) :
    (managedSources effects).card ≤ MAX_SOURCES := by
  unfold UserTrafficSnapshot.effects at h
  split at h
  · cases h
  split at h
  · cases h
  next hcapacity =>
  have hsubset : managedSources effects
      ⊆ (snapshot.sources.map UserTrafficAssignment.source).toFinset := by
    intro source hsource
    unfold managedSources at hsource
    rw [List.mem_toFinset, List.mem_map] at hsource
    obtain ⟨⟨key, effect⟩, hin, rfl⟩ := hsource
    have hget := OrdMap.mem_entries.mp (List.mem_of_mem_filter hin)
    rw [List.mem_toFinset]
    rcases assigned_listed h key effect hget with hempty | hlisted
    · simp at hempty
    · exact hlisted
  have hle := Finset.card_le_card hsubset
  have hlist := List.toFinset_card_le (snapshot.sources.map UserTrafficAssignment.source)
  rw [List.length_map] at hlist
  omega

/-- What holds of a source between the steps. -/
structure Inv (source : String) (agent : Agent) (accepted : List Accepted) : Prop where
  cap : agent.known.card ≤ MAX_SOURCES
  file : source ∈ agent.known →
    ∃ keys, agent.file = .keys keys ∧ source ∈ keys ∧ keys.card ≤ MAX_SOURCES
  latest : LatestManaged accepted source → source ∈ agent.known

theorem start_known {file : Checkpoint} {source : String} (h : source ∈ (Agent.start file).known) :
    ∃ keys, file = .keys keys ∧ keys.card ≤ MAX_SOURCES ∧ (Agent.start file).known = keys := by
  cases file with
  | absent => simp [Agent.start] at h
  | broken => simp [Agent.start] at h
  | keys keys =>
    by_cases hfits : keys.card ≤ MAX_SOURCES
    · exact ⟨keys, rfl, hfits, by simp [Agent.start, hfits]⟩
    · simp [Agent.start, hfits] at h

theorem start_card (file : Checkpoint) : (Agent.start file).known.card ≤ MAX_SOURCES := by
  by_cases hnone : (Agent.start file).known = ∅
  · simp [hnone]
  · obtain ⟨source, hin⟩ := Finset.nonempty_iff_ne_empty.mpr hnone
    obtain ⟨keys, -, hfits, hknown⟩ := start_known hin
    rw [hknown]
    exact hfits

theorem start_file (file : Checkpoint) : (Agent.start file).file = file := by
  unfold Agent.start
  cases file with
  | absent => rfl
  | broken => rfl
  | keys keys =>
    by_cases hfits : keys.card ≤ MAX_SOURCES
    · simp [hfits]
    · simp [hfits]

theorem Inv.start (file : Checkpoint) (source : String) : Inv source (Agent.start file) [] := by
  refine ⟨start_card file, fun hin => ?_, fun h => ?_⟩
  · obtain ⟨keys, hfile, hfits, hknown⟩ := start_known hin
    exact ⟨keys, (start_file file).trans hfile, hknown ▸ hin, hfits⟩
  · obtain ⟨a, ha, -⟩ := h
    cases ha

theorem Inv.restart {source : String} {agent : Agent} {accepted : List Accepted}
    (h : Inv source agent accepted) : Inv source (Agent.start agent.file) accepted := by
  have hkeeps : source ∈ agent.known → source ∈ (Agent.start agent.file).known := fun hin => by
    obtain ⟨keys, hfile, hkey, hfits⟩ := h.file hin
    rw [hfile]
    simp [Agent.start, hfits, hkey]
  exact ⟨start_card _, (Inv.start agent.file source).file, fun hlatest => hkeeps (h.latest hlatest)⟩

theorem latest_cons {accepted : List Accepted} {answer : Accepted} {source : String}
    (h : LatestManaged (answer :: accepted) source) :
    answer.tells source = some true ∨ answer.tells source = none ∧ LatestManaged accepted source ∨
      answer.tells source = some false ∧ ∃ a ∈ accepted, a.tells source = some true ∧
        answer.time ≤ a.time := by
  obtain ⟨a, ha, hmanaged, hnewest⟩ := h
  rcases List.mem_cons.mp ha with rfl | hin
  · exact .inl hmanaged
  cases htells : answer.tells source with
  | none =>
    exact .inr (.inl ⟨rfl, a, hin, hmanaged, fun b hb => hnewest b (List.mem_cons_of_mem _ hb)⟩)
  | some managed =>
    cases managed with
    | true => exact .inl rfl
    | false =>
      exact .inr (.inr ⟨rfl, a, hin, hmanaged,
        hnewest answer List.mem_cons_self (by simp [htells])⟩)

section Step

variable {source : String} {agent g : Agent} {accepted : List Accepted} {answer : Accepted}
  {answered : Bool} {write : Write} {error : Option String}

/-- What an answer that was taken over adds to those that were. -/
def acceptedAfter (accepted : List Accepted) (answer : Accepted) (answered : Bool)
    (error : Option String) : List Accepted :=
  if error = none ∧ answered = true then answer :: accepted else accepted

/-- **Taking an answer over in order keeps what is known of the source.** -/
theorem Inv.accept (h : Inv source agent accepted)
    (hsaid : ∀ managed, answer.said = .policies managed → managed.card ≤ MAX_SOURCES)
    (hordered : InOrder source agent accepted answer answered write)
    (htaken : agent.accept answer.said write = (g, error)) :
    Inv source g (acceptedAfter accepted answer answered error) := by
  have hcard : answer.said.Fits agent.known → (answer.said.leaves agent.known).card ≤ MAX_SOURCES :=
    fun hroom => leaves_card h.cap hroom hsaid
  -- the answer takes nothing of the source that was in by an answer
  have hlatest : LatestManaged (acceptedAfter accepted answer answered none) source →
      source ∈ answer.said.leaves agent.known := by
    intro hmanaged
    rw [mem_leaves]
    cases htells : answer.tells source with
    | none =>
      have hbefore : LatestManaged accepted source := by
        by_cases hanswered : answered = true
        · rw [acceptedAfter, if_pos ⟨rfl, hanswered⟩] at hmanaged
          rcases latest_cons hmanaged with hin | ⟨-, hrest⟩ | ⟨hout, -⟩
          · simp [htells] at hin
          · exact hrest
          · simp [htells] at hout
        · rw [acceptedAfter, if_neg fun hboth => hanswered hboth.2] at hmanaged
          exact hmanaged
      simp [h.latest hbefore]
    | some managed =>
      cases managed with
      | true => rfl
      | false =>
        exfalso
        have horder := (hordered htells).1
        by_cases hanswered : answered = true
        · rw [if_pos hanswered] at horder
          rw [acceptedAfter, if_pos ⟨rfl, hanswered⟩] at hmanaged
          rcases latest_cons hmanaged with hin | ⟨hnone, -⟩ | ⟨-, a, ha, hin, hnewer⟩
          · simp [htells] at hin
          · simp [htells] at hnone
          · have hold := horder a ha hin
            omega
        · rw [if_neg hanswered] at horder
          rw [acceptedAfter, if_neg fun hboth => hanswered hboth.2] at hmanaged
          exact horder hmanaged
  have hcases := accept_taken agent answer.said write
  rw [htaken] at hcases
  cases hcases with
  | kept hknown hfile hsame =>
    refine ⟨hknown ▸ h.cap, fun hin => ?_, fun hmanaged => ?_⟩
    · rw [hfile]
      exact h.file (hknown ▸ hin)
    · rw [hknown, ← hsame]
      exact hlatest hmanaged
  | written hknown hfile hroom =>
    refine ⟨hknown ▸ hcard hroom, fun hin => ?_, fun hmanaged => ?_⟩
    · exact ⟨_, hfile, hknown ▸ hin, hcard hroom⟩
    · rw [hknown]
      exact hlatest hmanaged
  | refused => exact h
  | unsure hwrite hknown hfile hroom =>
    refine ⟨hknown ▸ h.cap, fun hin => ?_, fun hmanaged => hknown ▸ h.latest hmanaged⟩
    rw [hknown] at hin
    refine ⟨_, hfile, ?_, hcard hroom⟩
    rw [mem_leaves]
    cases htells : answer.tells source with
    | none => simp [hin]
    | some managed =>
      cases managed with
      | true => rfl
      | false =>
        have hclear := (hordered htells).2 hin
        rw [hwrite] at hclear
        cases hclear

end Step

theorem Inv.step {source : String} {w w' : World} {event : Event}
    (h : Inv source w.agent w.accepted) (hordered : Orderly source w event)
    (hstep : w.step event = some w') : Inv source w'.agent w'.accepted := by
  cases event with
  | policies snapshot =>
    cases hstep
    exact h
  | budget other grant =>
    cases hstep
    exact h
  | missing other required =>
    unfold World.step at hstep
    dsimp only at hstep
    cases hfetch : w.agent.fetchMissing other required with
    | error message =>
      rw [hfetch] at hstep
      cases hstep
      exact h
    | ok grant =>
      rw [hfetch] at hstep
      cases hstep
      exact h
  | restart =>
    cases hstep
    exact h.restart
  | synchronize index write =>
    unfold World.step at hstep
    rw [Option.map_eq_some_iff] at hstep
    obtain ⟨answer, hanswer, rfl⟩ := hstep
    simp only [Orderly, Event.handles, hanswer, Option.bind_some] at hordered
    unfold World.synchronize
    cases heffects : answer.2.effects with
    | error message => exact h
    | ok effects =>
      simp only [heffects] at hordered ⊢
      have hsaid : ∀ managed, Said.policies (managedSources effects) = .policies managed →
          managed.card ≤ MAX_SOURCES := by
        intro managed hmanaged
        rw [← Said.policies.inj hmanaged]
        exact managedSources_card heffects
      cases htaken : w.agent.takeOver (managedSources effects) write with
      | mk agent error =>
        have hkept := Inv.accept h hsaid hordered htaken
        cases error with
        | none => exact hkept
        | some error => exact hkept
  | remember index write =>
    unfold World.step at hstep
    rw [Option.map_eq_some_iff] at hstep
    obtain ⟨reply, hreply, rfl⟩ := hstep
    simp only [Orderly, Event.handles, hreply, Option.bind_some] at hordered
    unfold World.remember
    cases hgrant : grantManaged reply.grant with
    | none => exact h
    | some managed =>
      simp only [hgrant, Option.map_some] at hordered ⊢
      have hsaid : ∀ sources, Said.grant reply.source managed = .policies sources →
          sources.card ≤ MAX_SOURCES := by
        intro sources hnot
        cases hnot
      cases htaken : w.agent.remember reply.source managed write with
      | mk agent error =>
        have hkept := Inv.accept h hsaid hordered htaken
        cases error with
        | none =>
          cases hanswered : reply.answered with
          | true => simpa [acceptedAfter, hanswered] using hkept
          | false => simpa [acceptedAfter, hanswered] using hkept
        | some error => simpa [acceptedAfter] using hkept

/-! ### Runs -/

/-- **In a run in order, a 404 does not release a source whose latest answer says it is managed.** -/
theorem missing_refused (file : Checkpoint) (events : List Event) (source : String) (w : World)
    (hrun : events.foldlM World.step (World.start file) = some w)
    (hordered : Steps.Meets World.step (Orderly source) events (World.start file))
    (hlatest : LatestManaged w.accepted source) (required : Bool) :
    w.agent.fetchMissing source required
      = .error "old Console cannot release a previously limited user" := by
  have hinv : Inv source w.agent w.accepted :=
    hordered.keeps (P := fun w => Inv source w.agent w.accepted) (fun _ _ _ h => Inv.step h)
      (Inv.start file source) hrun
  have hknown : source ∈ w.agent.known := hinv.latest hlatest
  unfold Agent.fetchMissing
  simp [hknown]

/-- A snapshot that assigns effects to sources. -/
def snapshotOf (rows : List (String × UserTrafficEffect)) : UserTrafficSnapshot where
  sha256 := "0000000000000000000000000000000000000000000000000000000000000000"
  sources := rows.map fun row => ⟨row.1, 1, row.2⟩

/-- A source is limited and, after a restart, managed no more; a grant that is newer suspends it. -/
def inOrder : List Event :=
  [.policies (snapshotOf [("a#b@c", .limited 1000000)]), .synchronize 0 .written, .restart,
    .policies (snapshotOf []), .synchronize 0 .written, .budget "a#b@c" (.suspended 10000),
    .remember 0 .written]

theorem missing_refused_inOrder : ∃ w, inOrder.foldlM World.step (World.start .absent) = some w ∧
      LatestManaged w.accepted "a#b@c" ∧ w.agent.fetchMissing "a#b@c" false
        = .error "old Console cannot release a previously limited user" := by
  have hruns : (inOrder.foldlM World.step (World.start .absent)).any
      (fun w => LatestManaged w.accepted "a#b@c") = true := by decide +kernel
  obtain ⟨w, hrun, hlatest⟩ := (Option.any_eq_true _ _).mp hruns
  have hordered : Steps.Meets World.step (Orderly "a#b@c") inOrder (World.start .absent) := by
    decide +kernel
  exact ⟨w, hrun, of_decide_eq_true hlatest,
    missing_refused .absent inOrder "a#b@c" w hrun hordered (of_decide_eq_true hlatest) false⟩

/-- The policies were read before the source was suspended and come after it. -/
def staleSnapshot : List Event :=
  [.policies (snapshotOf []), .budget "a#b@c" (.suspended 10000), .remember 0 .written,
    .synchronize 0 .written]

/-- The 404 was read before policies that suspend the source and is remembered after them. -/
def lateMissing : List Event :=
  [.missing "a#b@c" false, .policies (snapshotOf [("a#b@c", .suspended)]), .synchronize 0 .written,
    .remember 0 .written]

/-- A run after which the source is managed by the latest accepted answer, and a 404 releases
it. -/
def Released (events : List Event) : Prop :=
  ∃ w, events.foldlM World.step (World.start .absent) = some w ∧ LatestManaged w.accepted "a#b@c" ∧
    w.agent.fetchMissing "a#b@c" false = .ok (.unlimited BUDGET_TTL_MS false)

theorem released_of_run {events : List Event}
    (hrun : (events.foldlM World.step (World.start .absent)).any (fun w =>
      decide (LatestManaged w.accepted "a#b@c") &&
        decide (w.agent.unknownCheckpoint = false ∧ "a#b@c" ∉ w.agent.known ∧
          requiredAtStart false w.agent.file = false)) = true) : Released events := by
  obtain ⟨w, hw, hends⟩ := (Option.any_eq_true _ _).mp hrun
  rw [Bool.and_eq_true] at hends
  obtain ⟨hunknown, hknown, hrequired⟩ := of_decide_eq_true hends.2
  refine ⟨w, hw, of_decide_eq_true hends.1, ?_⟩
  unfold Agent.fetchMissing
  simp [hunknown, hknown, hrequired]

/-- **An older answer that comes later takes a suspended source out, and a 404 releases it.** -/
theorem missing_releases : Released staleSnapshot ∧ Released lateMissing := by
  refine ⟨released_of_run ?_, released_of_run ?_⟩
  · decide +kernel
  · decide +kernel

end Brocade.UserTraffic
