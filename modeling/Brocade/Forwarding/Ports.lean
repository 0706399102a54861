/-
Rounds on a machine where only ports stand in the way.

A listener takes a port for tcp, udp or both, and no two listeners take the same one.  On such
a machine a replacement and an addition fail exactly where another listener has a socket of
theirs, and nothing else fails.  What one turn of a round does then is a plain case
distinction (`reviseListener_runs`, `supplyListener_runs`): a listener that is not wanted
goes, one that is as wanted stays, and another is replaced unless a socket is taken.
-/
import Brocade.Forwarding.Reconciled

namespace Brocade.Forwarding

open Faulty

/-! ### Sockets -/

/-- A transport and a port. -/
structure Socket where
  tcp : Bool
  port : ℕ

def ForwardingProtocol.uses (protocol : ForwardingProtocol) (tcp : Bool) : Bool :=
  if tcp then protocol.usesTcp else protocol.usesUdp

/-- The sockets a rule's listener takes. -/
def ForwardingRuleDesired.Takes (rule : ForwardingRuleDesired) (socket : Socket) : Prop :=
  rule.listenPort = socket.port ∧ rule.protocol.uses socket.tcp = true

/-- Two rules have a socket in common. -/
def Clash (a b : ForwardingRuleDesired) : Prop :=
  a.listenPort = b.listenPort ∧ a.protocol.overlaps b.protocol = true

instance (a b : ForwardingRuleDesired) : Decidable (Clash a b) :=
  inferInstanceAs (Decidable (_ ∧ _))

/-- Another listener has a socket of the rule. -/
def Taken (listeners : ℤ → Option ForwardingRuleDesired) (rule : ForwardingRuleDesired) : Prop :=
  ∃ id other, id ≠ rule.id ∧ listeners id = some other ∧ Clash other rule

variable {a b previous replacement : ForwardingRuleDesired}

theorem clash_iff : Clash a b ↔ ∃ socket, a.Takes socket ∧ b.Takes socket := by
  constructor
  · rintro ⟨hport, hoverlap⟩
    rcases Bool.or_eq_true_iff.mp hoverlap with htcp | hudp
    · obtain ⟨ha, hb⟩ := Bool.and_eq_true_iff.mp htcp
      exact ⟨⟨true, b.listenPort⟩, ⟨hport, ha⟩, rfl, hb⟩
    · obtain ⟨ha, hb⟩ := Bool.and_eq_true_iff.mp hudp
      exact ⟨⟨false, b.listenPort⟩, ⟨hport, ha⟩, rfl, hb⟩
  · rintro ⟨⟨tcp, port⟩, ⟨ha, hua⟩, hb, hub⟩
    refine ⟨ha.trans hb.symm, ?_⟩
    cases tcp with
    | true => exact Bool.or_eq_true_iff.mpr (.inl (Bool.and_eq_true_iff.mpr ⟨hua, hub⟩))
    | false => exact Bool.or_eq_true_iff.mpr (.inr (Bool.and_eq_true_iff.mpr ⟨hua, hub⟩))

theorem Clash.symm (h : Clash a b) : Clash b a := by
  obtain ⟨socket, ha, hb⟩ := clash_iff.mp h
  exact clash_iff.mpr ⟨socket, hb, ha⟩

/-! ### The preflight of a replacement -/

/-- The replacement takes its port for a transport that the former rule does not. -/
def adds (previous replacement : ForwardingRuleDesired) (tcp : Bool) : Bool :=
  let portChanged := decide (previous.listenPort ≠ replacement.listenPort)
  replacement.protocol.uses tcp && (portChanged || !previous.protocol.uses tcp)

/-- Whether the sockets to come are free. -/
def bindAdded (bind : Socket → Except String Unit) (previous replacement : ForwardingRuleDesired)
    (tcp : Bool) : Except String Unit :=
  if adds previous replacement tcp then
    (bind ⟨tcp, replacement.listenPort⟩).mapError fun error =>
      let transport := if tcp then "TCP" else "UDP"
      s!"{transport} port {replacement.listenPort} is unavailable: {error}"
  else .ok ()

/-- Bind what the replacement takes and the former rule does not. -/
def preflightForwardingListener (bind : Socket → Except String Unit)
    (previous replacement : ForwardingRuleDesired) : Except String Unit := do
  bindAdded bind previous replacement true
  bindAdded bind previous replacement false

theorem adds_iff {tcp : Bool} :
    adds previous replacement tcp = true ↔ replacement.Takes ⟨tcp, replacement.listenPort⟩
        ∧ ¬previous.Takes ⟨tcp, replacement.listenPort⟩ := by
  unfold adds ForwardingRuleDesired.Takes
  by_cases hport : previous.listenPort = replacement.listenPort
  · simp [hport]
  · simp [hport]

theorem bindAdded_ok_iff {bind : Socket → Except String Unit} {tcp : Bool} :
    bindAdded bind previous replacement tcp = .ok ()
      ↔ (adds previous replacement tcp = true → bind ⟨tcp, replacement.listenPort⟩ = .ok ()) := by
  unfold bindAdded
  by_cases h : adds previous replacement tcp = true
  · rw [if_pos h]
    cases bind ⟨tcp, replacement.listenPort⟩ with
    | ok _ => simp [Except.mapError]
    | error _ => simp [Except.mapError, h]
  · rw [if_neg h]
    exact ⟨fun _ hadds => absurd hadds h, fun _ => rfl⟩

/-- **On a machine whose listeners are apart, the preflight fails exactly where a socket of the
replacement is taken.** -/
theorem preflight_refuses_iff {bind : Socket → Except String Unit}
    {listeners : ℤ → Option ForwardingRuleDesired} (hbind : ∀ socket, bind socket ≠ .ok ()
      ↔ ∃ id other, listeners id = some other ∧ other.Takes socket)
    (hprevious : listeners replacement.id = some previous)
    (hapart : ∀ id other, id ≠ replacement.id → listeners id = some other → ¬Clash other previous) :
    preflightForwardingListener bind previous replacement ≠ .ok ()
      ↔ Taken listeners replacement := by
  have hboth : preflightForwardingListener bind previous replacement = .ok ()
      ↔ ∀ tcp, bindAdded bind previous replacement tcp = .ok () := by
    unfold preflightForwardingListener
    cases htcp : bindAdded bind previous replacement true with
    | error e => exact ⟨nofun, fun h => absurd (h true) (by rw [htcp]; nofun)⟩
    | ok answer =>
      constructor
      · intro hudp tcp
        cases tcp with
        | true => exact htcp
        | false => exact hudp
      · intro h
        exact h false
  rw [Ne, hboth, not_forall]
  constructor
  · rintro ⟨tcp, hfails⟩
    rw [bindAdded_ok_iff, Classical.not_imp] at hfails
    obtain ⟨htakes, hnot⟩ := adds_iff.mp hfails.1
    obtain ⟨id, other, hother, hsocket⟩ := (hbind _).mp hfails.2
    refine ⟨id, other, ?_, hother, clash_iff.mpr ⟨_, hsocket, htakes⟩⟩
    rintro rfl
    rw [hprevious, Option.some.injEq] at hother
    exact hnot (hother ▸ hsocket)
  · rintro ⟨id, other, hid, hother, hclash⟩
    obtain ⟨⟨tcp, port⟩, hsocket, htakes⟩ := clash_iff.mp hclash
    have hport : port = replacement.listenPort := htakes.1.symm
    subst hport
    refine ⟨tcp, ?_⟩
    rw [bindAdded_ok_iff, Classical.not_imp]
    refine ⟨adds_iff.mpr ⟨htakes, fun hown => ?_⟩, (hbind _).mpr ⟨id, other, hother, hsocket⟩⟩
    exact hapart id other hid hother (clash_iff.mpr ⟨_, hsocket, hown⟩)

/-! ### Rounds that meet nothing else -/

/-- An operation that fails where a socket is taken, and does nothing then. -/
def Refuses (fault : Fault String) (taken : Prop) : Prop :=
  (¬taken ∧ fault = .none) ∨ (taken ∧ ∃ error, fault = .fails false error)

/-- The sites where sockets are bound. -/
def Site.binds : Site → Bool
  | .preflight _ => true
  | .install _ _ .add => true
  | _ => false

/-- A round up to its first listener: the ids it read. -/
def opened (round : Round) : Work (List ℤ) := do
  let start ← .get
  let checkpoint := readCheckpoint start.machine.disk
  let actual ← inboundTags round .firstTags
  remember fun _ => readBack (checkpoint.toOption.getD .none) actual
  writeCheckpoint round .begin
  reportObstacles round checkpoint
  return actual

theorem reconcileListeners_eq (round : Round) : reconcileListeners round = (do
      let actual ← opened round
      Act.each (reviseListener round) actual
      (if round.outboundReady then Act.each (supplyListener round) round.wanted.values
        else pure ())
      finish round) := by
  unfold opened
  simp only [Act.bind_assoc]
  rfl

/-- The state in which a round turns to a listener: those of smaller ids are done. -/
def reviseTurn (round : Round) (machine : Machine) (id : ℤ) : State :=
  ((do
    let actual ← opened round
    Act.each (reviseListener round) (actual.filter fun other => other < id) : Work Unit)
      (begun machine)).2

/-- The state in which a round turns to a wanted rule, to install it if it has no listener. -/
def supplyTurn (round : Round) (machine : Machine) (id : ℤ) : State :=
  ((do
    let actual ← opened round
    Act.each (reviseListener round) actual
    Act.each (supplyListener round) (round.wanted.values.filter fun rule => rule.id < id) :
      Work Unit) (begun machine)).2

/-- A round whose additions and preflights fail exactly on taken sockets, and nothing else.
Between a preflight and the addition after it only the listener itself changes. -/
structure OnPorts (round : Round) (machine : Machine) : Prop where
  preflight : ∀ id replacement, round.wanted.get? id = some replacement →
    Refuses (round.faults (.preflight id))
      (Taken (reviseTurn round machine id).machine.runtime.get? replacement)
  replace : ∀ id replacement, round.wanted.get? id = some replacement →
    Refuses (round.faults (.install .replace id .add))
      (Taken (reviseTurn round machine id).machine.runtime.get? replacement)
  add : ∀ id replacement, round.wanted.get? id = some replacement →
    Refuses (round.faults (.install .add id .add))
      (Taken (supplyTurn round machine id).machine.runtime.get? replacement)
  rest : ∀ site, site.binds = false → round.faults site = .none

/-! ### Operations that meet nothing -/

section Operations

variable {round : Round}

theorem Refuses.cases {fault : Fault String} {taken : Prop} (h : Refuses fault taken) :
    (taken → ∃ error, fault = .fails false error) ∧ (¬taken → fault = .none) := by
  rcases h with ⟨hfree, hfault⟩ | ⟨htaken, hfault⟩
  · exact ⟨fun htaken => absurd htaken hfree, fun _ => hfault⟩
  · exact ⟨fun _ => hfault, fun hfree => absurd htaken hfree⟩

/-- What a state is but for the file: listeners and memory. -/
structure Shows (s : State) (runtime : OrdMap ℤ ForwardingRuleDesired) (memory : Memory) : Prop where
  runtime : s.machine.runtime = runtime
  memory : s.memory = memory

variable {site : Site} {s : State}

theorem writeCheckpoint_returns (h : round.faults site = .none) :
    Returns (writeCheckpoint round site) s fun _ t =>
      Shows t s.machine.runtime s.memory ∧ ∃ checkpoint, t.machine.disk = .holds checkpoint
        ∧ checkpoint.applied.rules = s.memory.known.values := by
  unfold writeCheckpoint
  refine Returns.bind (Returns.get (Q := fun a t => a = s ∧ t = s) ⟨rfl, rfl⟩) ?_
  rintro _ _ ⟨rfl, rfl⟩
  exact Returns.perform h ⟨⟨rfl, rfl⟩, _, rfl, rfl⟩

theorem remember_returns {f : Memory → Memory} :
    Returns (remember f) s fun _ t => t = { s with memory := f s.memory } :=
  Returns.modify rfl

theorem inboundTags_returns (h : round.faults site = .none) :
    Returns (inboundTags round site) s fun actual t => actual = s.machine.runtime.keys ∧ t = s := by
  unfold inboundTags
  refine Returns.bind (Returns.perform (Q := fun _ t => t = s) h rfl) ?_
  rintro _ _ rfl
  exact ⟨_, _, rfl, rfl, rfl⟩

theorem removeInbound_returns {id : ℤ} (h : round.faults site = .none)
    (hthere : s.machine.runtime.contains id = true) :
    Returns (removeInbound round site id) s fun _ t =>
      Shows t (s.machine.runtime.erase id) s.memory := by
  unfold removeInbound
  refine Returns.bind (Returns.get (Q := fun a t => a = s ∧ t = s) ⟨rfl, rfl⟩) ?_
  rintro _ _ ⟨rfl, rfl⟩
  rw [if_pos hthere]
  exact Returns.perform h ⟨rfl, rfl⟩

theorem addInbound_returns {rule : ForwardingRuleDesired} (h : round.faults site = .none)
    (hfree : s.machine.runtime.contains rule.id = false) :
    Returns (addInbound round site rule) s fun _ t =>
      Shows t (s.machine.runtime.insert rule.id rule) s.memory := by
  unfold addInbound
  refine Returns.bind (Returns.get (Q := fun a t => a = s ∧ t = s) ⟨rfl, rfl⟩) ?_
  rintro _ _ ⟨rfl, rfl⟩
  rw [if_neg (by rw [hfree]; decide)]
  exact Returns.perform h ⟨rfl, rfl⟩

theorem addInbound_fails {rule : ForwardingRuleDesired} {error : String}
    (h : round.faults site = .fails false error)
    (hfree : s.machine.runtime.contains rule.id = false) :
    FailsIn (addInbound round site rule) s fun _ t => t = s := by
  unfold addInbound
  refine Returns.bind_fails (Returns.get (Q := fun a t => a = s ∧ t = s) ⟨rfl, rfl⟩) ?_
  rintro _ _ ⟨rfl, rfl⟩
  rw [if_neg (by rw [hfree]; decide)]
  exact FailsIn.perform h rfl

variable {stage : Stage} {rule : ForwardingRuleDesired} {s : State}

section

variable (hrest : ∀ operation, operation ≠ .add → round.faults (.install stage rule.id operation) = .none)

include hrest

theorem installListener_returns (hadd : round.faults (.install stage rule.id .add) = .none)
    (hfree : s.machine.runtime.contains rule.id = false) :
    Returns (installListener round stage rule) s fun _ t =>
      Shows t (s.machine.runtime.insert rule.id rule) (learn rule (announce rule.id s.memory)) := by
  unfold installListener
  refine remember_returns.bind ?_
  rintro _ _ rfl
  refine (writeCheckpoint_returns (hrest _ (by decide))).bind ?_
  rintro _ t ⟨ht, -⟩
  refine (addInbound_returns hadd (by rw [ht.runtime]; exact hfree)).handle ?_
  intro _ u hu
  refine remember_returns.bind ?_
  rintro _ _ rfl
  refine (writeCheckpoint_returns (hrest _ (by decide))).weaken ?_
  rintro _ v ⟨hv, -⟩
  refine ⟨?_, ?_⟩
  · rw [hv.runtime, hu.runtime, ht.runtime]
  · rw [hv.memory, hu.memory, ht.memory]

theorem cleanup_returns (hfree : s.machine.runtime.contains rule.id = false) :
    Returns (cleanup round stage rule) s fun _ t =>
      Shows t s.machine.runtime (withdraw rule.id s.memory) := by
  have habsent : rule.id ∉ s.machine.runtime.keys := by
    rw [OrdMap.mem_keys, hfree]
    decide
  unfold cleanup
  refine (inboundTags_returns (hrest _ (by decide))).bind ?_
  rintro _ t ⟨rfl, rfl⟩
  rw [if_neg habsent]
  refine (Returns.pure (Q := fun _ u => u = t) rfl).bind ?_
  rintro _ _ rfl
  refine remember_returns.bind ?_
  rintro _ _ rfl
  exact (writeCheckpoint_returns (hrest _ (by decide))).weaken fun _ _ h => h.1

theorem installListener_fails {error : String}
    (hadd : round.faults (.install stage rule.id .add) = .fails false error)
    (hfree : s.machine.runtime.contains rule.id = false) :
    FailsIn (installListener round stage rule) s fun _ t =>
      Shows t s.machine.runtime (withdraw rule.id (announce rule.id s.memory)) := by
  unfold installListener
  refine remember_returns.bind_fails ?_
  rintro _ _ rfl
  refine (writeCheckpoint_returns (hrest _ (by decide))).bind_fails ?_
  rintro _ t ⟨ht, -⟩
  refine (addInbound_fails hadd (by rw [ht.runtime]; exact hfree)).handle_fails ?_
  rintro error _ rfl
  refine Returns.bind_fails (Q := fun answer u => answer = .ok () ∧
    Shows u s.machine.runtime (withdraw rule.id (announce rule.id s.memory))) ?_ ?_
  · obtain ⟨answer, u, hrun, hu⟩ :=
      cleanup_returns hrest (by rw [ht.runtime]; exact hfree)
    rw [ht.runtime, ht.memory] at hu
    refine ⟨.ok answer, u, ?_, rfl, hu⟩
    unfold Act.attempt
    rw [hrun]
  · rintro _ u ⟨rfl, hu⟩
    exact ⟨error, u, rfl, hu⟩

end

end Operations

/-! ### What a round holds on to -/

/-- A rule but for its flag. -/
def unflagged (rule : ForwardingRuleDesired) : ForwardingRuleDesired :=
  { rule with allowPrivateTargets := none }

/-- What is known of the listeners is so.  The flag may have been taken over already where it
means nothing. -/
structure Tracked (round : Round) (runtime : OrdMap ℤ ForwardingRuleDesired) (memory : Memory) :
    Prop where
  keyed : ∀ id rule, runtime.get? id = some rule → rule.id = id
  same : ∀ id, (runtime.get? id).map unflagged = (memory.known.get? id).map unflagged
  exact : ∀ id replacement, round.wanted.get? id = some replacement →
    targetHostIsPublicIp replacement.targetHost = false →
    runtime.get? id = memory.known.get? id

/-- And every listener remains. -/
structure Held (round : Round) (runtime : OrdMap ℤ ForwardingRuleDesired) (memory : Memory) :
    Prop where
  tracked : Tracked round runtime memory
  remaining : ∀ id, id ∈ memory.remaining ↔ runtime.contains id = true

theorem levelFlag_unflagged (replacement : Option ForwardingRuleDesired) (rule : ForwardingRuleDesired) :
    unflagged (levelFlag replacement rule) = unflagged rule := by
  unfold levelFlag
  cases replacement with
  | none => rfl
  | some replacement =>
    show unflagged (if targetHostIsPublicIp replacement.targetHost = true then _ else _) = _
    split <;> rfl

theorem clash_unflagged (h : unflagged a = unflagged b) (c : ForwardingRuleDesired) :
    Clash a c ↔ Clash b c := by
  have hport : a.listenPort = b.listenPort := congrArg (·.listenPort) h
  have hprotocol : a.protocol = b.protocol := congrArg (·.protocol) h
  unfold Clash
  rw [hport, hprotocol]

theorem Taken.of_unflagged {f g : ℤ → Option ForwardingRuleDesired}
    (h : ∀ id, (f id).map unflagged = (g id).map unflagged) {rule : ForwardingRuleDesired}
    (htaken : Taken f rule) : Taken g rule := by
  obtain ⟨id, other, hid, hother, hclash⟩ := htaken
  have hmap := h id
  rw [hother] at hmap
  obtain ⟨twin, htwin, hflag⟩ := Option.map_eq_some_iff.mp hmap.symm
  exact ⟨id, twin, hid, htwin, (clash_unflagged hflag rule).mpr hclash⟩

theorem level_remaining (id : ℤ) (replacement : Option ForwardingRuleDesired) (memory : Memory) :
    (level id replacement memory).remaining = memory.remaining := by
  unfold level
  cases memory.known.get? id <;> rfl

namespace Tracked

variable {round : Round} {runtime : OrdMap ℤ ForwardingRuleDesired} {memory : Memory}

section

variable (h : Tracked round runtime memory)

include h

theorem contains (id : ℤ) : runtime.contains id = memory.known.contains id := by
  have hsame := congrArg Option.isSome (h.same id)
  rw [Option.isSome_map, Option.isSome_map] at hsame
  exact hsame

theorem taken_iff (rule : ForwardingRuleDesired) :
    Taken runtime.get? rule ↔ Taken memory.known.get? rule :=
  ⟨Taken.of_unflagged h.same, Taken.of_unflagged fun id => (h.same id).symm⟩

theorem known_id {id : ℤ} {rule : ForwardingRuleDesired} (hget : memory.known.get? id = some rule) :
    rule.id = id := by
  have hmap := h.same id
  rw [hget] at hmap
  obtain ⟨twin, htwin, hflag⟩ := Option.map_eq_some_iff.mp hmap
  exact (congrArg (·.id) hflag).symm.trans (h.keyed id twin htwin)

theorem of_known {memory' : Memory} (hknown : ∀ id, memory'.known.get? id = memory.known.get? id) :
    Tracked round runtime memory' where
  keyed := h.keyed
  same := by
    intro id
    rw [hknown]
    exact h.same id
  exact := by
    intro id
    rw [hknown]
    exact h.exact id

theorem level (id : ℤ) : Tracked round runtime (level id (round.wanted.get? id) memory) where
  keyed := h.keyed
  same := by
    intro other
    rw [get?_level, h.same other]
    by_cases hother : other = id
    · have hlevel : unflagged ∘ levelFlag (round.wanted.get? id) = unflagged :=
        funext fun rule => levelFlag_unflagged _ rule
      rw [if_pos hother, Option.map_map, hlevel, hother]
    · rw [if_neg hother]
  exact := by
    intro other replacement hwanted hpublic
    rw [get?_level, h.exact other replacement hwanted hpublic]
    by_cases hother : other = id
    · have hkeeps : ∀ rule, levelFlag (some replacement) rule = rule := by
        intro rule
        show (if targetHostIsPublicIp replacement.targetHost = true then _ else _ :
          ForwardingRuleDesired) = rule
        rw [hpublic]
        rfl
      rw [if_pos hother, ← hother, hwanted]
      cases memory.known.get? other with
      | none => rfl
      | some rule => exact (congrArg some (hkeeps rule)).symm
    · rw [if_neg hother]

theorem forget (id : ℤ) : Tracked round (runtime.erase id) (forget id memory) where
  keyed := by
    intro other rule hget
    rw [OrdMap.get?_erase] at hget
    split at hget
    · cases hget
    · exact h.keyed other rule hget
  same := by
    intro other
    show ((runtime.erase id).get? other).map unflagged = ((memory.known.erase id).get? other).map unflagged
    rw [OrdMap.get?_erase, OrdMap.get?_erase]
    split
    · rfl
    · exact h.same other
  exact := by
    intro other replacement hwanted hpublic
    show (runtime.erase id).get? other = (memory.known.erase id).get? other
    rw [OrdMap.get?_erase, OrdMap.get?_erase, h.exact other replacement hwanted hpublic]

theorem install {rule : ForwardingRuleDesired} {memory' : Memory}
    (hknown : memory'.known = memory.known.insert rule.id rule) :
    Tracked round (runtime.insert rule.id rule) memory' where
  keyed := by
    intro other installed hget
    rw [OrdMap.get?_insert] at hget
    split at hget
    · rename_i hother
      rw [← Option.some.inj hget, hother]
    · exact h.keyed other installed hget
  same := by
    intro other
    rw [hknown, OrdMap.get?_insert, OrdMap.get?_insert]
    split
    · rfl
    · exact h.same other
  exact := by
    intro other replacement hwanted hpublic
    rw [hknown, OrdMap.get?_insert, OrdMap.get?_insert, h.exact other replacement hwanted hpublic]

end

end Tracked

namespace Held

variable {round : Round} {runtime : OrdMap ℤ ForwardingRuleDesired} {memory : Memory}

theorem level (h : Held round runtime memory) (id : ℤ) :
    Held round runtime (level id (round.wanted.get? id) memory) := by
  refine ⟨h.tracked.level id, ?_⟩
  rw [level_remaining]
  exact h.remaining

theorem forget (h : Held round runtime memory) (id : ℤ) :
    Held round (runtime.erase id) (forget id memory) := by
  refine ⟨h.tracked.forget id, fun other => ?_⟩
  show other ∈ memory.remaining.erase id ↔ ((runtime.erase id).get? other).isSome = true
  rw [Finset.mem_erase, h.remaining, OrdMap.get?_erase]
  by_cases hother : other = id
  · simp [hother]
  · rw [if_neg hother]
    exact ⟨fun hmem => hmem.2, fun hmem => ⟨hother, hmem⟩⟩

theorem install (h : Held round runtime memory) {rule : ForwardingRuleDesired} {memory' : Memory}
    (hknown : memory'.known = memory.known.insert rule.id rule)
    (hremaining : memory'.remaining = insert rule.id memory.remaining) :
    Held round (runtime.insert rule.id rule) memory' := by
  refine ⟨h.tracked.install hknown, fun other => ?_⟩
  show _ ↔ ((runtime.insert rule.id rule).get? other).isSome = true
  rw [hremaining, Finset.mem_insert, h.remaining, OrdMap.get?_insert]
  by_cases hother : other = rule.id
  · simp [hother]
  · rw [if_neg hother]
    exact or_iff_right hother

end Held

/-! ### One listener's turn -/

section Turns

variable {round : Round} {id : ℤ} {s : State}

/-- What a round does with a listener of its snapshot. -/
inductive Turned (round : Round) (id : ℤ) (previous : ForwardingRuleDesired) (s t : State) : Prop where
  | gone (hwanted : round.wanted.get? id = none) (hknown : t.memory.known.get? id = none)
      (herrors : t.memory.errors = s.memory.errors)
  | settled (replacement : ForwardingRuleDesired)
      (hwanted : round.wanted.get? id = some replacement)
      (hfree : levelFlag (some replacement) previous = replacement
        ∨ ¬Taken s.memory.known.get? replacement)
      (hknown : t.memory.known.get? id = some replacement)
      (herrors : t.memory.errors = s.memory.errors)
  | stuck (replacement : ForwardingRuleDesired)
      (hwanted : round.wanted.get? id = some replacement)
      (hdiffers : levelFlag (some replacement) previous ≠ replacement)
      (htaken : Taken s.memory.known.get? replacement)
      (hknown : t.memory.known.get? id = some (levelFlag (some replacement) previous))
      (herrors : t.memory.errors.messages ≠ [])

/-- What a turn is sure to leave. -/
structure Turn (round : Round) (id : ℤ) (previous : ForwardingRuleDesired) (s t : State) : Prop where
  held : Held round t.machine.runtime t.memory
  others : ∀ other, other ≠ id → t.memory.known.get? other = s.memory.known.get? other
  turned : Turned round id previous s t

theorem install_calm {stage : Stage} (hrest : ∀ site, site.binds = false → round.faults site = .none)
    (operation : Install) (h : operation ≠ .add) :
    round.faults (.install stage id operation) = .none := by
  refine hrest _ ?_
  cases operation with
  | add => exact absurd rfl h
  | announce => rfl
  | tags => rfl
  | cleanup => rfl
  | withdrawn => rfl
  | record => rfl

theorem removeListener_gone {previous : Option ForwardingRuleDesired}
    (hrest : ∀ site, site.binds = false → round.faults site = .none)
    (hthere : s.machine.runtime.contains id = true) (hwanted : round.wanted.get? id = none) :
    Returns (removeListener round id previous) s fun _ t =>
      Shows t (s.machine.runtime.erase id) (forget id s.memory) := by
  unfold removeListener
  refine (removeInbound_returns (hrest _ rfl) hthere).handle ?_
  intro _ t ht
  refine remember_returns.bind ?_
  rintro _ _ rfl
  refine (writeCheckpoint_returns (hrest _ rfl)).bind ?_
  rintro _ u ⟨hu, -⟩
  rw [hwanted, Option.filter_none]
  refine Returns.pure ⟨?_, ?_⟩
  · rw [hu.runtime, ht.runtime]
  · rw [hu.memory, ht.memory]

variable {replacement previous : ForwardingRuleDesired}

theorem removeListener_replaced {previous : Option ForwardingRuleDesired}
    (hready : round.outboundReady = true)
    (hrest : ∀ site, site.binds = false → round.faults site = .none)
    (hadd : round.faults (.install .replace id .add) = .none)
    (hthere : s.machine.runtime.contains id = true)
    (hwanted : round.wanted.get? id = some replacement) :
    Returns (removeListener round id previous) s fun _ t =>
      t.machine.runtime = (s.machine.runtime.erase id).insert id replacement
        ∧ t.memory.known = (s.memory.known.erase id).insert id replacement
        ∧ t.memory.remaining = insert id (s.memory.remaining.erase id)
        ∧ t.memory.errors = s.memory.errors := by
  obtain ⟨rfl, -, -⟩ := wanted_spec hwanted
  unfold removeListener
  refine (removeInbound_returns (hrest _ rfl) hthere).handle ?_
  intro _ t ht
  refine remember_returns.bind ?_
  rintro _ _ rfl
  refine (writeCheckpoint_returns (hrest _ rfl)).bind ?_
  rintro _ u ⟨hu, -⟩
  rw [hwanted, Option.filter_some, if_pos hready]
  show Returns (reinstall round replacement.id previous replacement) u _
  have hfree : u.machine.runtime.contains replacement.id = false := by
    rw [hu.runtime, ht.runtime]
    show ((s.machine.runtime.erase replacement.id).get? replacement.id).isSome = false
    rw [OrdMap.get?_erase, if_pos rfl]
    rfl
  unfold reinstall
  refine (installListener_returns (install_calm hrest) hadd hfree).handle ?_
  intro _ v hv
  refine remember_returns.weaken ?_
  rintro _ _ rfl
  refine ⟨?_, ?_, ?_, ?_⟩
  · rw [hv.runtime, hu.runtime, ht.runtime]
  · show v.memory.known = _
    rw [hv.memory, hu.memory, ht.memory]
    rfl
  · show insert replacement.id v.memory.remaining = _
    rw [hv.memory, hu.memory, ht.memory]
    rfl
  · show v.memory.errors = _
    rw [hv.memory, hu.memory, ht.memory]
    rfl

theorem replaceListener_gone {previous : Option ForwardingRuleDesired}
    (hrest : ∀ site, site.binds = false → round.faults site = .none)
    (hthere : s.machine.runtime.contains id = true) (hwanted : round.wanted.get? id = none) :
    Returns (replaceListener round id previous) s fun _ t =>
      Shows t (s.machine.runtime.erase id) (forget id s.memory) := by
  have hpasses : preflight round id previous = Act.pure () := by
    unfold preflight
    rw [if_neg (by simp [OrdMap.contains, hwanted])]
    rfl
  unfold replaceListener
  rw [hpasses]
  refine (Returns.pure (Q := fun _ t => t = s) rfl).handle ?_
  rintro ⟨⟩ t ht
  rw [ht]
  exact removeListener_gone hrest hthere hwanted

theorem preflight_asks (hwanted : round.wanted.get? id = some replacement) :
    preflight round id (some previous) = ask (round.faults (.preflight id)) := by
  unfold preflight
  rw [if_pos (by simp [OrdMap.contains, hwanted])]

theorem replaceListener_stuck {error : String} (hwanted : round.wanted.get? id = some replacement)
    (hfault : round.faults (.preflight id) = .fails false error) :
    Returns (replaceListener round id (some previous)) s fun _ t =>
      t.machine = s.machine ∧ t.memory.known = s.memory.known
        ∧ t.memory.remaining = s.memory.remaining ∧ t.memory.errors.messages ≠ [] := by
  unfold replaceListener
  rw [preflight_asks hwanted]
  refine (FailsIn.perform (F := fun _ t => t = s) hfault rfl).handle ?_
  intro error t ht
  rw [ht]
  refine remember_returns.weaken ?_
  rintro _ _ rfl
  exact ⟨rfl, rfl, rfl, pushRule_ne_nil _ _ _⟩

theorem replaceListener_replaced (hready : round.outboundReady = true)
    (hrest : ∀ site, site.binds = false → round.faults site = .none)
    (hfault : round.faults (.preflight id) = .none)
    (hadd : round.faults (.install .replace id .add) = .none)
    (hthere : s.machine.runtime.contains id = true)
    (hwanted : round.wanted.get? id = some replacement) :
    Returns (replaceListener round id (some previous)) s fun _ t =>
      t.machine.runtime = (s.machine.runtime.erase id).insert id replacement
        ∧ t.memory.known = (s.memory.known.erase id).insert id replacement
        ∧ t.memory.remaining = insert id (s.memory.remaining.erase id)
        ∧ t.memory.errors = s.memory.errors := by
  unfold replaceListener
  rw [preflight_asks hwanted]
  refine (Returns.perform (Q := fun _ t => t = s) hfault rfl).handle ?_
  rintro ⟨⟩ t ht
  rw [ht]
  exact removeListener_replaced hready hrest hadd hthere hwanted

theorem condemned_wanted (hready : round.outboundReady = true)
    (hwanted : round.wanted.get? id = some replacement) :
    condemned round id false (some previous) = true ↔ previous ≠ replacement := by
  unfold condemned
  rw [hwanted, hready]
  by_cases hsame : previous = replacement
  · subst hsame
    simp [policy_unchanged hwanted]
  · simp [hsame]

theorem reviseListener_known {Q : Unit → State → Prop}
    (hprevious : s.memory.known.get? id = some previous) (hrevise : Returns
      (if condemned round id false (some (levelFlag (round.wanted.get? id) previous)) = true then
        replaceListener round id (some (levelFlag (round.wanted.get? id) previous))
      else pure ()) { s with memory := level id (round.wanted.get? id) s.memory } Q) :
    Returns (reviseListener round id) s Q := by
  have hknown : s.memory.known.contains id = true := OrdMap.contains_iff.mpr ⟨previous, hprevious⟩
  have hlevelled : (level id (round.wanted.get? id) s.memory).known.get? id
      = some (levelFlag (round.wanted.get? id) previous) := by
    rw [get?_level, if_pos rfl, hprevious]
    rfl
  unfold reviseListener
  refine Returns.bind (Returns.get (Q := fun a t => a = s ∧ t = s) ⟨rfl, rfl⟩) ?_
  rintro _ t ⟨rfl, rfl⟩
  refine remember_returns.bind ?_
  rintro _ _ rfl
  refine Returns.bind (Returns.get (Q := fun a u => u = { t with
    memory := level id (round.wanted.get? id) t.memory } ∧ a = u) ⟨rfl, rfl⟩) ?_
  rintro a u ⟨rfl, rfl⟩
  simp only [hknown, hlevelled, Bool.not_true, Bool.false_and, Option.isNone_some, Bool.and_false,
    Bool.false_eq_true, if_false]
  exact hrevise

/-- **One listener's turn.** -/
theorem reviseListener_returns (hready : round.outboundReady = true)
    (hrest : ∀ site, site.binds = false → round.faults site = .none)
    (hheld : Held round s.machine.runtime s.memory)
    (hprevious : s.memory.known.get? id = some previous)
    (hpreflight : ∀ replacement, round.wanted.get? id = some replacement →
      Refuses (round.faults (.preflight id)) (Taken s.machine.runtime.get? replacement))
    (hadd : ∀ replacement, round.wanted.get? id = some replacement →
      Refuses (round.faults (.install .replace id .add))
        (Taken s.machine.runtime.get? replacement)) :
    Returns (reviseListener round id) s fun _ t => Turn round id previous s t := by
  have hknown : s.memory.known.contains id = true := OrdMap.contains_iff.mpr ⟨previous, hprevious⟩
  have hthere : s.machine.runtime.contains id = true := by rw [hheld.tracked.contains, hknown]
  have hlevel := hheld.level id
  have hlevelled : (level id (round.wanted.get? id) s.memory).known.get? id
      = some (levelFlag (round.wanted.get? id) previous) := by
    rw [get?_level, if_pos rfl, hprevious]
    rfl
  have hothers : ∀ other, other ≠ id →
      (level id (round.wanted.get? id) s.memory).known.get? other = s.memory.known.get? other := by
    intro other hother
    rw [get?_level, if_neg hother]
  have herrors := level_errors id (round.wanted.get? id) s.memory
  refine reviseListener_known hprevious ?_
  cases hwanted : round.wanted.get? id with
  | none =>
    rw [hwanted] at hlevel hothers herrors
    rw [if_pos (by unfold condemned; rw [hwanted]; rfl)]
    refine (replaceListener_gone hrest (by exact hthere) hwanted).weaken ?_
    intro _ t ht
    refine ⟨?_, ?_, .gone hwanted ?_ ?_⟩
    · rw [ht.runtime, ht.memory]
      exact hlevel.forget id
    · intro other hother
      rw [ht.memory, ← hothers other hother]
      exact (OrdMap.get?_erase _ _ _).trans (if_neg hother)
    · rw [ht.memory]
      exact (OrdMap.get?_erase _ _ _).trans (if_pos rfl)
    · rw [ht.memory]
      exact herrors
  | some replacement =>
    rw [hwanted] at hlevel hothers herrors hlevelled
    have htaken := hheld.tracked.taken_iff replacement
    by_cases hsame : levelFlag (some replacement) previous = replacement
    · rw [if_neg (by rw [condemned_wanted hready hwanted]; exact not_not.mpr hsame)]
      refine Returns.pure ⟨hlevel, hothers, .settled replacement hwanted (.inl hsame) ?_ herrors⟩
      exact hlevelled.trans (congrArg some hsame)
    · rw [if_pos ((condemned_wanted hready hwanted).mpr hsame)]
      by_cases hblocked : Taken s.memory.known.get? replacement
      · obtain ⟨error, hfault⟩ :=
          (hpreflight replacement hwanted).cases.1 (htaken.mpr hblocked)
        refine (replaceListener_stuck hwanted hfault).weaken ?_
        rintro _ t ⟨hmachine, hknown', hremaining, hmessages⟩
        rw [← hknown'] at hlevelled hothers
        refine ⟨?_, hothers, .stuck replacement hwanted hsame hblocked hlevelled hmessages⟩
        rw [hmachine]
        refine ⟨hlevel.tracked.of_known fun other => congrArg (·.get? other) hknown', ?_⟩
        rw [hremaining]
        exact hlevel.remaining
      · have hfault := (hpreflight replacement hwanted).cases.2 (htaken.not.mpr hblocked)
        have hbind := (hadd replacement hwanted).cases.2 (htaken.not.mpr hblocked)
        refine (replaceListener_replaced hready hrest hfault hbind (by exact hthere)
          hwanted).weaken ?_
        rintro _ t ⟨hruntime, hmemory, hremaining, herrors'⟩
        obtain ⟨hid, -, -⟩ := wanted_spec hwanted
        have hafter : t.memory.known
            = (forget id (level id (some replacement) s.memory)).known.insert replacement.id
              replacement := by
          rw [hid]
          exact hmemory
        have hinstalled := (hlevel.forget id).install hafter (by rw [hid]; exact hremaining)
        rw [hid] at hinstalled
        refine ⟨?_, ?_, .settled replacement hwanted (.inr hblocked) ?_ (herrors'.trans herrors)⟩
        · rw [hruntime]
          exact hinstalled
        · intro other hother
          rw [hmemory, OrdMap.get?_insert, if_neg hother, OrdMap.get?_erase, if_neg hother]
          exact hothers other hother
        · rw [hmemory, OrdMap.get?_insert, if_pos rfl]

/-- What a round does for a wanted rule without a listener. -/
inductive Supplied (replacement : ForwardingRuleDesired) (s t : State) : Prop where
  | settled (hfree : ¬Taken s.memory.known.get? replacement)
      (hknown : t.memory.known.get? replacement.id = some replacement)
      (herrors : t.memory.errors = s.memory.errors)
  | stuck (htaken : Taken s.memory.known.get? replacement)
      (hknown : t.memory.known.get? replacement.id = none)
      (herrors : t.memory.errors.messages ≠ [])

theorem supplyListener_kept {rule : ForwardingRuleDesired} (h : rule.id ∈ s.memory.remaining) :
    Returns (supplyListener round rule) s fun _ t => t = s := by
  unfold supplyListener
  refine Returns.bind (Returns.get (Q := fun a t => a = s ∧ t = s) ⟨rfl, rfl⟩) ?_
  rintro _ t ⟨rfl, rfl⟩
  rw [if_pos h]
  exact Returns.pure rfl

/-- **The turn of a wanted rule that has no listener.** -/
theorem supplyListener_returns {rule : ForwardingRuleDesired}
    (hrest : ∀ site, site.binds = false → round.faults site = .none)
    (htracked : Tracked round s.machine.runtime s.memory)
    (hremaining : rule.id ∉ s.memory.remaining) (hfree : s.machine.runtime.contains rule.id = false)
    (hadd : Refuses (round.faults (.install .add rule.id .add))
      (Taken s.machine.runtime.get? rule)) : Returns (supplyListener round rule) s fun _ t =>
      Tracked round t.machine.runtime t.memory ∧ t.memory.remaining = s.memory.remaining
        ∧ (∀ other, other ≠ rule.id → t.memory.known.get? other = s.memory.known.get? other)
        ∧ Supplied rule s t := by
  have hunknown : s.memory.known.get? rule.id = none := by
    have hcontains := htracked.contains rule.id
    rw [hfree] at hcontains
    exact Option.isSome_eq_false_iff.mp hcontains.symm |> Option.isNone_iff_eq_none.mp
  have herased : ∀ other, (s.memory.known.erase rule.id).get? other = s.memory.known.get? other := by
    intro other
    rw [OrdMap.get?_erase]
    split
    · rename_i hother
      rw [hother, hunknown]
    · rfl
  have htaken := htracked.taken_iff rule
  unfold supplyListener
  refine Returns.bind (Returns.get (Q := fun a t => a = s ∧ t = s) ⟨rfl, rfl⟩) ?_
  rintro _ t ⟨rfl, rfl⟩
  rw [if_neg hremaining]
  refine remember_returns.bind ?_
  rintro _ _ rfl
  by_cases hblocked : Taken t.memory.known.get? rule
  · obtain ⟨error, hfault⟩ := hadd.cases.1 (htaken.mpr hblocked)
    refine (installListener_fails (install_calm hrest) hfault (by exact hfree)).handle ?_
    intro error u hu
    refine remember_returns.weaken ?_
    rintro _ _ rfl
    have hknown : ∀ other, u.memory.known.get? other = t.memory.known.get? other := by
      intro other
      rw [hu.memory, ← herased other]
      rfl
    refine ⟨?_, ?_, fun other _ => hknown other, .stuck hblocked ?_ (pushRule_ne_nil _ _ _)⟩
    · show Tracked round u.machine.runtime _
      rw [hu.runtime]
      exact htracked.of_known hknown
    · show u.memory.remaining = _
      rw [hu.memory]
      rfl
    · exact (hknown rule.id).trans hunknown
  · have hfault := hadd.cases.2 (htaken.not.mpr hblocked)
    refine (installListener_returns (install_calm hrest) hfault (by exact hfree)).handle ?_
    rintro ⟨⟩ u hu
    have hknown : u.memory.known = (t.memory.known.erase rule.id).insert rule.id rule := by
      rw [hu.memory]
      rfl
    refine Returns.pure ⟨?_, ?_, ?_, .settled hblocked ?_ ?_⟩
    · rw [hu.runtime]
      have hmid : Tracked round t.machine.runtime
          { t.memory with known := t.memory.known.erase rule.id } := htracked.of_known herased
      exact hmid.install hknown
    · rw [hu.memory]
      rfl
    · intro other hother
      rw [hknown, OrdMap.get?_insert, if_neg hother, herased]
    · rw [hknown, OrdMap.get?_insert, if_pos rfl]
    · rw [hu.memory]
      rfl

end Turns

end Brocade.Forwarding
