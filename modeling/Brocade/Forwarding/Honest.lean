/-
What the checkpoint says of the listeners is so, whatever a round meets.

A recorded rule is either not installed or installed as it is recorded, but for the flag of a
fixed public address, which means nothing there.  The same holds of what a round remembers, and a
write makes the first out of the second.  An addition is safe where the record of its rule is
missing or says the very same, and that is why an installation writes before it adds.

Two things can undo it, and `Careful` names them: taking over the flag of a public replacement
into the record of a rule that is not public, and losing the write after the replacement was
added, upon which the former rule is installed over a record of its replacement.
-/
import Brocade.Forwarding.Reconcile

namespace Brocade.Forwarding

open Faulty

/-- Installed as recorded, up to the flag of a fixed public address. -/
def Matches (installed recorded : ForwardingRuleDesired) : Prop :=
  installed = recorded ∨ (targetHostIsPublicIp recorded.targetHost = true
      ∧ { installed with allowPrivateTargets := recorded.allowPrivateTargets } = recorded)

instance (installed recorded : ForwardingRuleDesired) : Decidable (Matches installed recorded) :=
  inferInstanceAs (Decidable (_ ∨ _))

/-- Neither blocked, nor installed as anything else. -/
structure Proven (runtime : OrdMap ℤ ForwardingRuleDesired) (rule : ForwardingRuleDesired) :
    Prop where
  unblocked : blockedTarget rule.targetHost (allowsPrivate rule) = false
  faithful : ∀ installed, runtime.get? rule.id = some installed → Matches installed rule

/-- What the checkpoint records of a listener is so. -/
def Machine.Honest (machine : Machine) : Prop :=
  ∀ rule ∈ machine.recorded, Proven machine.runtime rule

/-- What a round may install. -/
def MayInstall (round : Round) (rule : ForwardingRuleDesired) : Prop :=
  blockedTarget rule.targetHost (allowsPrivate rule) = false
    ∧ ∃ replacement, round.wanted.get? rule.id = some replacement
      ∧ (allowsPrivate rule = true → allowsPrivate replacement = true)

/-- No record of the listener is the definition that is wanted. -/
def Expendable (round : Round) (machine : Machine) (id : ℤ) : Prop :=
  ∀ rule ∈ machine.recorded, rule.id = id → round.wanted.get? id ≠ some rule

/-- What holds of every change of a round. -/
structure Moment.Sound (round : Round) (moment : Moment) : Prop where
  honest : moment.after.Honest
  expendable : ∀ id, moment.change = .removed id → Expendable round moment.before id
  mayInstall : ∀ rule, moment.change = .added rule → MayInstall round rule

/-- What a round reads of a rule in the file. -/
def Machine.record (machine : Machine) (id : ℤ) : Option ForwardingRuleDesired :=
  OrdMap.lastOf id (machine.recorded.map fun rule => (rule.id, rule))

/-- Nothing in the installation of a rule fails. -/
structure Calm (round : Round) (stage : Stage) (id : ℤ) : Prop where
  announce : ¬(round.faults (.install stage id .announce)).Fails
  add : ¬(round.faults (.install stage id .add)).Fails
  record : ¬(round.faults (.install stage id .record)).Fails

/-- The listener is replaced, unless the round is cut off. -/
structure CarriedOut (round : Round) (id : ℤ) : Prop where
  outboundReady : round.outboundReady = true
  preflight : ¬(round.faults (.preflight id)).Fails
  remove : ¬(round.faults (.remove id)).Fails
  calm : Calm round .replace id

/-- A listener with a record and another definition wanted for it. -/
structure Replaced (round : Round) (machine : Machine) (id : ℤ)
    (previous replacement : ForwardingRuleDesired) : Prop where
  previous : machine.record id = some previous
  installed : machine.runtime.contains id = true
  replacement : round.wanted.get? id = some replacement

/-- The round does not meet what undoes the record. -/
structure Careful (round : Round) (machine : Machine) : Prop where
  /-- The flag of a public address is taken over from a public address only. -/
  flag : ∀ id previous replacement, Replaced round machine id previous replacement →
    targetHostIsPublicIp replacement.targetHost = true →
    targetHostIsPublicIp previous.targetHost = true
      ∨ previous.allowPrivateTargets = replacement.allowPrivateTargets ∨ CarriedOut round id
  /-- Where the former rule could come back, the record of its replacement is not lost. -/
  record : ∀ id previous replacement, Replaced round machine id previous replacement →
    round.outboundReady = true → levelFlag (some replacement) previous ≠ replacement →
    restorable replacement (levelFlag (some replacement) previous) = true →
    ¬(round.faults (.install .replace id .record)).Fails

/-! ### Rules and listeners -/

section Listeners

variable {runtime : OrdMap ℤ ForwardingRuleDesired} {rule other : ForwardingRuleDesired} {id : ℤ}

theorem Proven.erase (h : Proven runtime rule) : Proven (runtime.erase id) rule := by
  refine ⟨h.unblocked, fun installed hget => h.faithful installed ?_⟩
  rw [OrdMap.get?_erase] at hget
  by_cases hid : rule.id = id
  · rw [if_pos hid] at hget
    cases hget
  · rwa [if_neg hid] at hget

theorem Proven.insert (h : Proven runtime rule) (hself : rule.id = other.id → rule = other) :
    Proven (runtime.insert other.id other) rule := by
  refine ⟨h.unblocked, fun installed hget => ?_⟩
  rw [OrdMap.get?_insert] at hget
  by_cases hid : rule.id = other.id
  · rw [if_pos hid, Option.some.injEq] at hget
    exact Or.inl (hget.symm.trans (hself hid).symm)
  · rw [if_neg hid] at hget
    exact h.faithful installed hget

/-- The same definition under another flag, where the flag means nothing or is the same. -/
theorem Proven.level {replacement : ForwardingRuleDesired} (h : Proven runtime rule)
    (hflag : targetHostIsPublicIp replacement.targetHost = true →
      targetHostIsPublicIp rule.targetHost = true
        ∨ rule.allowPrivateTargets = replacement.allowPrivateTargets) :
    Proven runtime (levelFlag (some replacement) rule) := by
  unfold levelFlag
  by_cases hpublic : targetHostIsPublicIp replacement.targetHost = true
  · show Proven runtime (if targetHostIsPublicIp replacement.targetHost = true then _ else _)
    rw [if_pos hpublic]
    rcases hflag hpublic with hrule | hsame
    · refine ⟨not_blocked_of_public hrule _, fun installed hget => Or.inr ⟨hrule, ?_⟩⟩
      rcases h.faithful installed hget with rfl | ⟨-, hlevel⟩
      · rfl
      · rw [← hlevel]
    · have heq : { rule with allowPrivateTargets := replacement.allowPrivateTargets } = rule := by
        rw [← hsame]
      rw [heq]
      exact h
  · show Proven runtime (if targetHostIsPublicIp replacement.targetHost = true then _ else _)
    rw [if_neg hpublic]
    exact h

theorem levelFlag_id (replacement : Option ForwardingRuleDesired) :
    (levelFlag replacement rule).id = rule.id := by
  unfold levelFlag
  cases replacement with
  | none => rfl
  | some replacement =>
    show (if targetHostIsPublicIp replacement.targetHost = true then _ else _ :
      ForwardingRuleDesired).id = rule.id
    split <;> rfl

theorem levelFlag_targetHost (replacement : Option ForwardingRuleDesired) :
    (levelFlag replacement rule).targetHost = rule.targetHost := by
  unfold levelFlag
  cases replacement with
  | none => rfl
  | some replacement =>
    show (if targetHostIsPublicIp replacement.targetHost = true then _ else _ :
      ForwardingRuleDesired).targetHost = rule.targetHost
    split <;> rfl

theorem levelFlag_self : levelFlag (some rule) rule = rule := by
  unfold levelFlag
  show (if targetHostIsPublicIp rule.targetHost = true then _ else _ : ForwardingRuleDesired) = rule
  split <;> rfl

end Listeners

/-! ### The invariant -/

/-- What holds between the operations of a round.

`todo` are the listeners it has yet to look at; what is remembered of them is what was read and
what the file says.  `loose` is the one whose memory is not trusted at the moment, and `noted`
is what has been reported already. -/
structure Inv (round : Round) (start : Machine) (noted : Prop) (todo : List ℤ)
    (loose : Option ℤ) (s : State) : Prop where
  honest : s.machine.Honest
  moments : ∀ moment ∈ s.moments, moment.Sound round
  known : ∀ id rule, s.memory.known.get? id = some rule → some id ≠ loose →
    rule.id = id ∧ Proven s.machine.runtime rule
  linked : ∀ rule ∈ s.machine.recorded, rule.id ∈ todo → s.memory.known.get? rule.id = some rule
  unread : ∀ id ∈ todo, ∀ rule, s.memory.known.get? id = some rule → start.record id = some rule
  present : ∀ id ∈ todo, start.runtime.contains id = true ∧ s.machine.runtime.contains id = true
  noted : noted → s.memory.errors.messages ≠ []

/-- The file says of every rule it has what is remembered. -/
def Synced (s : State) : Prop :=
  ∀ rule ∈ s.machine.recorded, s.memory.known.get? rule.id = some rule

/-- What holds wherever a round ends. -/
def Safe (round : Round) (s : State) : Prop :=
  s.machine.Honest ∧ ∀ moment ∈ s.moments, moment.Sound round

namespace Inv

variable {round : Round} {start : Machine} {noted : Prop} {todo : List ℤ} {loose : Option ℤ}
  {s : State}

theorem safe (h : Inv round start noted todo loose s) : Safe round s := ⟨h.honest, h.moments⟩

theorem remembered (h : Inv round start noted todo loose s) {memory : Memory}
    (hknown : memory.known = s.memory.known)
    (herrors : s.memory.errors.messages ≠ [] → memory.errors.messages ≠ []) :
    Inv round start noted todo loose { s with memory } where
  honest := h.honest
  moments := h.moments
  known := by
    show ∀ id rule, memory.known.get? id = some rule → _
    rw [hknown]
    exact h.known
  linked := by
    show ∀ rule ∈ s.machine.recorded, rule.id ∈ todo → memory.known.get? rule.id = some rule
    rw [hknown]
    exact h.linked
  unread := by
    show ∀ id ∈ todo, ∀ rule, memory.known.get? id = some rule → _
    rw [hknown]
    exact h.unread
  present := h.present
  noted := fun hnoted => herrors (h.noted hnoted)

theorem erased (h : Inv round start noted todo loose s) (id : ℤ) (hid : id ∉ todo)
    (hloose : loose = none ∨ loose = some id) {memory : Memory}
    (hknown : memory.known = s.memory.known.erase id)
    (herrors : memory.errors = s.memory.errors) : Inv round start noted todo none { s with memory } where
  honest := h.honest
  moments := h.moments
  known := by
    show ∀ id' rule, memory.known.get? id' = some rule → _
    intro id' rule hget _
    rw [hknown, OrdMap.get?_erase] at hget
    by_cases hid' : id' = id
    · rw [if_pos hid'] at hget
      cases hget
    · rw [if_neg hid'] at hget
      refine h.known id' rule hget fun hsome => hid' ?_
      rcases hloose with hnone | hsame
      · rw [hnone] at hsome
        cases hsome
      · rw [hsame, Option.some.injEq] at hsome
        exact hsome
  linked := by
    show ∀ rule ∈ s.machine.recorded, rule.id ∈ todo → memory.known.get? rule.id = some rule
    intro rule hrule htodo
    have hne : rule.id ≠ id := fun heq => hid (heq ▸ htodo)
    rw [hknown, OrdMap.get?_erase, if_neg hne]
    exact h.linked rule hrule htodo
  unread := by
    show ∀ id' ∈ todo, ∀ rule, memory.known.get? id' = some rule → _
    intro id' htodo rule hget
    have hne : id' ≠ id := fun heq => hid (heq ▸ htodo)
    rw [hknown, OrdMap.get?_erase, if_neg hne] at hget
    exact h.unread id' htodo rule hget
  present := h.present
  noted := by
    show _ → memory.errors.messages ≠ []
    rw [herrors]
    exact h.noted

theorem learned (h : Inv round start noted todo none s) {rule : ForwardingRuleDesired}
    (hid : rule.id ∉ todo) (hproven : Proven s.machine.runtime rule) {memory : Memory}
    (hknown : memory.known = s.memory.known.insert rule.id rule)
    (herrors : memory.errors = s.memory.errors) : Inv round start noted todo none { s with memory } where
  honest := h.honest
  moments := h.moments
  known := by
    show ∀ id' rule', memory.known.get? id' = some rule' → _
    intro id' rule' hget hloose
    rw [hknown, OrdMap.get?_insert] at hget
    by_cases hid' : id' = rule.id
    · rw [if_pos hid', Option.some.injEq] at hget
      rw [← hget]
      exact ⟨hid'.symm, hproven⟩
    · rw [if_neg hid'] at hget
      exact h.known id' rule' hget hloose
  linked := by
    show ∀ r ∈ s.machine.recorded, r.id ∈ todo → memory.known.get? r.id = some r
    intro r hr htodo
    have hne : r.id ≠ rule.id := fun heq => hid (heq ▸ htodo)
    rw [hknown, OrdMap.get?_insert, if_neg hne]
    exact h.linked r hr htodo
  unread := by
    show ∀ id' ∈ todo, ∀ r, memory.known.get? id' = some r → _
    intro id' htodo r hget
    have hne : id' ≠ rule.id := fun heq => hid (heq ▸ htodo)
    rw [hknown, OrdMap.get?_insert, if_neg hne] at hget
    exact h.unread id' htodo r hget
  present := h.present
  noted := by
    show _ → memory.errors.messages ≠ []
    rw [herrors]
    exact h.noted

theorem changed (h : Inv round start noted todo loose s) {change : Change}
    (hrecorded : (s.machine.apply change).recorded = s.machine.recorded)
    (hproven : ∀ rule, (rule ∈ s.machine.recorded ∨ s.memory.known.get? rule.id = some rule) →
      Proven s.machine.runtime rule → Proven (s.machine.apply change).runtime rule)
    (hpresent : ∀ id ∈ todo, s.machine.runtime.contains id = true →
      (s.machine.apply change).runtime.contains id = true)
    (hexpendable : ∀ id, change = .removed id → Expendable round s.machine id)
    (hauthorized : ∀ rule, change = .added rule → MayInstall round rule) :
    Inv round start noted todo loose (s.changed change) := by
  have hhonest : (s.machine.apply change).Honest := by
    intro rule hrule
    rw [hrecorded] at hrule
    exact hproven rule (Or.inl hrule) (h.honest rule hrule)
  refine ⟨hhonest, ?_, ?_, ?_, h.unread, fun id htodo => ⟨(h.present id htodo).1,
    hpresent id htodo (h.present id htodo).2⟩, h.noted⟩
  · intro moment hmoment
    rcases List.mem_cons.mp hmoment with rfl | hold
    · exact ⟨hhonest, hexpendable, hauthorized⟩
    · exact h.moments moment hold
  · intro id rule hget hloose
    have hold := h.known id rule hget hloose
    exact ⟨hold.1, hproven rule (Or.inr (hold.1.symm ▸ hget)) hold.2⟩
  · intro rule hrule htodo
    exact h.linked rule (hrecorded ▸ hrule) htodo

theorem removed (h : Inv round start noted todo loose s) {id : ℤ} (hid : id ∉ todo)
    (hexpendable : Expendable round s.machine id) :
    Inv round start noted todo loose (s.changed (.removed id)) := by
  refine h.changed rfl (fun rule _ hrule => hrule.erase) ?_ ?_ ?_
  · intro id' htodo hcontains
    have hne : id' ≠ id := fun heq => hid (heq ▸ htodo)
    show ((s.machine.runtime.erase id).get? id').isSome = true
    rw [OrdMap.get?_erase, if_neg hne]
    exact hcontains
  · intro id' hid'
    cases hid'
    exact hexpendable
  · intro rule hrule
    cases hrule

theorem added (h : Inv round start noted todo none s) {rule : ForwardingRuleDesired}
    (hauthorized : MayInstall round rule)
    (hrecorded : ∀ r ∈ s.machine.recorded, r.id = rule.id → r = rule)
    (hknown : ∀ r, s.memory.known.get? rule.id = some r → r = rule) :
    Inv round start noted todo none (s.changed (.added rule)) := by
  refine h.changed rfl ?_ ?_ ?_ ?_
  · intro r hr hold
    refine hold.insert fun hid => ?_
    rcases hr with hmem | hget
    · exact hrecorded r hmem hid
    · exact hknown r (hid ▸ hget)
  · intro id _ hcontains
    show ((s.machine.runtime.insert rule.id rule).get? id).isSome = true
    rw [OrdMap.get?_insert]
    by_cases hid : id = rule.id
    · rw [if_pos hid]
      rfl
    · rw [if_neg hid]
      exact hcontains
  · intro id hid
    cases hid
  · intro r hr
    cases hr
    exact hauthorized

theorem wrote (h : Inv round start noted todo none s) {checkpoint : ForwardingCheckpoint}
    (hrules : checkpoint.applied.rules = s.memory.known.values) :
    Inv round start noted todo none (s.changed (.wrote checkpoint))
      ∧ Synced (s.changed (.wrote checkpoint)) := by
  have hknown : ∀ rule ∈ checkpoint.applied.rules, s.memory.known.get? rule.id = some rule
      ∧ Proven s.machine.runtime rule := by
    intro rule hrule
    rw [hrules, OrdMap.mem_values] at hrule
    obtain ⟨id, hget⟩ := hrule
    obtain ⟨rfl, hproven⟩ := h.known id rule hget (by simp)
    exact ⟨hget, hproven⟩
  have hhonest : (s.machine.apply (.wrote checkpoint)).Honest := fun rule hrule =>
    (hknown rule hrule).2
  refine ⟨⟨hhonest, ?_, h.known, fun rule hrule _ => (hknown rule hrule).1, h.unread, h.present,
    h.noted⟩,
    fun rule hrule => (hknown rule hrule).1⟩
  intro moment hmoment
  rcases List.mem_cons.mp hmoment with rfl | hold
  · refine ⟨hhonest, ?_, ?_⟩
    · intro id hid
      cases hid
    · intro rule hrule
      cases hrule
  · exact h.moments moment hold

end Inv

end Brocade.Forwarding
