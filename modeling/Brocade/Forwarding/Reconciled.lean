/-
What each part of a round keeps, up to the run of rounds.

The parts are taken from the bottom: an operation, an installation, a restoration, one listener,
the loops, the round.  Each has one triple: it returns and fails in the invariant, and wherever
it is cut off the record is honest.
-/
import Brocade.Forwarding.Honest

namespace Brocade.Forwarding

open Faulty

variable {round : Round} {start : Machine} {noted : Prop} {todo : List ℤ} {loose : Option ℤ}

/-! ### Wanted rules -/

variable {id : ℤ} {rule : ForwardingRuleDesired} {F : String → State → Prop} {P : State → Prop}
    {site : Site} {vacant : Prop} {s : State} {previous : Option ForwardingRuleDesired}
    {rest : List ℤ}

section

variable (h : round.wanted.get? id = some rule)

include h

theorem wanted_spec : rule.id = id ∧ rule ∈ round.rules ∧ round.enforceable rule = true := by
  rw [Round.wanted, OrdMap.get?_ofList] at h
  obtain ⟨r, hr, heq⟩ := List.mem_map.mp (OrdMap.mem_of_lastOf h)
  cases heq
  exact ⟨rfl, (List.mem_filter.mp hr).1, (List.mem_filter.mp hr).2⟩

theorem wanted_mayInstall : MayInstall round rule := by
  obtain ⟨rfl, -, henforceable⟩ := wanted_spec h
  unfold Round.enforceable at henforceable
  rw [Bool.and_eq_true, Bool.not_eq_true'] at henforceable
  exact ⟨henforceable.1, rule, h, id⟩

theorem wanted_policy : rule.allowPrivateTargets.isNone = false := by
  obtain ⟨-, hmem, -⟩ := wanted_spec h
  obtain ⟨r, -, rfl⟩ := List.mem_map.mp hmem
  rfl

theorem policy_unchanged : previousPolicyRequiresReplacement (some rule) rule = false := by
  show (rule.allowPrivateTargets.isNone || (!allowsPrivate rule && allowsPrivate rule)) = false
  rw [wanted_policy h]
  cases allowsPrivate rule <;> rfl

end

/-! ### Operations -/

theorem remember_keeps {f : Memory → Memory} {K : State → Prop}
    (hknown : ∀ memory, (f memory).known = memory.known)
    (herrors : ∀ memory, memory.errors.messages ≠ [] → (f memory).errors.messages ≠ [])
    (hK : ∀ s, K s → K { s with memory := f s.memory }) :
    Triple (fun s => Inv round start noted todo loose s ∧ K s) (remember f)
      (fun _ s => Inv round start noted todo loose s ∧ K s) F (Safe round) :=
  Triple.modify fun s hs => ⟨hs.1.remembered (hknown s.memory) (herrors s.memory), hK s hs.2⟩

theorem push_ne_nil (errors : ReconcileErrors) (error : String) :
    (errors.push error).messages ≠ [] := by
  unfold ReconcileErrors.push
  by_cases hfull : errors.messages.length < 8
  · rw [if_pos hfull]
    simp
  · rw [if_neg hfull]
    intro hnil
    simp only at hnil
    rw [hnil] at hfull
    simp at hfull

theorem pushRule_ne_nil (errors : ReconcileErrors) (id : ℤ) (error : String) :
    (errors.pushRule id error).messages ≠ [] := push_ne_nil _ _

theorem pushRule_keeps {error : String} :
    Triple (Inv round start noted todo loose) (pushRule id error)
      (fun _ => Inv round start noted todo loose) F (Safe round) :=
  Triple.modify fun _ hs => hs.remembered rfl fun _ => pushRule_ne_nil _ id error

theorem ask_keeps {fault : Fault String} (hP : ∀ s, P s → Safe round s) :
    Triple P (ask fault) (fun _ => P) (fun _ s => P s ∧ fault.Fails) (Safe round) :=
  Triple.perform (fun _ hs => hs) (fun hfails _ _ hs => ⟨⟨hs, hfails⟩, hs, hfails⟩)
    fun s hs => ⟨hP s hs, hP s hs⟩

theorem writeCheckpoint_keeps {K : Memory → OrdMap ℤ ForwardingRuleDesired → Prop} :
    Triple (fun s => Inv round start noted todo none s ∧ K s.memory s.machine.runtime)
      (writeCheckpoint round site)
      (fun _ s => Inv round start noted todo none s ∧ K s.memory s.machine.runtime ∧ Synced s)
      (fun _ s => Inv round start noted todo none s ∧ K s.memory s.machine.runtime
        ∧ (round.faults site).Fails)
      (Safe round) := by
  unfold writeCheckpoint
  refine Triple.bind Triple.get fun a => ?_
  unfold change
  refine Triple.perform ?_ ?_ ?_
  · rintro s ⟨rfl, hinv, hK⟩
    exact ⟨(hinv.wrote rfl).1, hK, (hinv.wrote rfl).2⟩
  · rintro hfails error s ⟨rfl, hinv, hK⟩
    exact ⟨⟨hinv, hK, hfails⟩, (hinv.wrote rfl).1, hK, hfails⟩
  · rintro s ⟨rfl, hinv, hK⟩
    exact ⟨hinv.safe, (hinv.wrote rfl).1.safe⟩

theorem inboundTags_keeps (hP : ∀ s, P s → Safe round s) :
    Triple P (inboundTags round site) (fun tags s => P s ∧ tags = s.machine.runtime.keys)
      (fun _ => P) (Safe round) := by
  unfold inboundTags
  refine Triple.bind ((ask_keeps hP).failing (fun _ _ hs => hs.1)) fun _ => ?_
  refine Triple.bind Triple.get fun a => ?_
  rintro s ⟨rfl, hs⟩
  exact ⟨hs, rfl⟩

theorem removeInbound_keeps {K : Memory → Prop} (hid : id ∉ todo) : Triple
      (fun s => Inv round start noted todo loose s ∧ K s.memory ∧ Expendable round s.machine id
        ∧ s.machine.runtime.contains id = true)
      (removeInbound round site id)
      (fun _ s => Inv round start noted todo loose s ∧ K s.memory
        ∧ s.machine.runtime.contains id = false)
      (fun _ s => Inv round start noted todo loose s ∧ K s.memory ∧ (round.faults site).Fails)
      (Safe round) := by
  unfold removeInbound
  refine Triple.bind Triple.get fun a => ?_
  by_cases hcontains : a.machine.runtime.contains id = true
  · rw [if_pos hcontains]
    unfold change
    refine Triple.perform ?_ ?_ ?_
    · rintro s ⟨-, hinv, hK, hexpendable, -⟩
      refine ⟨hinv.removed hid hexpendable, hK, ?_⟩
      show ((s.machine.runtime.erase id).get? id).isSome = false
      rw [OrdMap.get?_erase, if_pos rfl]
      rfl
    · rintro hfails error s ⟨-, hinv, hK, hexpendable, -⟩
      exact ⟨⟨hinv, hK, hfails⟩, hinv.removed hid hexpendable, hK, hfails⟩
    · rintro s ⟨-, hinv, hK, hexpendable, -⟩
      exact ⟨hinv.safe, (hinv.removed hid hexpendable).safe⟩
  · rintro s ⟨rfl, -, -, -, hthere⟩
    exact absurd hthere hcontains

/-! ### Installing -/

/-- What is remembered under the rule's id is nothing, or the rule and not wanted. -/
def Slot (round : Round) (rule : ForwardingRuleDesired) (memory : Memory) : Prop :=
  ∀ r, memory.known.get? rule.id = some r → r = rule ∧ round.wanted.get? rule.id ≠ some rule

/-- What holds when a rule is added: what the file has of it is the rule. -/
structure Ready (round : Round) (rule : ForwardingRuleDesired) (vacant : Prop) (s : State) :
    Prop where
  slot : Slot round rule s.memory
  recorded : ∀ r ∈ s.machine.recorded, r.id = rule.id →
    r = rule ∧ round.wanted.get? rule.id ≠ some rule
  vacant : vacant → s.machine.runtime.contains rule.id = false

theorem Ready.of_synced (hslot : Slot round rule s.memory) (hsynced : Synced s)
    (hvacant : vacant → s.machine.runtime.contains rule.id = false) : Ready round rule vacant s :=
  ⟨hslot, fun r hr hid => hslot r (hid ▸ hsynced r hr), hvacant⟩

theorem Ready.expendable (h : Ready round rule vacant s) : Expendable round s.machine rule.id := by
  intro r hr hid hwanted
  obtain ⟨rfl, hne⟩ := h.recorded r hr hid
  exact hne hwanted

theorem addInbound_keeps (hauthorized : MayInstall round rule) :
    Triple (fun s => Inv round start noted todo none s ∧ Ready round rule vacant s)
      (addInbound round site rule)
      (fun _ s => Inv round start noted todo none s ∧ Slot round rule s.memory
        ∧ Proven s.machine.runtime rule)
      (fun _ s => Inv round start noted todo none s ∧ Slot round rule s.memory
        ∧ Expendable round s.machine rule.id ∧ (vacant → (round.faults site).Fails))
      (Safe round) := by
  have hadded : ∀ s, Inv round start noted todo none s → Ready round rule vacant s →
      Inv round start noted todo none (s.changed (.added rule)) := fun s hinv hready =>
    hinv.added hauthorized (fun r hr hid => (hready.recorded r hr hid).1)
      fun r hr => (hready.slot r hr).1
  unfold addInbound
  refine Triple.bind Triple.get fun a => ?_
  by_cases hcontains : a.machine.runtime.contains rule.id = true
  · rw [if_pos hcontains]
    have hkept : ∀ s, (s = a ∧ Inv round start noted todo none s ∧ Ready round rule vacant s) →
        Inv round start noted todo none s ∧ Slot round rule s.memory
          ∧ Expendable round s.machine rule.id ∧ (vacant → (round.faults site).Fails) := by
      rintro s ⟨rfl, hinv, hready⟩
      refine ⟨hinv, hready.slot, hready.expendable, fun hvacant => ?_⟩
      rw [hready.vacant hvacant] at hcontains
      cases hcontains
    refine Triple.bind ((ask_keeps (P := fun s => s = a ∧ Inv round start noted todo none s
      ∧ Ready round rule vacant s) fun s hs => hs.2.1.safe).weaken
        (fun s hs => ⟨hs.1.symm, hs.2⟩) (fun _ _ hs => hs)
        (fun _ s hs => hkept s hs.1) fun _ hs => hs) fun _ => ?_
    exact fun s hs => hkept s hs
  · rw [if_neg hcontains]
    unfold change
    refine Triple.perform ?_ ?_ ?_
    · rintro s ⟨-, hinv, hready⟩
      refine ⟨hadded s hinv hready, hready.slot, hauthorized.1, fun installed hget => Or.inl ?_⟩
      have hself : (s.machine.runtime.insert rule.id rule).get? rule.id = some installed := hget
      rw [OrdMap.get?_insert, if_pos rfl, Option.some.injEq] at hself
      exact hself.symm
    · rintro hfails error s ⟨-, hinv, hready⟩
      exact ⟨⟨hinv, hready.slot, hready.expendable, fun _ => hfails⟩, hadded s hinv hready,
        hready.slot, hready.expendable, fun _ => hfails⟩
    · rintro s ⟨-, hinv, hready⟩
      exact ⟨hinv.safe, (hadded s hinv hready).safe⟩

theorem cleanup_keeps {stage : Stage} (hid : rule.id ∉ todo) : Triple
      (fun s => Inv round start noted todo none s ∧ Slot round rule s.memory
        ∧ Expendable round s.machine rule.id)
      (cleanup round stage rule)
      (fun _ s => Inv round start noted todo none s ∧ Slot round rule s.memory)
      (fun _ s => Inv round start noted todo none s ∧ Slot round rule s.memory) (Safe round) := by
  unfold cleanup
  refine Triple.bind ((inboundTags_keeps fun s hs => hs.1.safe).failing
    (fun _ s hs => ⟨hs.1, hs.2.1⟩)) fun tags => ?_
  refine Triple.bind (Q := fun _ s => Inv round start noted todo none s ∧ Slot round rule s.memory)
    ?_ fun _ => ?_
  · by_cases htag : rule.id ∈ tags
    · rw [if_pos htag]
      refine (removeInbound_keeps (K := Slot round rule) hid).weaken ?_
        (fun _ s hs => ⟨hs.1, hs.2.1⟩) (fun _ s hs => ⟨hs.1, hs.2.1⟩) fun _ hs => hs
      rintro s ⟨⟨hinv, hslot, hexpendable⟩, rfl⟩
      exact ⟨hinv, hslot, hexpendable, OrdMap.mem_keys.mp htag⟩
    · rw [if_neg htag]
      exact fun s hs => ⟨hs.1.1, hs.1.2.1⟩
  · refine Triple.bind (remember_keeps (fun _ => rfl) (fun _ h => h) fun _ h => h) fun _ => ?_
    exact (writeCheckpoint_keeps (K := fun memory _ => Slot round rule memory)).weaken
      (fun _ hs => hs) (fun _ s hs => ⟨hs.1, hs.2.1⟩) (fun _ s hs => ⟨hs.1, hs.2.1⟩) fun _ hs => hs

/-- After a failed installation: nothing new is remembered, unless its last write was lost. -/
def Lost (round : Round) (stage : Stage) (rule : ForwardingRuleDesired) (memory : Memory) : Prop :=
  ∀ r, memory.known.get? rule.id = some r → r = rule
    ∧ (round.wanted.get? rule.id ≠ some rule ∨ (round.faults (.install stage rule.id .record)).Fails)

theorem installListener_keeps {stage : Stage} (vacant : Prop) (hid : rule.id ∉ todo)
    (hauthorized : MayInstall round rule) : Triple
      (fun s => Inv round start noted todo none s ∧ Slot round rule s.memory
        ∧ (vacant → s.machine.runtime.contains rule.id = false))
      (installListener round stage rule) (fun _ => Inv round start noted todo none)
      (fun _ s => Inv round start noted todo none s ∧ Lost round stage rule s.memory
        ∧ (vacant → ¬Calm round stage rule.id))
      (Safe round) := by
  have hlost : ∀ memory, Slot round rule memory → Lost round stage rule memory :=
    fun memory hslot r hr => ⟨(hslot r hr).1, Or.inl (hslot r hr).2⟩
  unfold installListener
  refine Triple.bind (remember_keeps (fun _ => rfl) (fun _ h => h) fun _ h => h) fun _ => ?_
  refine Triple.bind ((writeCheckpoint_keeps (K := fun memory runtime => Slot round rule memory
    ∧ (vacant → runtime.contains rule.id = false))).failing ?_) fun _ => ?_
  · rintro error s ⟨hinv, ⟨hslot, -⟩, hfails⟩
    exact ⟨hinv, hlost _ hslot, fun _ hcalm => hcalm.announce hfails⟩
  refine Triple.handle (Q := fun _ s => Inv round start noted todo none s
      ∧ Slot round rule s.memory ∧ Proven s.machine.runtime rule)
    (G := fun _ s => Inv round start noted todo none s ∧ Slot round rule s.memory
      ∧ Expendable round s.machine rule.id
      ∧ (vacant → (round.faults (.install stage rule.id .add)).Fails))
    ((addInbound_keeps hauthorized).pre ?_) (fun u => ?ok) fun error => ?error
  · rintro s ⟨hinv, ⟨hslot, hvacant⟩, hsynced⟩
    exact ⟨hinv, Ready.of_synced hslot hsynced hvacant⟩
  case ok =>
      refine Triple.bind (Q := fun _ s => Inv round start noted todo none s
        ∧ s.memory.known.get? rule.id = some rule) (Triple.modify ?_) fun _ => ?_
      · rintro s ⟨hinv, -, hproven⟩
        refine ⟨hinv.learned hid hproven rfl rfl, ?_⟩
        show (s.memory.known.insert rule.id rule).get? rule.id = some rule
        rw [OrdMap.get?_insert, if_pos rfl]
      · refine (writeCheckpoint_keeps
          (K := fun memory _ => memory.known.get? rule.id = some rule)).weaken
            (fun _ hs => hs) (fun _ _ hs => hs.1) ?_ fun _ hs => hs
        rintro error s ⟨hinv, hget, hfails⟩
        refine ⟨hinv, fun r hr => ?_, fun _ hcalm => hcalm.record hfails⟩
        rw [hget, Option.some.injEq] at hr
        exact ⟨hr.symm, Or.inr hfails⟩
  case error =>
      refine Triple.assume fun t ht => ?_
      obtain ⟨hinv, hslot, hexpendable, hfails⟩ := ht
      refine Triple.bind (Q := fun _ s => Inv round start noted todo none s
        ∧ Slot round rule s.memory) (Triple.attempt ((cleanup_keeps hid).pre ?_)) fun cleaned => ?_
      · rintro s rfl
        exact ⟨hinv, hslot, hexpendable⟩
      · cases cleaned with
        | ok u => exact fun s hs => ⟨hs.1, hlost _ hs.2, fun hvacant hcalm =>
          hcalm.add (hfails hvacant)⟩
        | error pending => exact fun s hs => ⟨hs.1, hlost _ hs.2, fun hvacant hcalm =>
          hcalm.add (hfails hvacant)⟩

/-- What comes back may be installed, is not what is wanted, and nothing else is remembered. -/
theorem restoreListener_keeps {previous : ForwardingRuleDesired} (hid : previous.id ∉ todo)
    (hauthorized : MayInstall round previous)
    (hwanted : round.wanted.get? previous.id ≠ some previous) (left : ℕ) :
    Triple (fun s => Inv round start noted todo none s ∧ Slot round previous s.memory)
      (restoreListener round previous left) (fun _ => Inv round start noted todo none)
      (fun _ s => Inv round start noted todo none s ∧ Slot round previous s.memory) (Safe round) := by
  induction left with
  | zero => exact fun s hs => hs
  | succ left ih =>
    unfold restoreListener
    refine Triple.handle (Q := fun _ => Inv round start noted todo none)
      (G := fun _ s => Inv round start noted todo none s ∧ Slot round previous s.memory)
      ((installListener_keeps False hid hauthorized).weaken ?_
        (fun _ _ hs => hs) ?_ fun _ hs => hs) (fun u => ?ok) fun error => ?error
    · exact fun s hs => ⟨hs.1, hs.2, False.elim⟩
    · rintro error s ⟨hinv, hlost, -⟩
      exact ⟨hinv, fun r hr => ⟨(hlost r hr).1, hwanted⟩⟩
    · exact fun s hs => hs
    · show Triple _ (if left = 0 then _ else _) _ _ _
      by_cases hleft : left = 0
      · rw [if_pos hleft]
        exact fun s hs => hs
      · rw [if_neg hleft]
        exact ih

/-! ### Revoking and replacing -/

/-- What may be in the place of a replacement again. -/
structure Restorable (round : Round) (id : ℤ) (previous : ForwardingRuleDesired) : Prop where
  same : previous.id = id
  mayInstall : MayInstall round previous
  unwanted : round.wanted.get? id ≠ some previous
  recorded : ¬(round.faults (.install .replace id .record)).Fails

theorem reinstall_keeps {replacement : ForwardingRuleDesired} (hid : id ∉ todo)
    (hreplacement : replacement.id = id) (hwanted : round.wanted.get? id = some replacement)
    (hauthorized : MayInstall round replacement)
    (hprevious : Calm round .replace id ∨ ∀ rule, previous = some rule →
      restorable replacement rule = true → Restorable round id rule) : Triple
      (fun s => Inv round start noted todo none s ∧ s.memory.known.get? id = none
        ∧ s.machine.runtime.contains id = false)
      (reinstall round id previous replacement) (fun _ => Inv round start noted todo none) F
      (Safe round) := by
  subst hreplacement
  unfold reinstall
  refine Triple.handle (Q := fun _ => Inv round start noted todo none)
    (G := fun _ s => Inv round start noted todo none s ∧ Lost round .replace replacement s.memory
      ∧ ¬Calm round .replace replacement.id)
    ((installListener_keeps True hid hauthorized).weaken ?_ (fun _ _ hs => hs) ?_
      fun _ hs => hs) (fun u => ?ok) fun error => ?error
  · rintro s ⟨hinv, hnone, hvacant⟩
    refine ⟨hinv, fun r hr => ?_, fun _ => hvacant⟩
    rw [hnone] at hr
    cases hr
  · exact fun error s hs => ⟨hs.1, hs.2.1, hs.2.2 trivial⟩
  case ok => exact Triple.modify fun s hs => hs.remembered rfl fun h => h
  case error =>
      refine Triple.bind (Q := fun _ s => Inv round start noted todo none s
        ∧ Lost round .replace replacement s.memory ∧ ¬Calm round .replace replacement.id)
        (remember_keeps (fun _ => rfl) (fun _ _ => pushRule_ne_nil _ _ _) fun _ h => h)
        fun _ => ?_
      refine Triple.assume fun t ht => ?_
      obtain ⟨hinv, hlost, hcalm⟩ := ht
      cases hback : previous.filter (restorable replacement) with
      | none =>
        rintro s rfl
        exact hinv
      | some former =>
        obtain ⟨hformer, hrestorable⟩ := Option.filter_eq_some_iff.mp hback
        have hrule := (hprevious.resolve_left hcalm) former hformer hrestorable
        have hnone : ∀ r, t.memory.known.get? replacement.id ≠ some r := by
          intro r hr
          rcases (hlost r hr).2 with hne | hfails
          · exact hne hwanted
          · exact hrule.recorded hfails
        refine Triple.bind (Q := fun _ => Inv round start noted todo none)
          (Triple.attempt ((restoreListener_keeps (hrule.same.symm ▸ hid) hrule.mayInstall
            (hrule.same.symm ▸ hrule.unwanted) 20).weaken ?_ (fun _ _ hs => hs)
              (fun _ _ hs => hs.1) fun _ hs => hs)) fun answer => ?_
        · rintro s rfl
          refine ⟨hinv, fun r hr => ?_⟩
          rw [hrule.same] at hr
          exact absurd hr (hnone r)
        · cases answer with
          | ok u => exact Triple.modify fun s hs => hs.remembered rfl fun h => h
          | error rollback => exact pushRule_keeps

/-- What is loose is settled by the removal: its memory goes, and in a round that carries the
replacement out nothing of it comes back. -/
theorem removeListener_keeps (hid : id ∉ todo)
    (hloose : loose = none ∨ loose = some id ∧ CarriedOut round id)
    (hprevious : CarriedOut round id ∨ ∀ rule replacement, previous = some rule →
      round.wanted.get? id = some replacement → round.outboundReady = true →
      restorable replacement rule = true → Restorable round id rule) : Triple
      (fun s => Inv round start noted todo loose s ∧ Expendable round s.machine id
        ∧ s.machine.runtime.contains id = true)
      (removeListener round id previous) (fun _ => Inv round start noted todo none)
      (fun _ => Safe round) (Safe round) := by
  unfold removeListener
  refine Triple.handle (Q := fun _ s => Inv round start noted todo loose s
      ∧ s.machine.runtime.contains id = false)
    (G := fun _ s => Inv round start noted todo loose s ∧ (round.faults (.remove id)).Fails)
    ((removeInbound_keeps (K := fun _ => True) hid).weaken
      (fun s hs => ⟨hs.1, trivial, hs.2⟩) (fun _ s hs => ⟨hs.1, hs.2.2⟩)
        (fun _ s hs => ⟨hs.1, hs.2.2⟩) fun _ hs => hs) (fun u => ?ok) fun error => ?error
  case error =>
      rcases hloose with rfl | ⟨-, hcarried⟩
      · exact pushRule_keeps.pre fun _ hs => hs.1
      · exact fun s hs => absurd hs.2 hcarried.remove
  case ok =>
      refine Triple.bind (Q := fun _ s => Inv round start noted todo none s
        ∧ s.memory.known.get? id = none ∧ s.machine.runtime.contains id = false)
        (Triple.modify ?_) fun _ => ?_
      · rintro s ⟨hinv, hvacant⟩
        refine ⟨hinv.erased id hid (hloose.imp_right And.left) rfl rfl, ?_, hvacant⟩
        show (s.memory.known.erase id).get? id = none
        rw [OrdMap.get?_erase, if_pos rfl]
      refine Triple.bind ((writeCheckpoint_keeps (K := fun memory runtime =>
        memory.known.get? id = none ∧ runtime.contains id = false)).failing
          (fun _ s hs => hs.1.safe)) fun _ => ?_
      cases hreplacement : (round.wanted.get? id).filter fun _ => round.outboundReady with
      | none => exact fun s hs => hs.1
      | some replacement =>
        obtain ⟨hwanted, hready⟩ := Option.filter_eq_some_iff.mp hreplacement
        refine (reinstall_keeps hid (wanted_spec hwanted).1 hwanted (wanted_mayInstall hwanted)
          ?_).pre fun s hs => ⟨hs.1, hs.2.1⟩
        rcases hprevious with hcarried | hback
        · exact Or.inl hcarried.calm
        · exact Or.inr fun rule hrule => hback rule replacement hrule hwanted hready

theorem preflight_keeps (hP : ∀ s, P s → Safe round s) :
    Triple P (preflight round id previous) (fun _ => P)
      (fun _ s => P s ∧ (round.faults (.preflight id)).Fails) (Safe round) := by
  unfold preflight
  by_cases hboth : (previous.isSome && round.wanted.contains id) = true
  · rw [if_pos hboth]
    exact ask_keeps hP
  · rw [if_neg hboth]
    exact fun _ hs => hs

theorem replaceListener_keeps (loose : Option ℤ) (hid : id ∉ todo)
    (hloose : loose = none ∨ loose = some id ∧ CarriedOut round id)
    (hprevious : CarriedOut round id ∨ ∀ rule replacement, previous = some rule →
      round.wanted.get? id = some replacement → round.outboundReady = true →
      restorable replacement rule = true → Restorable round id rule) : Triple
      (fun s => Inv round start noted todo loose s ∧ Expendable round s.machine id
        ∧ s.machine.runtime.contains id = true)
      (replaceListener round id previous) (fun _ => Inv round start noted todo none)
      (fun _ => Safe round) (Safe round) := by
  unfold replaceListener
  refine Triple.bind (Q := fun answer s => (Inv round start noted todo loose s
      ∧ Expendable round s.machine id ∧ s.machine.runtime.contains id = true)
      ∧ (answer.isOk = false → (round.faults (.preflight id)).Fails))
    (Triple.attempt ((preflight_keeps fun s hs => hs.1.safe).weaken (fun _ hs => hs) ?_ ?_
      fun _ hs => hs)) fun answer => ?_
  · intro u s hs
    refine ⟨hs, fun h => ?_⟩
    cases h
  · exact fun error s hs => ⟨hs.1, fun _ => hs.2⟩
  cases answer with
  | ok u => exact (removeListener_keeps hid hloose hprevious).pre fun _ hs => hs.1
  | error error =>
    rcases hloose with rfl | ⟨-, hcarried⟩
    · exact pushRule_keeps.pre fun _ hs => hs.1.1
    · exact fun s hs => absurd (hs.2 rfl) hcarried.preflight

theorem get?_level (id id' : ℤ) (replacement : Option ForwardingRuleDesired) (memory : Memory) :
    (level id replacement memory).known.get? id' =
      if id' = id then (memory.known.get? id).map (levelFlag replacement)
      else memory.known.get? id' := by
  unfold level
  cases hknown : memory.known.get? id with
  | none =>
    show memory.known.get? id' = _
    by_cases hid : id' = id
    · rw [if_pos hid, hid, hknown]
      rfl
    · rw [if_neg hid]
  | some previous =>
    show (memory.known.insert id (levelFlag replacement previous)).get? id' = _
    rw [OrdMap.get?_insert]
    rfl

theorem level_errors (id : ℤ) (replacement : Option ForwardingRuleDesired) (memory : Memory) :
    (level id replacement memory).errors = memory.errors := by
  unfold level
  cases memory.known.get? id <;> rfl

theorem Inv.levelled (h : Inv round start noted (id :: rest) none s) (hid : id ∉ rest)
    (replacement : Option ForwardingRuleDesired) :
    Inv round start noted rest (some id) { s with memory := level id replacement s.memory } where
  honest := h.honest
  moments := h.moments
  known := by
    show ∀ id' rule, (level id replacement s.memory).known.get? id' = some rule → _
    intro id' rule hget hloose
    have hne : id' ≠ id := fun heq => hloose (congrArg some heq)
    rw [get?_level, if_neg hne] at hget
    exact h.known id' rule hget (by simp)
  linked := by
    show ∀ rule ∈ s.machine.recorded, rule.id ∈ rest →
      (level id replacement s.memory).known.get? rule.id = some rule
    intro rule hrule hrest
    have hne : rule.id ≠ id := fun heq => hid (heq ▸ hrest)
    rw [get?_level, if_neg hne]
    exact h.linked rule hrule (List.mem_cons_of_mem _ hrest)
  unread := by
    show ∀ id' ∈ rest, ∀ rule, (level id replacement s.memory).known.get? id' = some rule → _
    intro id' hrest rule hget
    have hne : id' ≠ id := fun heq => hid (heq ▸ hrest)
    rw [get?_level, if_neg hne] at hget
    exact h.unread id' (List.mem_cons_of_mem _ hrest) rule hget
  present := fun id' hrest => h.present id' (List.mem_cons_of_mem _ hrest)
  noted := by
    show _ → (level id replacement s.memory).errors.messages ≠ []
    rw [level_errors]
    exact h.noted

theorem Inv.settled {s : State} {id : ℤ} (h : Inv round start noted todo (some id) s)
    (hknown : ∀ rule, s.memory.known.get? id = some rule →
      rule.id = id ∧ Proven s.machine.runtime rule) : Inv round start noted todo none s := by
  refine ⟨h.honest, h.moments, fun id' rule hget _ => ?_, h.linked, h.unread, h.present, h.noted⟩
  by_cases hid : id' = id
  · subst hid
    exact hknown rule hget
  · exact h.known id' rule hget fun heq => hid (Option.some.inj heq)

theorem condemned_changed {unproven : Bool} (h : condemned round id unproven previous = true)
    (hunproven : unproven = true → previous = none) (rule : ForwardingRuleDesired)
    (hrule : previous = some rule) : round.wanted.get? id ≠ some rule := by
  intro hwanted
  subst hrule
  have hproven : unproven = false := by
    rw [Bool.eq_false_iff]
    intro htrue
    cases hunproven htrue
  unfold condemned at h
  simp [hwanted, hproven, policy_unchanged hwanted] at h

theorem condemned_of_ready {unproven : Bool} (hready : round.outboundReady = true)
    (hne : previous ≠ round.wanted.get? id) : condemned round id unproven previous = true := by
  unfold condemned
  simp [hready, hne]

/-- What is remembered after taking over the flag is proven, or about to be replaced. -/
theorem level_proven (hcareful : Careful round start)
    (h : Inv round start noted (id :: rest) none s) :
    (∀ rule, (level id (round.wanted.get? id) s.memory).known.get? id = some rule →
        rule.id = id ∧ Proven s.machine.runtime rule)
      ∨ CarriedOut round id ∧ (level id (round.wanted.get? id) s.memory).known.get? id
          ≠ round.wanted.get? id
        ∧ ((level id (round.wanted.get? id) s.memory).known.get? id).isSome = true := by
  rw [get?_level, if_pos rfl]
  cases hknown : s.memory.known.get? id with
  | none =>
    left
    intro rule hrule
    cases hrule
  | some previous =>
    have hprevious := h.known id previous hknown (by simp)
    cases hwanted : round.wanted.get? id with
    | none =>
      left
      intro rule hrule
      cases hrule
      exact hprevious
    | some replacement =>
      have hfirm : (targetHostIsPublicIp replacement.targetHost = true →
          targetHostIsPublicIp previous.targetHost = true
            ∨ previous.allowPrivateTargets = replacement.allowPrivateTargets) →
          ∀ rule, (some previous).map (levelFlag (some replacement)) = some rule →
            rule.id = id ∧ Proven s.machine.runtime rule := by
        intro hflag rule hrule
        cases hrule
        exact ⟨(levelFlag_id _).trans hprevious.1, hprevious.2.level hflag⟩
      by_cases hpublic : targetHostIsPublicIp replacement.targetHost = true
      · by_cases hold : targetHostIsPublicIp previous.targetHost = true
        · left
          refine hfirm ?_
          intro _
          exact Or.inl hold
        · have hreplaced : Replaced round start id previous replacement :=
            ⟨h.unread id List.mem_cons_self previous hknown,
              (h.present id List.mem_cons_self).1, hwanted⟩
          rcases hcareful.flag id previous replacement hreplaced hpublic with hp | hsame | hc
          · exact absurd hp hold
          · left
            refine hfirm ?_
            intro _
            exact Or.inr hsame
          · refine Or.inr ⟨hc, fun heq => hold ?_, rfl⟩
            rw [Option.map_some, Option.some.injEq] at heq
            rw [← levelFlag_targetHost (some replacement), heq]
            exact hpublic
      · left
        refine hfirm ?_
        intro hp
        exact absurd hp hpublic

theorem reviseListener_keeps (hcareful : Careful round start) (hid : id ∉ rest) :
    Triple (Inv round start noted (id :: rest) none) (reviseListener round id)
      (fun _ => Inv round start noted rest none) (fun _ => Safe round) (Safe round) := by
  refine Triple.assume fun t ht => ?_
  unfold reviseListener
  refine Triple.bind Triple.get fun a => Triple.assume fun s hs => ?_
  obtain ⟨rfl, rfl⟩ := hs
  refine Triple.bind (Q := fun _ s => s = { a with
    memory := level id (round.wanted.get? id) a.memory }) (Triple.modify ?_) fun _ => ?_
  · rintro s rfl
    rfl
  refine Triple.bind Triple.get fun b => Triple.assume fun s hs => ?_
  obtain ⟨rfl, hb⟩ := hs
  have hknown : b.memory.known.get? id
      = (a.memory.known.get? id).map (levelFlag (round.wanted.get? id)) := by
    rw [hb]
    show (level id (round.wanted.get? id) a.memory).known.get? id = _
    rw [get?_level, if_pos rfl]
  have hloose : Inv round start noted rest (some id) b := hb ▸ ht.levelled hid _
  have hthere : b.machine.runtime.contains id = true := by
    rw [hb]
    exact (ht.present id List.mem_cons_self).2
  have hproven : (∀ rule, b.memory.known.get? id = some rule →
        rule.id = id ∧ Proven b.machine.runtime rule)
      ∨ CarriedOut round id ∧ b.memory.known.get? id ≠ round.wanted.get? id
        ∧ (b.memory.known.get? id).isSome = true := by
    rw [hb]
    exact level_proven hcareful ht
  have hnone : a.memory.known.contains id = false → b.memory.known.get? id = none := by
    intro hcontains
    rw [hknown]
    unfold OrdMap.contains at hcontains
    rw [Option.isSome_eq_false_iff, Option.isNone_iff_eq_none] at hcontains
    rw [hcontains]
    rfl
  dsimp only
  split
  · rename_i hcondemned
    have hchanged := condemned_changed hcondemned fun hunproven => hnone (by
      simp only [Bool.and_eq_true, Bool.not_eq_true'] at hunproven
      exact hunproven.1.1)
    have hexpendable : Expendable round b.machine id := by
      intro rule hrule hid' hwanted
      have hold : a.memory.known.get? rule.id = some rule :=
        ht.linked rule (by rwa [hb] at hrule) (hid' ▸ List.mem_cons_self)
      rw [hid'] at hold
      refine hchanged rule ?_ hwanted
      rw [hknown, hold, hwanted, Option.map_some, levelFlag_self]
    rcases hproven with hfirm | ⟨hcarried, -, hsome⟩
    · have hinv := hloose.settled hfirm
      split
      · refine pushRule_keeps.pre ?_
        rintro s rfl
        exact hinv
      · refine (replaceListener_keeps none hid (Or.inl rfl) (Or.inr ?_)).pre ?_
        · intro rule replacement hrule hwanted hready hrestorable
          obtain ⟨former, hformer, hlevel⟩ := Option.map_eq_some_iff.mp (hknown.symm.trans hrule)
          have hreplaced : Replaced round start id former replacement :=
            ⟨ht.unread id List.mem_cons_self former hformer,
              (ht.present id List.mem_cons_self).1, hwanted⟩
          rw [hwanted] at hlevel
          have hunwanted := hchanged rule hrule
          refine ⟨(hfirm rule hrule).1, ⟨(hfirm rule hrule).2.unblocked, replacement, ?_, ?_⟩,
            hunwanted, ?_⟩
          · rw [(hfirm rule hrule).1]
            exact hwanted
          · intro hallows
            unfold restorable at hrestorable
            rw [hallows] at hrestorable
            simpa using hrestorable
          · refine hcareful.record id former replacement hreplaced hready ?_ ?_
            · rw [hlevel]
              intro heq
              exact hunwanted (hwanted.trans (congrArg some heq.symm))
            · rw [hlevel]
              exact hrestorable
        · rintro s rfl
          exact ⟨hinv, hexpendable, hthere⟩
    · rw [if_neg]
      · refine (replaceListener_keeps (some id) hid (Or.inr ⟨rfl, hcarried⟩)
          (Or.inl hcarried)).pre ?_
        rintro s rfl
        exact ⟨hloose, hexpendable, hthere⟩
      · rw [← Option.not_isNone, Bool.not_eq_true'] at hsome
        simp [hsome]
  · rename_i hspared
    rintro s rfl
    refine hloose.settled (hproven.resolve_right ?_)
    rintro ⟨hcarried, hne, -⟩
    exact hspared (condemned_of_ready hcarried.outboundReady hne)

/-! ### The loops -/

theorem supplyListener_keeps (hwanted : round.wanted.get? rule.id = some rule) :
    Triple (Inv round start noted [] none) (supplyListener round rule)
      (fun _ => Inv round start noted [] none) F (Safe round) := by
  unfold supplyListener
  refine Triple.bind Triple.get fun a => ?_
  by_cases hremains : rule.id ∈ a.memory.remaining
  · rw [if_pos hremains]
    exact fun s hs => hs.2
  · rw [if_neg hremains]
    refine Triple.bind (Q := fun _ s => Inv round start noted [] none s
      ∧ Slot round rule s.memory) (Triple.modify ?_) fun _ => ?_
    · rintro s ⟨-, hinv⟩
      refine ⟨hinv.erased rule.id List.not_mem_nil (Or.inl rfl) rfl rfl, fun r hr => ?_⟩
      have hget : (s.memory.known.erase rule.id).get? rule.id = some r := hr
      rw [OrdMap.get?_erase, if_pos rfl] at hget
      cases hget
    refine Triple.bind (Q := fun _ => Inv round start noted [] none)
      (Triple.attempt ((installListener_keeps False (List.not_mem_nil)
        (wanted_mayInstall hwanted)).weaken (fun s hs => ⟨hs.1, hs.2, False.elim⟩)
          (fun _ _ hs => hs) (fun _ _ hs => hs.1) fun _ hs => hs)) fun answer => ?_
    cases answer with
    | ok u => exact fun s hs => hs
    | error error => exact pushRule_keeps

/-- Some desired rule is not wanted. -/
def Blocked (round : Round) : Prop :=
  ∃ rule ∈ round.rules, round.wanted.contains rule.id = false

theorem reportBlocked_notes {rules : List ForwardingRuleDesired} :
    Triple (Inv round start (∃ rule ∈ round.rules, rule ∉ rules
        ∧ round.wanted.contains rule.id = false) todo loose)
      (Act.each (reportBlocked round) rules)
      (fun _ => Inv round start (Blocked round) todo loose) F (Safe round) := by
  induction rules with
  | nil =>
    refine fun s hs => { hs with noted := ?_ }
    rintro ⟨rule, hrule, hblocked⟩
    exact hs.noted ⟨rule, hrule, List.not_mem_nil, hblocked⟩
  | cons head rules ih =>
    refine Triple.bind ?_ fun _ => ih
    unfold reportBlocked
    by_cases hwanted : round.wanted.contains head.id = true
    · rw [if_pos hwanted]
      refine fun s hs => { hs with noted := ?_ }
      rintro ⟨rule, hrule, hnot, hblocked⟩
      refine hs.noted ⟨rule, hrule, fun hmem => ?_, hblocked⟩
      rcases List.mem_cons.mp hmem with rfl | hmem
      · rw [hwanted] at hblocked
        cases hblocked
      · exact hnot hmem
    · rw [if_neg hwanted]
      refine Triple.modify fun s hs => ?_
      exact { hs with noted := fun _ => pushRule_ne_nil _ _ _ }

theorem reportObstacles_notes {checkpoint : Except String ForwardingCheckpoint} :
    Triple (Inv round start False todo loose) (reportObstacles round checkpoint)
      (fun _ => Inv round start (Blocked round) todo loose) F (Safe round) := by
  have hpush : ∀ error, Triple (Inv round start (Blocked round) todo loose) (push error)
      (fun _ => Inv round start (Blocked round) todo loose) F (Safe round) := fun error =>
    Triple.modify fun s hs => hs.remembered rfl fun _ => push_ne_nil _ error
  unfold reportObstacles
  refine Triple.bind (Q := fun _ => Inv round start (Blocked round) todo loose)
    (reportBlocked_notes.pre ?_)
    fun _ => ?_
  · refine fun s hs => { hs with noted := ?_ }
    rintro ⟨rule, hrule, hnot, -⟩
    exact absurd hrule hnot
  refine Triple.bind (Q := fun _ => Inv round start (Blocked round) todo loose) ?_ fun _ => ?_
  · cases checkpoint with
    | ok checkpoint => exact fun s hs => hs
    | error error => exact hpush error
  · split
    · exact hpush _
    · exact fun s hs => hs

/-! ### The end of a round -/

/-- What a round that reports no error has seen. -/
structure Converged (round : Round) (memory : Memory) (runtime : OrdMap ℤ ForwardingRuleDesired) :
    Prop where
  keys : runtime.keys = round.wanted.keys
  known : ∀ id rule, round.wanted.get? id = some rule → memory.known.get? id = some rule

theorem converged_spec {actual : List ℤ} {known : OrdMap ℤ ForwardingRuleDesired}
    (h : converged round actual known = true) : actual = round.wanted.keys
      ∧ ∀ id rule, round.wanted.get? id = some rule → known.get? id = some rule := by
  unfold converged at h
  rw [Bool.and_eq_true, decide_eq_true_eq, List.all_eq_true] at h
  refine ⟨h.1, fun id rule hwanted => ?_⟩
  simpa using h.2 (id, rule) (OrdMap.mem_entries.mpr hwanted)

theorem finish_eq_none {errors : ReconcileErrors} (h : errors.finish = none) :
    errors.messages = [] := by
  unfold ReconcileErrors.finish at h
  cases hmessages : errors.messages with
  | nil => rfl
  | cons message messages =>
    rw [hmessages] at h
    cases homitted : errors.omitted <;> simp [homitted] at h

theorem Inv.narrowed (h : Inv round start noted [] none s) (p : ℤ × ForwardingRuleDesired → Bool) :
    Inv round start noted [] none
      { s with
        memory := { s.memory with known := s.memory.known.filter p } } where
  honest := h.honest
  moments := h.moments
  known := by
    show ∀ id rule, (s.memory.known.filter p).get? id = some rule → _
    intro id rule hget hloose
    rw [OrdMap.get?_filter, Option.filter_eq_some_iff] at hget
    exact h.known id rule hget.1 hloose
  linked := fun _ _ htodo => absurd htodo List.not_mem_nil
  unread := fun _ htodo => absurd htodo List.not_mem_nil
  present := fun _ htodo => absurd htodo List.not_mem_nil
  noted := h.noted

theorem finish_keeps : Triple (Inv round start noted [] none) (finish round)
      (fun report s => Inv round start noted [] none s ∧ (report.error = none →
        s.memory.errors.messages = [] ∧ Converged round s.memory s.machine.runtime))
      (fun _ => Safe round) (Safe round) := by
  unfold finish
  refine Triple.bind ((inboundTags_keeps fun s hs => hs.safe).failing
    (fun _ s hs => hs.safe)) fun actual => ?_
  refine Triple.bind (Q := fun _ s => Inv round start noted [] none s
    ∧ actual = s.machine.runtime.keys) (Triple.modify ?_) fun _ => ?_
  · exact fun s hs => ⟨hs.1.narrowed _, hs.2⟩
  refine Triple.bind Triple.get fun a => ?_
  refine Triple.bind (Q := fun _ s => Inv round start noted [] none s
    ∧ (s.memory.errors.messages = [] → Converged round s.memory s.machine.runtime)) ?_ fun _ => ?_
  · by_cases hconverged : converged round actual a.memory.known = true
    · rw [if_pos hconverged]
      rintro s ⟨rfl, hinv, hactual⟩
      obtain ⟨hkeys, hknown⟩ := converged_spec hconverged
      exact ⟨hinv, fun _ => ⟨hactual.symm.trans hkeys, hknown⟩⟩
    · rw [if_neg hconverged]
      refine Triple.modify fun s hs => ⟨hs.2.1.remembered rfl fun _ => push_ne_nil _ _, ?_⟩
      exact fun hnil => absurd hnil (push_ne_nil _ _)
  refine Triple.bind ((writeCheckpoint_keeps (K := fun memory runtime =>
    memory.errors.messages = [] → Converged round memory runtime)).failing
      (fun _ s hs => hs.1.safe)) fun _ => ?_
  refine Triple.bind Triple.get fun b => ?_
  rintro s ⟨rfl, hinv, hconverged, -⟩
  exact ⟨hinv, fun herror => ⟨finish_eq_none herror, hconverged (finish_eq_none herror)⟩⟩

/-- What is remembered is of the file as the round found it. -/
def Recalled (machine : Machine) (memory : Memory) (runtime : OrdMap ℤ ForwardingRuleDesired) :
    Prop :=
  runtime = machine.runtime
    ∧ ∀ id rule, memory.known.get? id = some rule → machine.record id = some rule

theorem Inv.recalled (hhonest : s.machine.Honest) (hmoments : s.moments = []) (actual : List ℤ) :
    Inv round s.machine False [] none
        { s with memory := readBack ((readCheckpoint s.machine.disk).toOption.getD .none) actual }
      ∧ Recalled s.machine (readBack ((readCheckpoint s.machine.disk).toOption.getD .none) actual)
        s.machine.runtime := by
  have hrules : ((readCheckpoint s.machine.disk).toOption.getD .none).applied.rules
      = s.machine.recorded := by
    unfold readCheckpoint Machine.recorded
    cases s.machine.disk <;> rfl
  have hget : ∀ id rule,
      (readBack ((readCheckpoint s.machine.disk).toOption.getD .none) actual).known.get? id
        = some rule → s.machine.record id = some rule := by
    intro id rule hknown
    unfold readBack at hknown
    rw [hrules, OrdMap.get?_filter, Option.filter_eq_some_iff, OrdMap.get?_ofList] at hknown
    exact hknown.1
  refine ⟨⟨hhonest, ?_, ?_, fun _ _ htodo => absurd htodo List.not_mem_nil,
    fun _ htodo => absurd htodo List.not_mem_nil,
    fun _ htodo => absurd htodo List.not_mem_nil, False.elim⟩, rfl, hget⟩
  · intro moment hmoment
    rw [hmoments] at hmoment
    cases hmoment
  · intro id rule hknown _
    obtain ⟨r, hr, heq⟩ := List.mem_map.mp (OrdMap.mem_of_lastOf (hget id rule hknown))
    cases heq
    exact ⟨rfl, hhonest rule hr⟩

theorem Inv.begins (h : Inv round start noted [] none s)
    (hrecalled : Recalled start s.memory s.machine.runtime) (hsynced : Synced s) :
    Inv round start noted start.runtime.keys none s where
  honest := h.honest
  moments := h.moments
  known := h.known
  linked := fun rule hrule _ => hsynced rule hrule
  unread := fun id _ rule hknown => hrecalled.2 id rule hknown
  present := by
    intro id hid
    rw [hrecalled.1]
    exact ⟨OrdMap.mem_keys.mp hid, OrdMap.mem_keys.mp hid⟩
  noted := h.noted

/-- **A round.**  Wherever it ends, every record is so and every change was sound; and if it
reports no error, nothing was blocked and the listeners are those that are wanted. -/
theorem reconcileListeners_keeps (hcareful : Careful round start) :
    Triple (fun s => s = begun start ∧ start.Honest) (reconcileListeners round)
      (fun report s => Inv round start (Blocked round) [] none s ∧ (report.error = none →
        s.memory.errors.messages = [] ∧ Converged round s.memory s.machine.runtime))
      (fun _ => Safe round) (Safe round) := by
  unfold reconcileListeners
  refine Triple.bind Triple.get fun a => Triple.assume fun s hs => ?_
  obtain ⟨rfl, rfl, hhonest⟩ := hs
  have hsafe : Safe round (begun start) := ⟨hhonest, fun _ hmoment => absurd hmoment List.not_mem_nil⟩
  dsimp only
  refine Triple.bind ((inboundTags_keeps (P := fun s => s = begun start) ?_).failing
    ?_) fun actual => Triple.assume fun s hs => ?_
  · rintro s rfl
    exact hsafe
  · rintro error s rfl
    exact hsafe
  obtain ⟨rfl, rfl⟩ := hs
  refine Triple.bind (Q := fun _ s => Inv round start False [] none s
    ∧ Recalled start s.memory s.machine.runtime) (Triple.modify ?_) fun _ => ?_
  · rintro s rfl
    exact Inv.recalled (s := begun start) hhonest rfl _
  refine Triple.bind (Q := fun _ => Inv round start False start.runtime.keys none)
    ((writeCheckpoint_keeps (K := Recalled start)).weaken (fun _ hs => hs) ?_
      (fun _ s hs => hs.1.safe) fun _ hs => hs) fun _ => ?_
  · exact fun _ s hs => hs.1.begins hs.2.1 hs.2.2
  refine Triple.bind reportObstacles_notes fun _ => ?_
  refine Triple.bind (Q := fun _ => Inv round start (Blocked round) [] none)
    (Triple.each (I := fun rest => Inv round start (Blocked round) rest none) ?_) fun _ => ?_
  · rintro id rest ⟨before, hsplit⟩
    have hnodup := OrdMap.nodup_keys start.runtime
    rw [← hsplit] at hnodup
    exact reviseListener_keeps hcareful
      (List.nodup_cons.mp (List.nodup_append.mp hnodup).2.1).1
  refine Triple.bind (Q := fun _ => Inv round start (Blocked round) [] none) ?_ fun _ => finish_keeps
  split
  · refine Triple.each (I := fun _ => Inv round start (Blocked round) [] none) ?_
    rintro rule rest ⟨before, hsplit⟩
    have hvalue : rule ∈ round.wanted.values := by
      rw [← hsplit]
      exact List.mem_append_right _ List.mem_cons_self
    obtain ⟨id, hwanted⟩ := OrdMap.mem_values.mp hvalue
    refine supplyListener_keeps ?_
    rw [(wanted_spec hwanted).1]
    exact hwanted
  · exact fun s hs => hs

end Brocade.Forwarding
