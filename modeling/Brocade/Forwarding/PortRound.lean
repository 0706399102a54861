/-
One round on a machine where only ports stand in the way.

The listeners are looked at in the order of their ids, and so are the wanted rules after them.
A listener that turns up finds those before it as the round leaves them and those behind it as
the round found them (`between`).  With that view of its neighbours its end is decided, and so
the whole round is (`round_returns`): what is known of every id, whether an error is reported,
and that the next round finds the machine as well known as this one did.
-/
import Brocade.Forwarding.Ports

namespace Brocade.Forwarding

open Faulty

/-- What is known of the listeners, by id. -/
abbrev Listeners : Type := ℤ → Option ForwardingRuleDesired

/-- What an id finds at its turn: the ids before it are done. -/
def between (before after : Listeners) (id : ℤ) : Listeners :=
  fun other => if other < id then after other else before other

/-- What becomes of a listener. -/
inductive Revised (want before after : Listeners) (id : ℤ) (previous : ForwardingRuleDesired) :
    Prop where
  | gone (hwant : want id = none) (hafter : after id = none)
  | settled (replacement : ForwardingRuleDesired) (hwant : want id = some replacement)
      (hfree : levelFlag (some replacement) previous = replacement
        ∨ ¬Taken (between before after id) replacement)
      (hafter : after id = some replacement)
  | stuck (replacement : ForwardingRuleDesired) (hwant : want id = some replacement)
      (hdiffers : levelFlag (some replacement) previous ≠ replacement)
      (htaken : Taken (between before after id) replacement)
      (hafter : after id = some (levelFlag (some replacement) previous))

/-- What becomes of a wanted rule that has no listener. -/
inductive Furnished (before after : Listeners) (replacement : ForwardingRuleDesired) : Prop where
  | settled (hfree : ¬Taken (between before after replacement.id) replacement)
      (hafter : after replacement.id = some replacement)
  | stuck (htaken : Taken (between before after replacement.id) replacement)
      (hafter : after replacement.id = none)

/-- What a round makes of the listeners: those it found first, and then the wanted rules that
have none. -/
structure Moved (want before after : Listeners) : Prop where
  moves : ∃ mid : Listeners,
    (∀ id previous, before id = some previous → Revised want before mid id previous)
    ∧ (∀ id, before id = none → mid id = none)
    ∧ (∀ id, (mid id ≠ none ∨ want id = none) → after id = mid id)
    ∧ ∀ id replacement, want id = some replacement → mid id = none → Furnished mid after replacement

/-- What a round reads of its machine. -/
def remembered (machine : Machine) : Memory :=
  readBack ((readCheckpoint machine.disk).toOption.getD .none) machine.runtime.keys

/-- The agent knows the listeners of the machine. -/
structure Owned (round : Round) (machine : Machine) : Prop where
  readable : ∃ checkpoint, readCheckpoint machine.disk = .ok checkpoint
  tracked : Tracked round machine.runtime (remembered machine)

section Round

variable {round : Round} {machine : Machine}

theorem Owned.held (h : Owned round machine) : Held round machine.runtime (remembered machine) := by
  refine ⟨h.tracked, fun id => ?_⟩
  show id ∈ machine.runtime.keys.toFinset ↔ _
  rw [List.mem_toFinset, OrdMap.mem_keys]

variable {rule : ForwardingRuleDesired} {s : State} {id : ℤ} {before : Listeners} {actual : List ℤ}
    {runtime : OrdMap ℤ ForwardingRuleDesired} {memory : Memory}

theorem wanted_contains (hrule : rule ∈ round.rules) (hallowed : round.enforceable rule = true) :
    round.wanted.contains rule.id = true := by
  cases hget : round.wanted.get? rule.id with
  | some other => exact OrdMap.contains_iff.mpr ⟨other, hget⟩
  | none =>
    rw [Round.wanted, OrdMap.get?_ofList, OrdMap.lastOf_eq_none] at hget
    exact absurd rfl (hget (rule.id, rule)
      (List.mem_map_of_mem (List.mem_filter.mpr ⟨hrule, hallowed⟩)))

theorem reportObstacles_returns {checkpoint : Except String ForwardingCheckpoint}
    (hready : round.outboundReady = true)
    (hallowed : ∀ rule ∈ round.rules, round.enforceable rule = true)
    (hreadable : ∃ read, checkpoint = .ok read) :
    Returns (reportObstacles round checkpoint) s fun _ t => t = s := by
  obtain ⟨read, rfl⟩ := hreadable
  unfold reportObstacles
  refine (Returns.each (I := fun _ t => t = s) rfl ?_).bind ?_
  · intro done rule rest hsplit t _ ht
    have hrule : rule ∈ round.rules := by
      rw [← hsplit]
      exact List.mem_append_right _ List.mem_cons_self
    unfold reportBlocked
    rw [if_pos (wanted_contains hrule (hallowed rule hrule))]
    exact Returns.pure ht
  · intro _ t ht
    refine (Returns.pure (Q := fun _ t => t = s) ht).bind ?_
    intro _ u hu
    rw [hready]
    exact Returns.pure hu

/-- **What a round begins with**: what the file says of the listeners that are there. -/
theorem opened_returns (hready : round.outboundReady = true)
    (hrest : ∀ site, site.binds = false → round.faults site = .none)
    (hallowed : ∀ rule ∈ round.rules, round.enforceable rule = true)
    (hreadable : ∃ checkpoint, readCheckpoint machine.disk = .ok checkpoint) :
    Returns (opened round) (begun machine) fun actual t =>
      actual = machine.runtime.keys ∧ Shows t machine.runtime (remembered machine) := by
  unfold opened
  refine Returns.bind (Returns.get (Q := fun a t => a = begun machine ∧ t = begun machine)
    ⟨rfl, rfl⟩) ?_
  rintro _ _ ⟨rfl, rfl⟩
  refine (inboundTags_returns (hrest _ rfl)).bind ?_
  rintro _ _ ⟨rfl, rfl⟩
  refine remember_returns.bind ?_
  rintro _ _ rfl
  refine (writeCheckpoint_returns (hrest _ rfl)).bind ?_
  rintro _ t ⟨ht, -⟩
  refine (reportObstacles_returns hready hallowed hreadable).bind ?_
  rintro _ _ rfl
  exact Returns.pure ⟨rfl, ht⟩

/-! ### The listeners -/

/-- What holds when the listeners `done` are done. -/
structure AfterRevising (round : Round) (before : Listeners) (done : List ℤ) (s : State) : Prop where
  held : Held round s.machine.runtime s.memory
  others : ∀ id, id ∉ done → s.memory.known.get? id = before id
  revised : ∀ id ∈ done, ∀ previous, before id = some previous →
    Revised round.wanted.get? before s.memory.known.get? id previous
  quiet : (∀ id ∈ done, ∀ replacement, round.wanted.get? id = some replacement →
    s.memory.known.get? id = some replacement) → s.memory.errors = .none

theorem between_congr (before : Listeners) {after after' : Listeners}
    (h : ∀ other, other < id → after' other = after other) :
    between before after' id = between before after id := by
  funext other
  unfold between
  by_cases hlt : other < id
  · rw [if_pos hlt, if_pos hlt, h other hlt]
  · rw [if_neg hlt, if_neg hlt]

theorem Revised.congr {want after after' : Listeners} {previous : ForwardingRuleDesired}
    (h : Revised want before after id previous)
    (hafter : ∀ other, other ≤ id → after' other = after other) :
    Revised want before after' id previous := by
  have hbetween := between_congr before fun other (hlt : other < id) =>
    hafter other (le_of_lt hlt)
  have hid := hafter id (le_refl id)
  cases h with
  | gone hwant hgone => exact .gone hwant (hid.trans hgone)
  | settled replacement hwant hfree hsettled =>
    exact .settled replacement hwant (hbetween ▸ hfree) (hid.trans hsettled)
  | stuck replacement hwant hdiffers htaken hstuck =>
    exact .stuck replacement hwant hdiffers (hbetween ▸ htaken) (hid.trans hstuck)

/-- **One more listener is done.** -/
theorem AfterRevising.step {done : List ℤ} {previous : ForwardingRuleDesired} {t : State}
    (h : AfterRevising round before done s) (hdone : ∀ other ∈ done, other < id)
    (hprevious : before id = some previous) (hturn : Turn round id previous s t) :
    AfterRevising round before (done ++ [id]) t := by
  have hid : id ∉ done := fun hmem => lt_irrefl id (hdone id hmem)
  have hkept : ∀ other ∈ done, t.memory.known.get? other = s.memory.known.get? other :=
    fun other hmem => hturn.others other fun heq => hid (heq ▸ hmem)
  -- its neighbours are as the round has left them so far
  have hview : between before t.memory.known.get? id = s.memory.known.get? := by
    funext other
    unfold between
    by_cases hlt : other < id
    · rw [if_pos hlt, hturn.others other (ne_of_lt hlt)]
    · rw [if_neg hlt, h.others other fun hmem => hlt (hdone other hmem)]
  refine ⟨hturn.held, ?_, ?_, ?_⟩
  · intro other hother
    rw [List.mem_append, List.mem_singleton, not_or] at hother
    rw [hturn.others other hother.2, h.others other hother.1]
  · intro other hother previous' hbefore
    rcases List.mem_append.mp hother with hmem | hnew
    · refine (h.revised other hmem previous' hbefore).congr fun low hlow => ?_
      exact hturn.others low fun heq => absurd (hdone other hmem) (by omega)
    · obtain rfl := List.mem_singleton.mp hnew
      obtain rfl : previous = previous' := Option.some.inj (hprevious.symm.trans hbefore)
      cases hturn.turned with
      | gone hwanted hknown herrors => exact .gone hwanted hknown
      | settled replacement hwanted hfree hknown herrors =>
        exact .settled replacement hwanted (by rw [hview]; exact hfree) hknown
      | stuck replacement hwanted hdiffers htaken hknown herrors =>
        exact .stuck replacement hwanted hdiffers (by rw [hview]; exact htaken) hknown
  · intro hall
    have herrors : s.memory.errors = .none := by
      refine h.quiet fun other hmem replacement hwanted => ?_
      rw [← hkept other hmem]
      exact hall other (List.mem_append_left _ hmem) replacement hwanted
    cases hturn.turned with
    | gone hwanted hknown hsame => rw [hsame, herrors]
    | settled replacement hwanted hfree hknown hsame => rw [hsame, herrors]
    | stuck replacement hwanted hdiffers htaken hknown hnoted =>
      have hsettled := hall id (List.mem_append_right _ List.mem_cons_self) replacement hwanted
      rw [hknown, Option.some.injEq] at hsettled
      exact absurd hsettled hdiffers

theorem keys_sorted (m : OrdMap ℤ ForwardingRuleDesired) : m.keys.Pairwise (· < ·) :=
  List.pairwise_map.mpr m.sorted

theorem filter_lt_of_split {α : Type} (key : α → ℤ) {done rest : List α} {a : α}
    (h : ((done ++ a :: rest).map key).Pairwise (· < ·)) :
    ((done ++ a :: rest).filter fun other => key other < key a) = done := by
  rw [List.map_append, List.pairwise_append] at h
  obtain ⟨-, hrest, hdone⟩ := h
  have hbehind := (List.pairwise_cons.mp hrest).1
  rw [List.filter_append, List.filter_eq_self.mpr, List.filter_eq_nil_iff.mpr, List.append_nil]
  · intro other hother
    rcases List.mem_cons.mp hother with rfl | hmem
    · simp
    · have hlt := hbehind (key other) (List.mem_map_of_mem hmem)
      simp only [decide_eq_true_eq, not_lt]
      exact le_of_lt hlt
  · intro other hother
    exact decide_eq_true
      (hdone (key other) (List.mem_map_of_mem hother) (key a) List.mem_cons_self)

/-- **All listeners of the snapshot are done.** -/
theorem revise_returns (hready : round.outboundReady = true) (hports : OnPorts round machine)
    (howned : Owned round machine) (hopened : opened round (begun machine) = (.ok actual, s))
    (hactual : actual = machine.runtime.keys)
    (hshows : Shows s machine.runtime (remembered machine)) :
    Returns (Act.each (reviseListener round) actual) s fun _ t =>
      AfterRevising round (remembered machine).known.get? actual t := by
  subst hactual
  refine Returns.each (I := fun done t =>
    AfterRevising round (remembered machine).known.get? done t) ?_ ?_
  · rw [← hshows.memory]
    refine ⟨?_, fun _ _ => rfl, fun _ hmem => absurd hmem List.not_mem_nil, fun _ => ?_⟩
    · rw [hshows.runtime, hshows.memory]
      exact howned.held
    · rw [hshows.memory]
      rfl
  · intro done id rest hsplit t hrun hafter
    have hsorted := keys_sorted machine.runtime
    have hbefore : (machine.runtime.keys.filter fun other => other < id) = done := by
      rw [← hsplit]
      refine filter_lt_of_split (fun other : ℤ => other) ?_
      rw [List.map_id', hsplit]
      exact hsorted
    have hdone : ∀ other ∈ done, other < id := by
      intro other hother
      rw [← hbefore] at hother
      exact of_decide_eq_true (List.mem_filter.mp hother).2
    have hthere : machine.runtime.contains id = true := by
      rw [← OrdMap.mem_keys, ← hsplit]
      exact List.mem_append_right _ List.mem_cons_self
    rw [howned.tracked.contains] at hthere
    obtain ⟨previous, hprevious⟩ := OrdMap.contains_iff.mp hthere
    have hknown := (hafter.others id fun hmem => lt_irrefl id (hdone id hmem)).trans hprevious
    -- the state the ports are asked in is this one
    have hturn : reviseTurn round machine id = t := by
      refine (congrArg Prod.snd (Act.run_bind hopened)).trans ?_
      rw [hbefore, hrun]
    refine (reviseListener_returns hready hports.rest hafter.held hknown ?_ ?_).weaken ?_
    · intro replacement hwanted
      rw [← hturn]
      exact hports.preflight id replacement hwanted
    · intro replacement hwanted
      rw [← hturn]
      exact hports.replace id replacement hwanted
    · intro _ u hu
      exact hafter.step hdone hprevious hu

/-! ### The wanted rules -/

/-- What holds when the wanted rules `done` are done. -/
structure AfterSupplying (round : Round) (before : Listeners) (done : List ForwardingRuleDesired)
    (s : State) : Prop where
  tracked : Tracked round s.machine.runtime s.memory
  remaining : ∀ id, id ∈ s.memory.remaining ↔ before id ≠ none
  others : ∀ id, (before id ≠ none ∨ ∀ rule ∈ done, rule.id ≠ id) →
    s.memory.known.get? id = before id
  furnished : ∀ rule ∈ done, before rule.id = none → Furnished before s.memory.known.get? rule
  quiet : (∀ id replacement, round.wanted.get? id = some replacement →
    (before id ≠ none ∨ ∃ rule ∈ done, rule.id = id) →
    s.memory.known.get? id = some replacement) → s.memory.errors = .none

theorem AfterRevising.supplying (h : AfterRevising round before actual s)
    (hactual : ∀ id, id ∈ actual ↔ before id ≠ none) :
    AfterSupplying round s.memory.known.get? [] s := by
  refine ⟨h.held.tracked, ?_, fun _ _ => rfl, fun _ hmem => absurd hmem List.not_mem_nil, ?_⟩
  · intro id
    rw [h.held.remaining, h.held.tracked.contains, OrdMap.contains, Option.isSome_iff_ne_none]
  · intro hall
    refine h.quiet fun id hid replacement hwanted => ?_
    refine hall id replacement hwanted (.inl ?_)
    obtain ⟨previous, hprevious⟩ := Option.ne_none_iff_exists'.mp ((hactual id).mp hid)
    cases h.revised id hid previous hprevious with
    | gone hnone _ =>
      rw [hwanted] at hnone
      cases hnone
    | settled _ _ _ hafter =>
      rw [hafter]
      exact Option.some_ne_none _
    | stuck _ _ _ _ hafter =>
      rw [hafter]
      exact Option.some_ne_none _

theorem AfterSupplying.kept {done : List ForwardingRuleDesired}
    (h : AfterSupplying round before done s) (hthere : before rule.id ≠ none) :
    AfterSupplying round before (done ++ [rule]) s := by
  refine ⟨h.tracked, h.remaining, ?_, ?_, ?_⟩
  · intro id hid
    refine h.others id (hid.imp_right fun hnone r hr => hnone r (List.mem_append_left _ hr))
  · intro r hr hnone
    rcases List.mem_append.mp hr with hmem | hnew
    · exact h.furnished r hmem hnone
    · exact absurd hnone (List.mem_singleton.mp hnew ▸ hthere)
  · intro hall
    refine h.quiet fun id replacement hwanted hid => hall id replacement hwanted ?_
    exact hid.imp_right fun ⟨r, hr, heq⟩ => ⟨r, List.mem_append_left _ hr, heq⟩

/-- **One more wanted rule is done.** -/
theorem AfterSupplying.step {done : List ForwardingRuleDesired} {t : State}
    (h : AfterSupplying round before done s) (hdone : ∀ r ∈ done, r.id < rule.id)
    (hwanted : round.wanted.get? rule.id = some rule) (hnone : before rule.id = none)
    (htracked : Tracked round t.machine.runtime t.memory)
    (hremaining : t.memory.remaining = s.memory.remaining)
    (hothers : ∀ other, other ≠ rule.id → t.memory.known.get? other = s.memory.known.get? other)
    (hsupplied : Supplied rule s t) : AfterSupplying round before (done ++ [rule]) t := by
  have hkept : ∀ id, (before id ≠ none ∨ ∃ r ∈ done, r.id = id) →
      t.memory.known.get? id = s.memory.known.get? id := by
    rintro id (hbefore | ⟨r, hr, rfl⟩)
    · exact hothers id fun heq => hbefore (heq ▸ hnone)
    · exact hothers r.id (ne_of_lt (hdone r hr))
  have hview : between before t.memory.known.get? rule.id = s.memory.known.get? := by
    funext other
    unfold between
    by_cases hlt : other < rule.id
    · rw [if_pos hlt, hothers other (ne_of_lt hlt)]
    · rw [if_neg hlt, h.others other (.inr fun r hr heq => hlt (heq ▸ hdone r hr))]
  refine ⟨htracked, by rw [hremaining]; exact h.remaining, ?_, ?_, ?_⟩
  · intro id hid
    have hne : id ≠ rule.id := by
      rintro rfl
      rcases hid with hbefore | hnew
      · exact hbefore hnone
      · exact hnew rule (List.mem_append_right _ List.mem_cons_self) rfl
    rw [hothers id hne]
    exact h.others id (hid.imp_right fun hnew r hr => hnew r (List.mem_append_left _ hr))
  · intro r hr hrnone
    rcases List.mem_append.mp hr with hmem | hnew
    · have hsame := between_congr before
        fun other (hlt : other < r.id) => hothers other (by have := hdone r hmem; omega)
      cases h.furnished r hmem hrnone with
      | settled hfree hafter =>
        exact .settled (hsame ▸ hfree) ((hothers r.id (ne_of_lt (hdone r hmem))).trans hafter)
      | stuck htaken hafter =>
        exact .stuck (hsame ▸ htaken) ((hothers r.id (ne_of_lt (hdone r hmem))).trans hafter)
    · obtain rfl := List.mem_singleton.mp hnew
      cases hsupplied with
      | settled hfree hknown _ => exact .settled (by rw [hview]; exact hfree) hknown
      | stuck htaken hknown _ => exact .stuck (by rw [hview]; exact htaken) hknown
  · intro hall
    have herrors : s.memory.errors = .none := by
      refine h.quiet fun id replacement hid hcov => ?_
      rw [← hkept id hcov]
      exact hall id replacement hid
        (hcov.imp_right fun ⟨r, hr, heq⟩ => ⟨r, List.mem_append_left _ hr, heq⟩)
    cases hsupplied with
    | settled _ _ hsame => rw [hsame, herrors]
    | stuck _ hknown _ =>
      have hset := hall rule.id rule hwanted
        (.inr ⟨rule, List.mem_append_right _ List.mem_cons_self, rfl⟩)
      rw [hknown] at hset
      cases hset

theorem wanted_values_id : round.wanted.values.map (·.id) = round.wanted.keys := by
  unfold OrdMap.values OrdMap.keys
  rw [List.map_map]
  refine List.map_congr_left fun entry hentry => ?_
  exact (wanted_spec (OrdMap.mem_entries.mp hentry)).1

/-- **All wanted rules are done.** -/
theorem supply_returns {u : State} (hports : OnPorts round machine)
    (hopened : opened round (begun machine) = (.ok actual, s))
    (hrevised : Act.each (reviseListener round) actual s = (.ok (), u))
    (hbegin : AfterSupplying round before [] u) :
    Returns (Act.each (supplyListener round) round.wanted.values) u fun _ t =>
      AfterSupplying round before round.wanted.values t := by
  refine Returns.each (I := fun done t => AfterSupplying round before done t) hbegin ?_
  intro done rule rest hsplit t hrun hafter
  have hsorted : ((done ++ rule :: rest).map (·.id)).Pairwise (· < ·) := by
    rw [hsplit, wanted_values_id]
    exact keys_sorted round.wanted
  have hbefore : (round.wanted.values.filter fun other => other.id < rule.id) = done := by
    rw [← hsplit]
    exact filter_lt_of_split ForwardingRuleDesired.id hsorted
  have hdone : ∀ r ∈ done, r.id < rule.id := by
    intro r hr
    rw [← hbefore] at hr
    exact of_decide_eq_true (List.mem_filter.mp hr).2
  have hwanted : round.wanted.get? rule.id = some rule := by
    have hvalue : rule ∈ round.wanted.values := by
      rw [← hsplit]
      exact List.mem_append_right _ List.mem_cons_self
    obtain ⟨id, hid⟩ := OrdMap.mem_values.mp hvalue
    rw [(wanted_spec hid).1]
    exact hid
  by_cases hnone : before rule.id = none
  · have hunknown : t.memory.known.get? rule.id = none := by
      rw [hafter.others rule.id (.inr fun r hr heq => absurd (hdone r hr) (by omega)), hnone]
    have hfree : t.machine.runtime.contains rule.id = false := by
      rw [hafter.tracked.contains, OrdMap.contains, hunknown]
      rfl
    have hturn : supplyTurn round machine rule.id = t := by
      refine (congrArg Prod.snd ((Act.run_bind hopened).trans (Act.run_bind hrevised))).trans ?_
      rw [hbefore, hrun]
    refine (supplyListener_returns hports.rest hafter.tracked ?_ hfree ?_).weaken ?_
    · rw [hafter.remaining]
      exact not_not.mpr hnone
    · rw [← hturn]
      exact hports.add rule.id rule hwanted
    · rintro _ v ⟨htracked, hremaining, hothers, hsupplied⟩
      exact hafter.step hdone hwanted hnone htracked hremaining hothers hsupplied
  · refine (supplyListener_kept ((hafter.remaining rule.id).mpr hnone)).weaken ?_
    rintro _ _ rfl
    exact hafter.kept hnone

/-! ### The end of the round -/

theorem Tracked.keys_eq (h : Tracked round runtime memory) : runtime.keys = memory.known.keys := by
  refine List.Perm.eq_of_pairwise (fun x y _ _ hxy hyx => ?_)
    (keys_sorted runtime) (keys_sorted memory.known) ?_
  · exact absurd hxy (not_lt.mpr (le_of_lt hyx))
  · refine (List.perm_ext_iff_of_nodup runtime.nodup_keys memory.known.nodup_keys).mpr fun id => ?_
    rw [OrdMap.mem_keys, OrdMap.mem_keys, h.contains]

theorem Tracked.filter_known (h : Tracked round runtime memory) :
    (memory.known.filter fun entry => decide (entry.1 ∈ runtime.keys)) = memory.known := by
  refine OrdMap.ext_of_get? fun id => ?_
  rw [OrdMap.get?_filter]
  cases hget : memory.known.get? id with
  | none => rfl
  | some rule =>
    have hthere : id ∈ runtime.keys := by
      rw [OrdMap.mem_keys, h.contains]
      exact OrdMap.contains_iff.mpr ⟨rule, hget⟩
    rw [Option.filter_some, if_pos (decide_eq_true hthere)]

theorem Tracked.converged_iff (h : Tracked round runtime memory) :
    converged round runtime.keys memory.known = true
      ↔ ∀ id, memory.known.get? id = round.wanted.get? id := by
  constructor
  · intro hconverged id
    obtain ⟨hkeys, hknown⟩ := converged_spec hconverged
    cases hwanted : round.wanted.get? id with
    | some rule => exact hknown id rule hwanted
    | none =>
      have hnot : id ∉ memory.known.keys := by
        rw [← h.keys_eq, hkeys, OrdMap.mem_keys, OrdMap.contains, hwanted]
        decide
      rw [OrdMap.mem_keys, OrdMap.contains_iff, not_exists] at hnot
      exact Option.eq_none_iff_forall_ne_some.mpr hnot
  · intro hall
    have hsame : memory.known = round.wanted := OrdMap.ext_of_get? hall
    unfold converged
    rw [h.keys_eq, hsame, Bool.and_eq_true, decide_eq_true_eq, List.all_eq_true]
    refine ⟨rfl, fun entry hentry => decide_eq_true ?_⟩
    exact OrdMap.mem_entries.mp hentry

/-- **The report of a round.** -/
theorem finish_returns (hrest : ∀ site, site.binds = false → round.faults site = .none)
    (h : Tracked round s.machine.runtime s.memory)
    (hquiet : (∀ id, s.memory.known.get? id = round.wanted.get? id) → s.memory.errors = .none) :
    Returns (finish round) s fun report t =>
      (report.error = none ↔ ∀ id, s.memory.known.get? id = round.wanted.get? id)
        ∧ report.appliedRuleIds = s.machine.runtime.keys
        ∧ t.machine.runtime = s.machine.runtime
        ∧ ∃ checkpoint, t.machine.disk = .holds checkpoint
          ∧ checkpoint.applied.rules = s.memory.known.values := by
  unfold finish
  refine (inboundTags_returns (hrest _ rfl)).bind ?_
  rintro _ u ⟨rfl, rfl⟩
  refine remember_returns.bind ?_
  rintro _ _ rfl
  rw [h.filter_known]
  refine Returns.bind (Returns.get (Q := fun a t => a = u ∧ t = u) ⟨rfl, rfl⟩) ?_
  rintro _ t ⟨rfl, rfl⟩
  refine Returns.bind (Q := fun _ v => v.machine = t.machine ∧ v.memory.known = t.memory.known
    ∧ (v.memory.errors.finish = none ↔ ∀ id, t.memory.known.get? id = round.wanted.get? id)) ?_ ?_
  · have hconverged := h.converged_iff
    by_cases hall : ∀ id, t.memory.known.get? id = round.wanted.get? id
    · rw [if_pos (hconverged.mpr hall)]
      refine Returns.pure ⟨rfl, rfl, ?_⟩
      rw [hquiet hall]
      exact ⟨fun _ => hall, fun _ => rfl⟩
    · rw [if_neg (hconverged.not.mpr hall)]
      refine remember_returns.weaken ?_
      rintro _ _ rfl
      refine ⟨rfl, rfl, fun hnone => ?_, fun hyes => absurd hyes hall⟩
      exact absurd (finish_eq_none hnone) (push_ne_nil _ _)
  · rintro _ v ⟨hmachine, hknown, herrors⟩
    refine (writeCheckpoint_returns (hrest _ rfl)).bind ?_
    rintro _ w ⟨hw, hdisk⟩
    refine Returns.bind (Returns.get (Q := fun a x => a = w ∧ x = w) ⟨rfl, rfl⟩) ?_
    rintro _ x ⟨rfl, rfl⟩
    refine Returns.pure ⟨?_, rfl, ?_, ?_⟩
    · rw [hw.memory]
      exact herrors
    · rw [hw.runtime, hmachine]
    · rw [hknown] at hdisk
      exact hdisk

theorem remembered_known {machine' : Machine} (h : Tracked round s.machine.runtime s.memory)
    (hruntime : machine'.runtime = s.machine.runtime)
    (hdisk : ∃ checkpoint, machine'.disk = .holds checkpoint
      ∧ checkpoint.applied.rules = s.memory.known.values) :
    (remembered machine').known = s.memory.known := by
  obtain ⟨checkpoint, hholds, hrules⟩ := hdisk
  have hentries : (s.memory.known.values.map fun rule => (rule.id, rule)) = s.memory.known.entries := by
    unfold OrdMap.values
    rw [List.map_map]
    refine (List.map_congr_left fun entry hentry => ?_).trans (List.map_id _)
    exact Prod.ext (h.known_id (OrdMap.mem_entries.mp hentry)) rfl
  have hlist : OrdMap.ofList s.memory.known.entries = s.memory.known := by
    refine OrdMap.ext_of_get? fun id => ?_
    rw [OrdMap.get?_ofList]
    cases hget : s.memory.known.get? id with
    | some rule =>
      exact OrdMap.lastOf_of_mem s.memory.known.nodup_keys (OrdMap.mem_entries.mpr hget)
    | none =>
      refine OrdMap.lastOf_eq_none.mpr fun entry hentry heq => ?_
      have hsome : s.memory.known.get? entry.1 = some entry.2 := OrdMap.mem_entries.mp hentry
      rw [heq, hget] at hsome
      cases hsome
  unfold remembered readBack
  rw [hholds, hruntime]
  simp only [readCheckpoint, Except.toOption, Option.getD_some]
  rw [hrules, hentries, hlist]
  exact h.filter_known

/-- What a round comes to. -/
structure RoundEnds (round : Round) (machine : Machine) (report : ForwardingReconcileReport)
    (machine' : Machine) : Prop where
  owned : Owned round machine'
  error : report.error = none ↔ ∀ id, (remembered machine').known.get? id = round.wanted.get? id
  applied : report.appliedRuleIds = machine'.runtime.keys
  moved : Moved round.wanted.get? (remembered machine).known.get? (remembered machine').known.get?

/-- **A round on a machine where only ports stand in the way.** -/
theorem round_returns (hready : round.outboundReady = true) (hports : OnPorts round machine)
    (hallowed : ∀ rule ∈ round.rules, round.enforceable rule = true)
    (howned : Owned round machine) :
    Returns (reconcileListeners round) (begun machine) fun report t =>
      RoundEnds round machine report t.machine := by
  obtain ⟨actual, s, hopened, hactual, hshows⟩ :=
    opened_returns hready hports.rest hallowed howned.readable
  obtain ⟨⟨⟩, u, hrevised, hrevising⟩ :=
    revise_returns hready hports howned hopened hactual hshows
  have hthere : ∀ id, id ∈ actual ↔ (remembered machine).known.get? id ≠ none := by
    intro id
    rw [hactual, OrdMap.mem_keys, howned.tracked.contains, OrdMap.contains,
      Option.isSome_iff_ne_none]
  obtain ⟨⟨⟩, v, hsupplied, hsupplying⟩ :=
    supply_returns hports hopened hrevised (hrevising.supplying hthere)
  have hcovered : ∀ id replacement, round.wanted.get? id = some replacement →
      ∃ rule ∈ round.wanted.values, rule.id = id :=
    fun id replacement hid => ⟨replacement, OrdMap.mem_values.mpr ⟨id, hid⟩, (wanted_spec hid).1⟩
  have hquiet : (∀ id, v.memory.known.get? id = round.wanted.get? id) → v.memory.errors = .none :=
    fun hall => hsupplying.quiet fun id replacement hid _ => (hall id).trans hid
  obtain ⟨report, w, hfinished, herror, happlied, hruntime, hdisk⟩ :=
    finish_returns hports.rest hsupplying.tracked hquiet
  have hknown := remembered_known hsupplying.tracked hruntime hdisk
  refine ⟨report, w, ?_, ⟨?_, ?_⟩, ?_, ?_, ⟨u.memory.known.get?, ?_, ?_, ?_, ?_⟩⟩
  · rw [reconcileListeners_eq, hready]
    exact (Act.run_bind hopened).trans ((Act.run_bind hrevised).trans
      ((Act.run_bind hsupplied).trans hfinished))
  · obtain ⟨checkpoint, hholds, -⟩ := hdisk
    exact ⟨checkpoint, by rw [hholds]; rfl⟩
  · rw [hruntime]
    exact hsupplying.tracked.of_known fun id => by rw [hknown]
  · rw [hknown]
    exact herror
  · rw [happlied, hruntime]
  · intro id previous hprevious
    exact hrevising.revised id ((hthere id).mpr (by rw [hprevious]; exact Option.some_ne_none _))
      previous hprevious
  · intro id hnone
    rw [hrevising.others id fun hmem => (hthere id).mp hmem hnone, hnone]
  · intro id hid
    rw [hknown]
    refine hsupplying.others id (hid.imp_right fun hunwanted rule hrule heq => ?_)
    obtain ⟨id', hid'⟩ := OrdMap.mem_values.mp hrule
    rw [← heq, (wanted_spec hid').1, hid'] at hunwanted
    cases hunwanted
  · intro id replacement hid hnone
    obtain ⟨hkey, -, -⟩ := wanted_spec hid
    rw [hknown]
    exact hsupplying.furnished replacement (OrdMap.mem_values.mpr ⟨id, hid⟩) (by rw [hkey]; exact hnone)

end Round

end Brocade.Forwarding
