/-
Rounds over rounds on a machine where only ports stand in the way.

A wanted rule waits for a listener that has a socket it wants.  Where the listener is not
wanted it goes in the first round, and where it is wanted elsewhere it moves once it waits for
none itself.  So every round settles a listener until all are settled, unless some wait for each
other in a ring: a listener is replaced in one piece, and none of them can be the first.
-/
import Brocade.Forwarding.PortRound
import Brocade.Forwarding.Rounds
import Mathlib.Data.Set.Card
import Mathlib.Data.Set.Finite.Lemmas

namespace Brocade.Forwarding

open Faulty

/-! ### Waiting -/

/-- What one rule wants another has. -/
def Waits (want holds : Listeners) (id other : ℤ) : Prop :=
  id ≠ other ∧ ∃ replacement holder, want id = some replacement ∧ holds other = some holder
    ∧ Clash holder replacement

/-- Some rules wait for each other in a ring. -/
def Ring (want holds : Listeners) : Prop := ∃ id, Relation.TransGen (Waits want holds) id id

/-- Rules by their ids, no two of them on one socket. -/
structure Apart (rules : Listeners) : Prop where
  keyed : ∀ id rule, rules id = some rule → rule.id = id
  apart : ∀ id other a b, id ≠ other → rules id = some a → rules other = some b → ¬Clash a b

section Moves

variable {want before after : Listeners}

variable {id : ℤ} {holder replacement : ForwardingRuleDesired} {s : Set ℤ} {holds : Listeners}

theorem Moved.gone (h : Moved want before after) (hwant : want id = none) : after id = none := by
  obtain ⟨mid, hrevised, hnone, hkept, -⟩ := h.moves
  rw [hkept id (.inr hwant)]
  cases hbefore : before id with
  | none => exact hnone id hbefore
  | some previous =>
    cases hrevised id previous hbefore with
    | gone _ hafter => exact hafter
    | settled _ hsome _ _ =>
      rw [hwant] at hsome
      cases hsome
    | stuck _ hsome _ _ _ =>
      rw [hwant] at hsome
      cases hsome

theorem Revised.cases {previous : ForwardingRuleDesired}
    (h : Revised want before after id previous) (hafter : after id = some holder) :
    want id = some holder ∨ unflagged holder = unflagged previous := by
  cases h with
  | gone _ hgone =>
    rw [hgone] at hafter
    cases hafter
  | settled replacement hwant _ hsettled =>
    rw [hsettled, Option.some.injEq] at hafter
    exact .inl (hafter ▸ hwant)
  | stuck replacement _ _ _ hstuck =>
    rw [hstuck, Option.some.injEq] at hafter
    exact .inr (hafter ▸ levelFlag_unflagged _ previous)

theorem Moved.cases (h : Moved want before after) (hwant : Apart want)
    (hafter : after id = some holder) : want id = some holder
      ∨ ∃ previous, before id = some previous ∧ unflagged holder = unflagged previous := by
  obtain ⟨mid, hrevised, hnone, hkept, hfurnished⟩ := h.moves
  cases hid : want id with
  | none =>
    rw [h.gone hid] at hafter
    cases hafter
  | some replacement =>
    by_cases hmid : mid id = none
    · have hkey := hwant.keyed id replacement hid
      cases hfurnished id replacement hid hmid with
      | settled _ hset =>
        rw [hkey, hafter] at hset
        exact .inl hset.symm
      | stuck _ hset =>
        rw [hkey, hafter] at hset
        cases hset
    · rw [hkept id (.inl hmid)] at hafter
      cases hbefore : before id with
      | none => exact absurd (hnone id hbefore) hmid
      | some previous =>
        rcases (hrevised id previous hbefore).cases hafter with hset | hflag
        · exact .inl (hid.symm.trans hset)
        · exact .inr ⟨previous, rfl, hflag⟩

theorem Moved.stays (h : Moved want before after) {rule : ForwardingRuleDesired}
    (hbefore : before id = some rule) (hwant : want id = some rule) : after id = some rule := by
  obtain ⟨mid, hrevised, -, hkept, -⟩ := h.moves
  have hmid : mid id = some rule := by
    cases hrevised id rule hbefore with
    | gone hnone _ =>
      rw [hwant] at hnone
      cases hnone
    | settled replacement hsome _ hset => exact hset.trans (hsome.symm.trans hwant)
    | stuck replacement hsome hdiffers _ _ =>
      rw [hwant, Option.some.injEq] at hsome
      exact absurd (hsome ▸ levelFlag_self) hdiffers
  rw [hkept id (.inl (by rw [hmid]; exact Option.some_ne_none _)), hmid]

theorem Moved.waits (h : Moved want before after) (hwant : Apart want) {other : ℤ}
    (hwaits : Waits want after id other) : Waits want before id other := by
  obtain ⟨hne, replacement, holder, hid, hother, hclash⟩ := hwaits
  rcases h.cases hwant hother with hset | ⟨previous, hbefore, hflag⟩
  · exact absurd hclash (hwant.apart other id holder replacement (Ne.symm hne) hset hid)
  · exact ⟨hne, replacement, previous, hid, hbefore, (clash_unflagged hflag replacement).mp hclash⟩

theorem Moved.ring (h : Moved want before after) (hwant : Apart want) (hring : Ring want after) :
    Ring want before := by
  obtain ⟨id, hid⟩ := hring
  exact ⟨id, Relation.TransGen.mono (fun _ _ hwaits => h.waits hwant hwaits) id id hid⟩

/-! ### Progress -/

/-- The listeners that are not yet as wanted. -/
def Unsettled (want holds : Listeners) : Set ℤ := {id | holds id ≠ none ∧ holds id ≠ want id}

/-- Every listener is wanted, in whatever form. -/
def Clean (want holds : Listeners) : Prop := ∀ id, want id = none → holds id = none

theorem Moved.clean (h : Moved want before after) : Clean want after := fun _ => h.gone

theorem Moved.unsettled (h : Moved want before after) (hwant : Apart want) :
    Unsettled want after ⊆ Unsettled want before := by
  rintro id ⟨hthere, hdiffers⟩
  obtain ⟨holder, hafter⟩ := Option.ne_none_iff_exists'.mp hthere
  rcases h.cases hwant hafter with hset | ⟨previous, hbefore, -⟩
  · exact absurd (hafter.trans hset.symm) hdiffers
  · refine ⟨by rw [hbefore]; exact Option.some_ne_none _, fun hsame => hdiffers ?_⟩
    rw [hbefore] at hsame
    rw [h.stays hbefore hsame.symm, hsame]

/-- In what a round finds and leaves, what clashes with a wanted rule was there before. -/
theorem waits_of_taken {mid : Listeners} (hwant : Apart want) (hid : want id = some replacement)
    (hmid : ∀ other holder, mid other = some holder → want other = some holder
      ∨ ∃ previous, before other = some previous ∧ unflagged holder = unflagged previous)
    (htaken : Taken (between before mid id) replacement) : ∃ other, Waits want before id other := by
  obtain ⟨other, holder, hne, hother, hclash⟩ := htaken
  rw [hwant.keyed id replacement hid] at hne
  unfold between at hother
  by_cases hlt : other < id
  · rw [if_pos hlt] at hother
    rcases hmid other holder hother with hset | ⟨previous, hbefore, hflag⟩
    · exact absurd hclash (hwant.apart other id holder replacement hne hset hid)
    · exact ⟨other, Ne.symm hne, replacement, previous, hid, hbefore,
        (clash_unflagged hflag replacement).mp hclash⟩
  · rw [if_neg hlt] at hother
    exact ⟨other, Ne.symm hne, replacement, holder, hid, hother, hclash⟩

/-- **A listener that waits for nothing is settled.** -/
theorem Moved.settles (h : Moved want before after) (hwant : Apart want)
    {previous : ForwardingRuleDesired} (hbefore : before id = some previous)
    (hid : want id = some replacement) (hfree : ∀ other, ¬Waits want before id other) :
    after id = some replacement := by
  obtain ⟨mid, hrevised, hnone, hkept, -⟩ := h.moves
  have hcases : ∀ other holder, mid other = some holder → want other = some holder
      ∨ ∃ previous, before other = some previous ∧ unflagged holder = unflagged previous := by
    intro other holder hother
    cases hb : before other with
    | none =>
      rw [hnone other hb] at hother
      cases hother
    | some found =>
      exact ((hrevised other found hb).cases hother).imp_right fun hflag => ⟨found, rfl, hflag⟩
  have hmid : mid id = some replacement := by
    cases hrevised id previous hbefore with
    | gone hnone' _ =>
      rw [hid] at hnone'
      cases hnone'
    | settled replacement' hsome _ hset => exact hset.trans (hsome.symm.trans hid)
    | stuck replacement' hsome _ htaken _ =>
      obtain ⟨other, hwaits⟩ := waits_of_taken hwant hsome hcases htaken
      exact absurd hwaits (hfree other)
  rw [hkept id (.inl (by rw [hmid]; exact Option.some_ne_none _)), hmid]

theorem exists_waits_none (hfinite : s.Finite) (hs : s.Nonempty) (hring : ¬Ring want before) :
    ∃ id ∈ s, ∀ other ∈ s, ¬Waits want before id other := by
  have : Finite s := hfinite
  let r : s → s → Prop := fun a b => Relation.TransGen (Waits want before) b.1 a.1
  have : IsTrans s r := ⟨fun _ _ _ hab hbc => hbc.trans hab⟩
  have : Std.Irrefl r := ⟨fun a haa => hring ⟨a.1, haa⟩⟩
  have hwf : WellFounded r := Finite.wellFounded_of_trans_of_irrefl r
  obtain ⟨⟨id, hid⟩, -, hmin⟩ := hwf.has_min Set.univ ⟨⟨hs.choose, hs.choose_spec⟩, trivial⟩
  refine ⟨id, hid, fun other hother hwaits => ?_⟩
  exact hmin ⟨other, hother⟩ trivial (Relation.TransGen.single hwaits)

/-- **Every round settles a listener**, as long as one is not and none wait in a ring. -/
theorem Moved.progress (h : Moved want before after) (hwant : Apart want) (hclean : Clean want before)
    (hfinite : (Unsettled want before).Finite) (hsome : (Unsettled want before).Nonempty)
    (hring : ¬Ring want before) :
    (Unsettled want after).ncard < (Unsettled want before).ncard := by
  obtain ⟨id, ⟨hthere, hdiffers⟩, hmin⟩ := exists_waits_none hfinite hsome hring
  obtain ⟨previous, hbefore⟩ := Option.ne_none_iff_exists'.mp hthere
  obtain ⟨replacement, hid⟩ := Option.ne_none_iff_exists'.mp fun hnone => hthere (hclean id hnone)
  have hfree : ∀ other, ¬Waits want before id other := by
    intro other hwaits
    by_cases hother : other ∈ Unsettled want before
    · exact hmin other hother hwaits
    · -- a settled listener holds what it is wanted to hold, and that is apart
      obtain ⟨hne, replacement', holder, hid', hholds, hclash⟩ := hwaits
      have hset : before other = want other := by
        by_contra hnot
        exact hother ⟨by rw [hholds]; exact Option.some_ne_none _, hnot⟩
      exact hwant.apart other id holder replacement' (Ne.symm hne) (hset.symm.trans hholds) hid' hclash
  refine Set.ncard_lt_ncard ⟨h.unsettled hwant, fun hsub => ?_⟩ hfinite
  have hsettled := h.settles hwant hbefore hid hfree
  exact (hsub ⟨hthere, hdiffers⟩).2 (hsettled.trans hid.symm)

/-- **Once all listeners are settled, the round supplies the rest.** -/
theorem Moved.completes (h : Moved want before after) (hwant : Apart want) (hsettled : Unsettled want before = ∅) : after = want := by
  have hbefore : ∀ id holder, before id = some holder → want id = some holder := by
    intro id holder hholds
    by_contra hnot
    have hmem : id ∈ Unsettled want before := by
      refine ⟨by rw [hholds]; exact Option.some_ne_none _, fun heq => hnot ?_⟩
      rw [← heq, hholds]
    rw [hsettled] at hmem
    exact hmem
  have hafter : ∀ id holder, after id = some holder → want id = some holder := by
    intro id holder hholds
    by_contra hnot
    have hmem : id ∈ Unsettled want after := by
      refine ⟨by rw [hholds]; exact Option.some_ne_none _, fun heq => hnot ?_⟩
      rw [← heq, hholds]
    have := h.unsettled hwant hmem
    rw [hsettled] at this
    exact this
  funext id
  cases hid : want id with
  | none => exact h.gone hid
  | some replacement =>
    cases hholds : after id with
    | some holder => rw [← hafter id holder hholds, hid]
    | none =>
      exfalso
      obtain ⟨mid, hrevised, hnone, hkept, hfurnished⟩ := h.moves
      have hmid : mid id = none := by
        by_contra hsome
        rw [hkept id (.inl hsome)] at hholds
        exact hsome hholds
      have hkey := hwant.keyed id replacement hid
      cases hfurnished id replacement hid hmid with
      | settled _ hset =>
        rw [hkey, hholds] at hset
        cases hset
      | stuck htaken _ =>
        obtain ⟨other, holder, hne, hother, hclash⟩ := htaken
        rw [hkey] at hne hother
        have hheld : want other = some holder := by
          unfold between at hother
          by_cases hlt : other < id
          · rw [if_pos hlt] at hother
            exact hafter other holder hother
          · rw [if_neg hlt] at hother
            have hsome : mid other ≠ none := by
              rw [hother]
              exact Option.some_ne_none _
            exact hafter other holder ((hkept other (.inl hsome)).trans hother)
        exact hwant.apart other id holder replacement hne hheld hid hclash

/-! ### Rings -/

/-- The rules of a ring: each waits for another of them. -/
structure Locked (want holds : Listeners) (s : Set ℤ) : Prop where
  finite : s.Finite
  waits : ∀ id ∈ s, ∃ other ∈ s, Waits want holds id other
  apart : Apart holds

theorem Ring.locked (h : Ring want holds) (hapart : Apart holds)
    (hfinite : {id | holds id ≠ none}.Finite) :
    ∃ s : Set ℤ, s.Nonempty ∧ Locked want holds s ∧ ∀ id ∈ s, holds id ≠ none := by
  obtain ⟨start, hstart⟩ := h
  let s : Set ℤ := {id | Relation.TransGen (Waits want holds) start id
    ∧ Relation.TransGen (Waits want holds) id start}
  have hheld : ∀ id ∈ s, holds id ≠ none := by
    rintro id ⟨hto, -⟩
    obtain ⟨before, -, -, replacement, holder, -, hholds, -⟩ := Relation.TransGen.tail'_iff.mp hto
    rw [hholds]
    exact Option.some_ne_none _
  refine ⟨s, ⟨start, hstart, hstart⟩, ⟨hfinite.subset hheld, ?_, hapart⟩, hheld⟩
  rintro id ⟨hto, hfrom⟩
  obtain ⟨other, hwaits, hrest⟩ := Relation.TransGen.head'_iff.mp hfrom
  refine ⟨other, ⟨hto.tail hwaits, ?_⟩, hwaits⟩
  exact Relation.TransGen.trans_right hrest hstart

/-- The same sockets, to the same targets. -/
def Alike (a b : Listeners) (id : ℤ) : Prop := (a id).map unflagged = (b id).map unflagged

theorem Locked.unsettled (h : Locked want holds s) (hid : id ∈ s) (hheld : holds id = some holder)
    (hwant : want id = some replacement) : unflagged holder ≠ unflagged replacement := by
  intro hflag
  obtain ⟨other, -, hne, replacement', holder', hwant', hother, hclash⟩ := h.waits id hid
  rw [hwant, Option.some.injEq] at hwant'
  subst hwant'
  refine h.apart.apart id other holder holder' hne hheld hother ?_
  exact ((clash_unflagged hflag holder').mpr hclash.symm)

/-- **A ring stays**: none of its listeners can be the first to move. -/
theorem Locked.stays (h : Locked want holds s) (hkeyed : Apart want)
    (hheld : ∀ id ∈ s, holds id ≠ none) (hmoved : Moved want before after)
    (hbefore : ∀ id ∈ s, Alike before holds id) : ∀ id ∈ s, Alike after holds id := by
  obtain ⟨mid, hrevised, hnone, hkept, -⟩ := hmoved.moves
  have hthere : ∀ id ∈ s, ∃ previous holder, before id = some previous ∧ holds id = some holder
      ∧ unflagged previous = unflagged holder := by
    intro id hid
    obtain ⟨holder, hholder⟩ := Option.ne_none_iff_exists'.mp (hheld id hid)
    have halike := hbefore id hid
    unfold Alike at halike
    rw [hholder] at halike
    obtain ⟨previous, hprevious, hflag⟩ := Option.map_eq_some_iff.mp halike
    exact ⟨previous, holder, hprevious, hholder, hflag⟩
  have hmid : ∀ id ∈ s, Alike mid holds id := by
    by_contra hnot
    push Not at hnot
    obtain ⟨bad, hbad, hfirst⟩ := Set.exists_min_image {id | id ∈ s ∧ ¬Alike mid holds id} id
      (h.finite.subset fun _ hmem => hmem.1) hnot
    obtain ⟨hbad, hdiffers⟩ := hbad
    obtain ⟨other, hother, hwaits⟩ := h.waits bad hbad
    obtain ⟨hne, replacement, holder, hwant, hholds, hclash⟩ := hwaits
    obtain ⟨previous, holder', hprevious, hholder', hflag⟩ := hthere bad hbad
    -- what it waits for is still there at its turn
    have hview : Alike (between before mid bad) holds other := by
      unfold Alike between
      by_cases hlt : other < bad
      · rw [if_pos hlt]
        by_contra hmoved
        exact absurd (hfirst other ⟨hother, hmoved⟩) (not_le.mpr hlt)
      · rw [if_neg hlt]
        exact hbefore other hother
    have htaken : Taken (between before mid bad) replacement := by
      unfold Alike at hview
      rw [hholds] at hview
      obtain ⟨found, hfound, hsame⟩ := Option.map_eq_some_iff.mp hview
      refine ⟨other, found, ?_, hfound, (clash_unflagged hsame replacement).mpr hclash⟩
      rw [hkeyed.keyed bad replacement hwant]
      exact Ne.symm hne
    have hunsettled := h.unsettled hbad hholder' hwant
    cases hrevised bad previous hprevious with
    | gone hnone' _ =>
      rw [hwant] at hnone'
      cases hnone'
    | settled replacement' hsome hfree _ =>
      rw [hwant, Option.some.injEq] at hsome
      subst hsome
      rcases hfree with hlevel | hfree
      · refine hunsettled (hflag.symm.trans ?_)
        rw [← levelFlag_unflagged (some replacement) previous, hlevel]
      · exact hfree htaken
    | stuck replacement' _ _ _ hstuck =>
      refine hdiffers ?_
      unfold Alike
      rw [hstuck, hholder']
      exact congrArg some ((levelFlag_unflagged _ previous).trans hflag)
  intro id hid
  have halike := hmid id hid
  obtain ⟨holder, hholder⟩ := Option.ne_none_iff_exists'.mp (hheld id hid)
  unfold Alike at halike ⊢
  rw [← halike, hkept id (.inl ?_)]
  intro hgone
  rw [hgone, hholder] at halike
  cases halike

end Moves

/-! ### Repeated rounds -/

/-- The rules desired, by their ids. -/
def desiredById (desired : ForwardingDesiredState) : OrdMap ℤ ForwardingRuleDesired :=
  .ofList ((desired.rules.map withPolicy).map fun rule => (rule.id, rule))

/-- Desired rules that can be installed side by side. -/
structure Separate (desired : ForwardingDesiredState) : Prop where
  ids : (desired.rules.map (·.id)).Nodup
  ports : desired.rules.Pairwise fun a b => ¬Clash a b

/-- A machine whose listeners are the agent's, with a file that says so. -/
structure Managed (machine : Machine) : Prop where
  readable : ∃ checkpoint, readCheckpoint machine.disk = .ok checkpoint
  matching : ∀ id, machine.record id = machine.runtime.get? id
  apart : Apart machine.runtime.get?

/-- Rounds of the same desired rules, one after another, that only ports stand in the way of. -/
structure Repeats (desired : ForwardingDesiredState) (start : Machine) (run : ℕ → Machine × Round) :
    Prop where
  begins : (run 0).1 = start
  next : ∀ n, (run (n + 1)).1 = (run n).1.next (.round (run n).2)
  told : ∀ n, (run n).2.desired = desired
  ready : ∀ n, (run n).2.outboundReady = true
  allowed : ∀ n, ∀ rule ∈ (run n).2.rules, (run n).2.enforceable rule = true
  ports : ∀ n, OnPorts (run n).2 (run n).1

/-- The `n`-th round reports no error, and the listeners are the desired rules. -/
structure Arrives (desired : ForwardingDesiredState) (run : ℕ → Machine × Round) (n : ℕ)
    (report : ForwardingReconcileReport) : Prop where
  reports : (reconcileListeners (run n).2 (begun (run n).1)).1 = .ok report
  error : report.error = none
  applied : report.appliedRuleIds = (desiredById desired).keys
  installed : Installed (run n).2 (run (n + 1)).1

section Runs

variable {desired : ForwardingDesiredState} {start : Machine} {run : ℕ → Machine × Round}

theorem wanted_eq {round : Round} (hallowed : ∀ rule ∈ round.rules, round.enforceable rule = true) :
    round.wanted = desiredById round.desired := by
  unfold Round.wanted
  rw [List.filter_eq_self.mpr hallowed]
  rfl

theorem desiredById_mem {id : ℤ} {rule : ForwardingRuleDesired}
    (h : (desiredById desired).get? id = some rule) :
    rule.id = id ∧ ∃ source ∈ desired.rules, withPolicy source = rule := by
  rw [desiredById, OrdMap.get?_ofList] at h
  obtain ⟨found, hfound, heq⟩ := List.mem_map.mp (OrdMap.mem_of_lastOf h)
  cases heq
  exact ⟨rfl, List.mem_map.mp hfound⟩

theorem Separate.get? (h : Separate desired) {source : ForwardingRuleDesired}
    (hsource : source ∈ desired.rules) :
    (desiredById desired).get? source.id = some (withPolicy source) := by
  rw [desiredById, OrdMap.get?_ofList]
  refine OrdMap.lastOf_of_mem ?_ (List.mem_map_of_mem (List.mem_map_of_mem hsource))
  rw [List.map_map, List.map_map]
  exact h.ids

theorem Separate.apart (h : Separate desired) : Apart (desiredById desired).get? := by
  refine ⟨fun id rule hget => (desiredById_mem hget).1, ?_⟩
  intro id other a b hne ha hb hclash
  obtain ⟨rfl, x, hx, rfl⟩ := desiredById_mem ha
  obtain ⟨rfl, y, hy, rfl⟩ := desiredById_mem hb
  have : Std.Symm fun a b : ForwardingRuleDesired => ¬Clash a b :=
    ⟨fun _ _ hnot hclash => hnot hclash.symm⟩
  refine h.ports.forall hx hy (fun heq => hne ?_) hclash
  rw [heq]

theorem remembered_get? (machine : Machine) (id : ℤ) : (remembered machine).known.get? id
      = (machine.record id).filter fun _ => decide (id ∈ machine.runtime.keys) := by
  have hrules : ((readCheckpoint machine.disk).toOption.getD .none).applied.rules
      = machine.recorded := by
    unfold readCheckpoint Machine.recorded
    cases machine.disk <;> rfl
  unfold remembered readBack
  rw [hrules, OrdMap.get?_filter, OrdMap.get?_ofList]
  rfl

theorem Managed.known (h : Managed start) : (remembered start).known.get? = start.runtime.get? := by
  funext id
  rw [remembered_get?, h.matching]
  cases hget : start.runtime.get? id with
  | none => rfl
  | some rule =>
    have hthere : id ∈ start.runtime.keys := by
      rw [OrdMap.mem_keys]
      exact OrdMap.contains_iff.mpr ⟨rule, hget⟩
    rw [Option.filter_some, if_pos (decide_eq_true hthere)]

theorem Managed.owned (h : Managed start) (round : Round) : Owned round start := by
  refine ⟨h.readable, h.apart.keyed, fun id => ?_, fun id _ _ _ => ?_⟩
  · rw [h.known]
  · rw [h.known]

theorem Owned.congr {round round' : Round} {machine : Machine} (h : Owned round machine)
    (hwanted : round'.wanted = round.wanted) : Owned round' machine :=
  ⟨h.readable, h.tracked.keyed, h.tracked.same, by rw [hwanted]; exact h.tracked.exact⟩

theorem Repeats.wanted (h : Repeats desired start run) (n : ℕ) :
    (run n).2.wanted = desiredById desired := by
  rw [wanted_eq (h.allowed n), h.told]

theorem Repeats.owned (h : Repeats desired start run) (hstart : Managed start) (n : ℕ) :
    Owned (run n).2 (run n).1 := by
  induction n with
  | zero =>
    rw [h.begins]
    exact hstart.owned _
  | succ n ih =>
    obtain ⟨report, t, hrun, hends⟩ := round_returns (h.ready n) (h.ports n) (h.allowed n) ih
    have hnext : (run (n + 1)).1 = t.machine := by
      rw [h.next n]
      show (reconcileListeners (run n).2 (begun (run n).1)).2.machine = t.machine
      rw [hrun]
    rw [hnext]
    exact hends.owned.congr ((h.wanted (n + 1)).trans (h.wanted n).symm)

theorem Repeats.ends (h : Repeats desired start run) (hstart : Managed start) (n : ℕ) :
    ∃ report, (reconcileListeners (run n).2 (begun (run n).1)).1 = .ok report
      ∧ RoundEnds (run n).2 (run n).1 report (run (n + 1)).1 := by
  obtain ⟨report, t, hrun, hends⟩ :=
    round_returns (h.ready n) (h.ports n) (h.allowed n) (h.owned hstart n)
  refine ⟨report, by rw [hrun], ?_⟩
  have hnext : (run (n + 1)).1 = t.machine := by
    rw [h.next n]
    show (reconcileListeners (run n).2 (begun (run n).1)).2.machine = t.machine
    rw [hrun]
  rw [hnext]
  exact hends

/-- What is known when a round begins. -/
def knownAt (run : ℕ → Machine × Round) (n : ℕ) : Listeners := (remembered (run n).1).known.get?

theorem Repeats.moved (h : Repeats desired start run) (hstart : Managed start) (n : ℕ) :
    Moved (desiredById desired).get? (knownAt run n) (knownAt run (n + 1)) := by
  obtain ⟨report, -, hends⟩ := h.ends hstart n
  have hmoved := hends.moved
  rw [h.wanted n] at hmoved
  exact hmoved

theorem knownAt_finite (run : ℕ → Machine × Round) (n : ℕ) : {id | knownAt run n id ≠ none}.Finite := by
  refine (List.finite_toSet (remembered (run n).1).known.keys).subset fun id hid => ?_
  obtain ⟨rule, hget⟩ := Option.ne_none_iff_exists'.mp hid
  show id ∈ (remembered (run n).1).known.keys
  rw [OrdMap.mem_keys]
  exact OrdMap.contains_iff.mpr ⟨rule, hget⟩

/-- **Where no rules wait in a ring, all is as desired after finitely many rounds.** -/
theorem Repeats.reaches (h : Repeats desired start run) (hstart : Managed start)
    (hseparate : Separate desired) (hring : ¬Ring (desiredById desired).get? start.runtime.get?) :
    ∃ n, knownAt run (n + 1) = (desiredById desired).get? := by
  have hfree : ∀ n, ¬Ring (desiredById desired).get? (knownAt run n) := by
    intro n
    induction n with
    | zero =>
      show ¬Ring _ (remembered (run 0).1).known.get?
      rw [h.begins, hstart.known]
      exact hring
    | succ n ih => exact fun hlater => ih ((h.moved hstart n).ring hseparate.apart hlater)
  have hbound : ∀ left n, 1 ≤ n → (Unsettled (desiredById desired).get? (knownAt run n)).ncard ≤ left →
      ∃ n, knownAt run (n + 1) = (desiredById desired).get? := by
    intro left
    induction left with
    | zero =>
      intro n _ hleft
      have hfinite := (knownAt_finite run n).subset
        fun id (hid : id ∈ Unsettled (desiredById desired).get? (knownAt run n)) => hid.1
      have hnone := (Set.ncard_eq_zero hfinite).mp (Nat.le_zero.mp hleft)
      exact ⟨n, (h.moved hstart n).completes hseparate.apart hnone⟩
    | succ left ih =>
      intro n hn hleft
      have hfinite := (knownAt_finite run n).subset
        fun id (hid : id ∈ Unsettled (desiredById desired).get? (knownAt run n)) => hid.1
      rcases Set.eq_empty_or_nonempty (Unsettled (desiredById desired).get? (knownAt run n)) with
        hnone | hsome
      · exact ⟨n, (h.moved hstart n).completes hseparate.apart hnone⟩
      · have hclean : Clean (desiredById desired).get? (knownAt run n) := by
          obtain ⟨m, rfl⟩ := Nat.exists_eq_add_of_le' hn
          exact (h.moved hstart m).clean
        have hless := (h.moved hstart n).progress hseparate.apart hclean hfinite hsome (hfree n)
        exact ih (n + 1) (by omega) (by omega)
  exact hbound _ 1 (le_refl 1) (le_refl _)

/-- **Where some wait in a ring, no round leaves what is desired.** -/
theorem Repeats.never (h : Repeats desired start run) (hstart : Managed start)
    (hseparate : Separate desired) (hring : Ring (desiredById desired).get? start.runtime.get?)
    (n : ℕ) : knownAt run (n + 1) ≠ (desiredById desired).get? := by
  have hbegins : knownAt run 0 = start.runtime.get? := by
    show (remembered (run 0).1).known.get? = _
    rw [h.begins, hstart.known]
  have hfinite := knownAt_finite run 0
  rw [hbegins] at hfinite
  obtain ⟨s, ⟨id, hid⟩, hlocked, hheld⟩ := hring.locked hstart.apart hfinite
  have hstays : ∀ n, ∀ id ∈ s, Alike (knownAt run n) start.runtime.get? id := by
    intro n
    induction n with
    | zero =>
      intro id _
      rw [hbegins]
      rfl
    | succ n ih => exact hlocked.stays hseparate.apart hheld (h.moved hstart n) ih
  intro hsame
  have halike := hstays (n + 1) id hid
  obtain ⟨other, -, hne, replacement, holder, hwant, -, -⟩ := hlocked.waits id hid
  obtain ⟨found, hfound⟩ := Option.ne_none_iff_exists'.mp (hheld id hid)
  unfold Alike at halike
  rw [hsame, hwant, hfound] at halike
  exact hlocked.unsettled hid hfound hwant (Option.some.inj halike).symm

theorem installed_of_known {round : Round} {machine : Machine} (howned : Owned round machine)
    (hall : ∀ rule ∈ round.rules, round.wanted.get? rule.id = some rule)
    (hsame : ∀ id, (remembered machine).known.get? id = round.wanted.get? id) :
    Installed round machine := by
  refine ⟨fun id => ?_, fun rule hrule => ?_⟩
  · rw [howned.tracked.contains, OrdMap.contains_iff]
    constructor
    · rintro ⟨rule, hget⟩
      rw [hsame] at hget
      exact ⟨rule, (wanted_spec hget).2.1, (wanted_spec hget).1⟩
    · rintro ⟨rule, hrule, rfl⟩
      exact ⟨rule, (hsame rule.id).trans (hall rule hrule)⟩
  · have hknown := (hsame rule.id).trans (hall rule hrule)
    have halike := howned.tracked.same rule.id
    rw [hknown] at halike
    obtain ⟨installed, hget, hflag⟩ := Option.map_eq_some_iff.mp halike
    refine ⟨installed, hget, ?_⟩
    cases hpublic : targetHostIsPublicIp rule.targetHost with
    | true =>
      refine .inr ⟨hpublic, ?_⟩
      have hset := congrArg (fun r : ForwardingRuleDesired =>
        { r with allowPrivateTargets := rule.allowPrivateTargets }) hflag
      exact hset
    | false =>
      have hexact := howned.tracked.exact rule.id rule (hall rule hrule) hpublic
      rw [hget, hknown] at hexact
      exact .inl (Option.some.inj hexact)

/-- **Repeated rounds arrive at the desired rules exactly where no rules wait for each other in a
ring.** -/
theorem reconcile_converges_iff (hstart : Managed start) (hseparate : Separate desired)
    (hrun : Repeats desired start run) : (∃ n report, Arrives desired run n report)
      ↔ ¬Ring (desiredById desired).get? start.runtime.get? := by
  constructor
  · rintro ⟨n, report, harrives⟩ hring
    obtain ⟨report', hreport, hends⟩ := hrun.ends hstart n
    obtain rfl : report = report' := by
      rw [harrives.reports] at hreport
      exact Except.ok.inj hreport
    have hsame := hends.error.mp harrives.error
    rw [hrun.wanted n] at hsame
    exact hrun.never hstart hseparate hring n (funext hsame)
  · intro hring
    obtain ⟨n, hn⟩ := hrun.reaches hstart hseparate hring
    obtain ⟨report, hreport, hends⟩ := hrun.ends hstart n
    have hsame : ∀ id, (remembered (run (n + 1)).1).known.get? id = (run n).2.wanted.get? id := by
      intro id
      rw [hrun.wanted n]
      exact congrFun hn id
    refine ⟨n, report, hreport, hends.error.mpr hsame, ?_, ?_⟩
    · have hmaps : (remembered (run (n + 1)).1).known = desiredById desired :=
        OrdMap.ext_of_get? fun id => congrFun hn id
      rw [hends.applied, hends.owned.tracked.keys_eq, hmaps]
    · refine installed_of_known hends.owned (fun rule hrule => ?_) hsame
      obtain ⟨source, hsource, rfl⟩ := List.mem_map.mp hrule
      rw [hrun.told n] at hsource
      rw [hrun.wanted n]
      exact (hseparate.get? hsource :)

end Runs

/-! ### A chain of port moves, and two rules that swap their ports -/

theorem taken_iff {runtime : OrdMap ℤ ForwardingRuleDesired} {rule : ForwardingRuleDesired} :
    Taken runtime.get? rule
      ↔ ∃ entry ∈ runtime.entries, entry.1 ≠ rule.id ∧ Clash entry.2 rule := by
  constructor
  · rintro ⟨id, other, hne, hother, hclash⟩
    exact ⟨(id, other), OrdMap.mem_entries.mpr hother, hne, hclash⟩
  · rintro ⟨⟨id, other⟩, hentry, hne, hclash⟩
    exact ⟨id, other, hne, OrdMap.mem_entries.mp hentry, hclash⟩

instance decidableTaken (runtime : OrdMap ℤ ForwardingRuleDesired) (rule : ForwardingRuleDesired) :
    Decidable (Taken runtime.get? rule) :=
  decidable_of_iff _ taken_iff.symm

instance decidableRefuses (fault : Fault String) (taken : Prop) [Decidable taken] :
    Decidable (Refuses fault taken) :=
  match fault with
  | .none => decidable_of_iff (¬taken) (by simp [Refuses])
  | .fails false _ => decidable_of_iff taken (by simp [Refuses])
  | .fails true _ | .crashes _ => isFalse (by simp [Refuses])

theorem onPorts_of_entries {round : Round} {machine : Machine}
    (h : ∀ entry ∈ round.wanted.entries, Refuses (round.faults (.preflight entry.1))
          (Taken (reviseTurn round machine entry.1).machine.runtime.get? entry.2)
        ∧ Refuses (round.faults (.install .replace entry.1 .add))
          (Taken (reviseTurn round machine entry.1).machine.runtime.get? entry.2)
        ∧ Refuses (round.faults (.install .add entry.1 .add))
          (Taken (supplyTurn round machine entry.1).machine.runtime.get? entry.2))
    (hrest : ∀ site, site.binds = false → round.faults site = .none) : OnPorts round machine :=
  ⟨fun _ _ hget => (h _ (OrdMap.mem_entries.mpr hget)).1,
    fun _ _ hget => (h _ (OrdMap.mem_entries.mpr hget)).2.1,
    fun _ _ hget => (h _ (OrdMap.mem_entries.mpr hget)).2.2, hrest⟩

/-- A machine that listens for these rules, and whose file says so. -/
def listening (rules : List ForwardingRuleDesired) : Machine where
  disk := .holds { applied := { generation := 7, rules }, installingRuleIds := ∅ }
  runtime := .ofList (rules.map fun rule => (rule.id, rule))

theorem managed_listening {rules : List ForwardingRuleDesired}
    (hids : ∀ entry ∈ (listening rules).runtime.entries, entry.2.id = entry.1)
    (hports : ∀ entry ∈ (listening rules).runtime.entries,
      ∀ other ∈ (listening rules).runtime.entries, entry.1 ≠ other.1 → ¬Clash entry.2 other.2) :
    Managed (listening rules) := by
  refine ⟨⟨_, rfl⟩, fun id => (OrdMap.get?_ofList _ id).symm, fun id rule hget => ?_,
    fun id other a b hne ha hb => ?_⟩
  · exact hids (id, rule) (OrdMap.mem_entries.mpr hget)
  · exact hports (id, a) (OrdMap.mem_entries.mpr ha) (other, b) (OrdMap.mem_entries.mpr hb) hne

/-- A rule of the sample rounds. -/
def tcpRule (id : ℤ) (port : ℕ) : ForwardingRuleDesired where
  id
  protocol := .tcp
  listenPort := port
  targetHost := "example.com"
  targetPort := 443
  allowPrivateTargets := some false

/-- Replacing the rules of one list, or adding those of another, finds a socket taken. -/
def blocked (replaced added : List ℤ) : Site → Bool
  | .preflight id | .install .replace id .add => decide (id ∈ replaced)
  | .install .add id .add => decide (id ∈ added)
  | _ => false

/-- A round in which only ports matter. -/
def portRound (desired : ForwardingDesiredState) (replaced added : List ℤ) : Round where
  desired
  outboundReady := true
  targetPolicySupported := true
  publicTarget := fun _ => false
  faults := fun site =>
    if blocked replaced added site then .fails false "Address already in use" else .none

theorem rest_portRound {desired : ForwardingDesiredState} {replaced added : List ℤ} (site : Site)
    (h : site.binds = false) : (portRound desired replaced added).faults site = .none := by
  refine if_neg ?_
  cases site with
  | preflight id => cases h
  | install stage id part =>
    cases part with
    | add => cases h
    | _ => cases stage <;> simp [blocked]
  | _ => simp [blocked]

/-- Each rule moves on to the port of the next one, and the last to a free one. -/
def chainDesired : ForwardingDesiredState :=
  { generation := 7, rules := [tcpRule 1 40002, tcpRule 2 40003, tcpRule 3 40004] }

def chainMachine : Machine := listening [tcpRule 1 40001, tcpRule 2 40002, tcpRule 3 40003]

/-- The last rule moves in the first round, and one more in each round after it. -/
def chainRun : ℕ → Machine × Round
  | 0 => (chainMachine, portRound chainDesired [1, 2] [1])
  | 1 => (listening [tcpRule 1 40001, tcpRule 2 40002, tcpRule 3 40004],
      portRound chainDesired [1] [])
  | 2 => (listening [tcpRule 1 40001, tcpRule 2 40003, tcpRule 3 40004],
      portRound chainDesired [] [])
  | _ + 3 => (listening chainDesired.rules, portRound chainDesired [] [])

theorem reconcile_converges_chain : ∃ n report, Arrives chainDesired chainRun n report := by
  have hstart : Managed chainMachine :=
    managed_listening (by decide +kernel) (by decide +kernel)
  have hrun : Repeats chainDesired chainMachine chainRun := by
    refine ⟨rfl, ?_, ?_, ?_, ?_, ?_⟩
    · intro n
      rcases n with _ | _ | _ | n
      · show listening _ = chainMachine.next _
        decide +kernel
      · show listening _ = (listening _).next _
        decide +kernel
      · show listening _ = (listening _).next _
        decide +kernel
      · show listening chainDesired.rules = (listening chainDesired.rules).next
          (.round (portRound chainDesired [] []))
        decide +kernel
    · intro n
      rcases n with _ | _ | _ | n <;> rfl
    · intro n
      rcases n with _ | _ | _ | n <;> rfl
    · have hallowed : ∀ replaced added, ∀ rule ∈ (portRound chainDesired replaced added).rules,
          (portRound chainDesired replaced added).enforceable rule = true := by
        intro replaced added
        show ∀ rule ∈ (portRound chainDesired [] []).rules,
          (portRound chainDesired [] []).enforceable rule = true
        decide +kernel
      intro n
      rcases n with _ | _ | _ | n <;> exact hallowed _ _
    · intro n
      rcases n with _ | _ | _ | n
      · exact onPorts_of_entries (by decide +kernel) rest_portRound
      · exact onPorts_of_entries (by decide +kernel) rest_portRound
      · exact onPorts_of_entries (by decide +kernel) rest_portRound
      · show OnPorts (portRound chainDesired [] []) (listening chainDesired.rules)
        exact onPorts_of_entries (by decide +kernel) rest_portRound
  refine (reconcile_converges_iff hstart ⟨by decide, by decide⟩ hrun).mpr ?_
  -- a rule waits for the next one only
  have hnext : ∀ id other, Waits (desiredById chainDesired).get? chainMachine.runtime.get? id other →
      id < other := by
    rintro id other ⟨-, replacement, holder, hwant, hholds, hclash⟩
    have hall : ∀ entry ∈ (desiredById chainDesired).entries,
        ∀ held ∈ chainMachine.runtime.entries, Clash held.2 entry.2 → entry.1 < held.1 := by
      decide +kernel
    exact hall (id, replacement) (OrdMap.mem_entries.mpr hwant) (other, holder)
      (OrdMap.mem_entries.mpr hholds) hclash
  rintro ⟨id, hring⟩
  have hless : ∀ {other}, Relation.TransGen (Waits (desiredById chainDesired).get?
      chainMachine.runtime.get?) id other → id < other := by
    intro other hpath
    induction hpath with
    | single hwaits => exact hnext _ _ hwaits
    | tail _ hwaits ih => exact ih.trans (hnext _ _ hwaits)
  exact lt_irrefl id (hless hring)

/-- Each of two rules is to have the other's port. -/
def swapDesired : ForwardingDesiredState :=
  { generation := 7, rules := [tcpRule 1 40002, tcpRule 2 40001] }

def swapMachine : Machine := listening [tcpRule 1 40001, tcpRule 2 40002]

def swapRound : Round := portRound swapDesired [1, 2] [1, 2]

/-- **Rules that swap their ports never do.** -/
theorem swap_never_arrives :
    ∃ desired start run, Managed start ∧ Separate desired ∧ Repeats desired start run
      ∧ ¬∃ n report, Arrives desired run n report := by
  have hnext : swapMachine.next (.round swapRound) = swapMachine := by decide +kernel
  have hallowed : ∀ rule ∈ swapRound.rules, swapRound.enforceable rule = true := by decide +kernel
  have hports : OnPorts swapRound swapMachine :=
    onPorts_of_entries (by decide +kernel) rest_portRound
  refine ⟨swapDesired, swapMachine, fun _ => (swapMachine, swapRound),
    managed_listening (by decide +kernel) (by decide +kernel), ⟨by decide, by decide⟩,
    ⟨rfl, fun _ => hnext.symm, fun _ => rfl, fun _ => rfl, fun _ => hallowed, fun _ => hports⟩, ?_⟩
  rintro ⟨n, report, harrives⟩
  have hfails : ((reconcileListeners swapRound (begun swapMachine)).1.toOption.bind
      (·.error)).isSome = true := by decide +kernel
  rw [show (reconcileListeners swapRound (begun swapMachine)).1 = .ok report from
    harrives.reports] at hfails
  have herror := harrives.error
  simp [Except.toOption, herror] at hfails

end Brocade.Forwarding
