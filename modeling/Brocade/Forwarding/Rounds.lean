/-
Rounds one after another, with whatever happens to Xray and to the file between them.
-/
import Brocade.Forwarding.Reconciled

namespace Brocade.Forwarding

open Faulty

/-- The rounds among the events, each with the machine it begins on. -/
def rounds : Machine → List Event → List (Machine × Round)
  | _, [] => []
  | machine, event :: events =>
    match event with
    | .round round => (machine, round) :: rounds (machine.next event) events
    | _ => rounds (machine.next event) events

/-- The listeners are the desired rules, each as it is desired. -/
structure Installed (round : Round) (machine : Machine) : Prop where
  exactly : ∀ id, machine.runtime.contains id = true ↔ ∃ rule ∈ round.rules, rule.id = id
  definition : ∀ rule ∈ round.rules, ∃ installed,
    machine.runtime.get? rule.id = some installed ∧ Matches installed rule

/-- What is promised of a round. -/
structure RoundSound (machine : Machine) (round : Round) : Prop where
  honest : machine.Honest
  moments : ∀ moment ∈ (reconcileListeners round (begun machine)).2.moments, moment.Sound round
  installed : (round.desired.rules.map (·.id)).Nodup →
    ∀ report, (reconcileListeners round (begun machine)).1 = .ok report → report.error = none →
      Installed round (reconcileListeners round (begun machine)).2.machine

theorem installed_of_converged {round : Round} {start : Machine} {s : State}
    (h : Inv round start (Blocked round) [] none s) (hmessages : s.memory.errors.messages = [])
    (hconverged : Converged round s.memory s.machine.runtime)
    (hdistinct : (round.desired.rules.map (·.id)).Nodup) : Installed round s.machine := by
  have hids : (round.rules.map (·.id)).Nodup := by
    unfold Round.rules
    rw [List.map_map]
    exact hdistinct
  have hwanted : ∀ rule ∈ round.rules, round.wanted.get? rule.id = some rule := by
    intro rule hrule
    cases hget : round.wanted.get? rule.id with
    | none =>
      have hblocked : Blocked round := ⟨rule, hrule, by simp [OrdMap.contains, hget]⟩
      exact absurd hmessages (h.noted hblocked)
    | some other =>
      obtain ⟨hid, hmem, -⟩ := wanted_spec hget
      rw [List.inj_on_of_nodup_map hids hmem hrule hid]
  have hcontains : ∀ id, s.machine.runtime.contains id = round.wanted.contains id := by
    intro id
    rw [Bool.eq_iff_iff, ← OrdMap.mem_keys, ← OrdMap.mem_keys, hconverged.keys]
  refine ⟨fun id => ?_, fun rule hrule => ?_⟩
  · rw [hcontains, OrdMap.contains_iff]
    constructor
    · rintro ⟨rule, hget⟩
      exact ⟨rule, (wanted_spec hget).2.1, (wanted_spec hget).1⟩
    · rintro ⟨rule, hrule, rfl⟩
      exact ⟨rule, hwanted rule hrule⟩
  · have hthere : s.machine.runtime.contains rule.id = true := by
      rw [hcontains, OrdMap.contains_iff]
      exact ⟨rule, hwanted rule hrule⟩
    obtain ⟨installed, hget⟩ := OrdMap.contains_iff.mp hthere
    have hproven := (h.known rule.id rule (hconverged.known _ _ (hwanted rule hrule)) (by simp)).2
    exact ⟨installed, hget, hproven.faithful installed hget⟩

theorem round_sound {machine : Machine} {round : Round} (hhonest : machine.Honest)
    (hcareful : Careful round machine) :
    RoundSound machine round ∧ (machine.next (.round round)).Honest := by
  have hend := reconcileListeners_keeps hcareful (begun machine) ⟨rfl, hhonest⟩
  cases hrun : reconcileListeners round (begun machine) with
  | mk answer s =>
    rw [hrun] at hend
    have hsafe : Safe round s := by
      rcases answer with ⟨error⟩ | report
      · cases error with
        | failed error => exact hend
        | crashed => exact hend
      · exact hend.1.safe
    refine ⟨⟨hhonest, ?_, ?_⟩, ?_⟩
    · rw [hrun]
      exact hsafe.2
    · intro hdistinct report hreport herror
      rw [hrun] at hreport ⊢
      cases hreport
      obtain ⟨hmessages, hconverged⟩ := hend.2 herror
      exact installed_of_converged hend.1 hmessages hconverged hdistinct
    · show (reconcileListeners round (begun machine)).2.machine.Honest
      rw [hrun]
      exact hsafe.1

theorem Machine.Honest.next {machine : Machine} (h : machine.Honest) {event : Event}
    (hround : ∀ round, event = .round round → Careful round machine) :
    (machine.next event).Honest := by
  cases event with
  | round round => exact (round_sound h (hround round rfl)).2
  | restarted =>
    intro rule hrule
    refine ⟨(h rule hrule).unblocked, fun installed hget => ?_⟩
    cases hget
  | damaged error => exact fun rule hrule => absurd hrule List.not_mem_nil
  | lost => exact fun rule hrule => absurd hrule List.not_mem_nil
  | off generation => exact fun rule hrule => absurd hrule List.not_mem_nil

/-- **The record is never wrong.**  Over any rounds and whatever they meet, every record is so
at every moment, no listener goes whose record is what is wanted, none is installed that may not
be, and a round that reports no error leaves the desired rules and nothing else. -/
theorem reconcile_sound (start : Machine) (hstart : start.Honest) (events : List Event)
    (hcareful : ∀ begun ∈ rounds start events, Careful begun.2 begun.1) :
    (events.foldl Machine.next start).Honest
      ∧ ∀ begun ∈ rounds start events, RoundSound begun.1 begun.2 := by
  induction events generalizing start with
  | nil => exact ⟨hstart, fun begun hbegun => absurd hbegun List.not_mem_nil⟩
  | cons event events ih =>
    have hmem : ∀ begun ∈ rounds (start.next event) events, begun ∈ rounds start (event :: events) := by
      intro begun hbegun
      cases event with
      | round round => exact List.mem_cons_of_mem _ hbegun
      | restarted => exact hbegun
      | damaged error => exact hbegun
      | lost => exact hbegun
      | off generation => exact hbegun
    have hround : ∀ round, event = .round round → Careful round start := by
      rintro round rfl
      exact hcareful (start, round) List.mem_cons_self
    obtain ⟨hend, hrest⟩ := ih (start.next event) (hstart.next hround)
      fun begun hbegun => hcareful begun (hmem begun hbegun)
    refine ⟨hend, fun begun hbegun => ?_⟩
    cases event with
    | round round =>
      rcases List.mem_cons.mp hbegun with rfl | hlater
      · exact (round_sound hstart (hround round rfl)).1
      · exact hrest begun hlater
    | restarted => exact hrest begun hbegun
    | damaged error => exact hrest begun hbegun
    | lost => exact hrest begun hbegun
    | off generation => exact hrest begun hbegun

/-! ### What a careless round does -/

/-- A rule to a host. -/
def ruleTo (host : String) (port : ℕ) (allowPrivateTargets : Bool) : ForwardingRuleDesired where
  id := 1
  protocol := .tcpUdp
  listenPort := 40001
  targetHost := host
  targetPort := port
  allowPrivateTargets := some allowPrivateTargets

/-- A round that is told of one rule and meets nothing. -/
def roundTo (rule : ForwardingRuleDesired) : Round where
  desired := { generation := 7, rules := [rule] }
  outboundReady := true
  targetPolicySupported := true
  publicTarget := fun _ => false
  faults := fun _ => .none

/-- The write after the replacement was added is lost. -/
def recordLost (round : Round) : Round :=
  { round with
    faults := fun site =>
      if site = .install .replace 1 .record then .fails false "no space left" else .none }

def bare : Machine := { disk := .missing, runtime := .empty }

/-- The machine after one rule has been installed on it. -/
def serving (rule : ForwardingRuleDesired) : Machine := bare.next (.round (roundTo rule))

/-- The answer to an addition is lost, and the listener is there. -/
def answerLost (round : Round) : Round :=
  { round with
    faults := fun site =>
      if site = .install .replace 1 .add then .fails true "deadline exceeded" else .none }

theorem careful_of_unpublic {rule : ForwardingRuleDesired} {round : Round} {machine : Machine}
    (hrules : round.rules = [rule]) (hhost : targetHostIsPublicIp rule.targetHost = false)
    (hrecord : ∀ id, ¬(round.faults (.install .replace id .record)).Fails) :
    Careful round machine where
  flag := by
    intro id previous replacement hreplaced hpublic
    have hmem := (wanted_spec hreplaced.replacement).2.1
    rw [hrules] at hmem
    rw [List.mem_singleton.mp hmem, hhost] at hpublic
    cases hpublic
  record := fun id _ _ _ _ _ _ => hrecord id

theorem reconcile_sound_answerLost : (([.round (roundTo (ruleTo "example.com" 443 false)),
        .round (answerLost (roundTo (ruleTo "example.com" 444 false))), .restarted,
        .round (roundTo (ruleTo "example.com" 444 false))] : List Event).foldl
          Machine.next bare).Honest
      ∧ RoundSound (serving (ruleTo "example.com" 443 false))
        (answerLost (roundTo (ruleTo "example.com" 444 false))) := by
  have hcareful : ∀ port machine, Careful (roundTo (ruleTo "example.com" port false)) machine :=
    fun port machine => careful_of_unpublic rfl
      (show targetHostIsPublicIp "example.com" = false by decide +kernel) fun _ hfails => hfails
  have hlost : ∀ machine,
      Careful (answerLost (roundTo (ruleTo "example.com" 444 false))) machine := by
    refine fun machine => careful_of_unpublic rfl (by decide +kernel) fun id hfails => ?_
    simp [answerLost, Fault.Fails] at hfails
  have hrun := reconcile_sound bare (fun _ hrule => absurd hrule List.not_mem_nil)
    [.round (roundTo (ruleTo "example.com" 443 false)),
      .round (answerLost (roundTo (ruleTo "example.com" 444 false))), .restarted,
      .round (roundTo (ruleTo "example.com" 444 false))] (by
        intro begun hbegun
        rcases List.mem_cons.mp hbegun with rfl | hbegun
        · exact hcareful 443 _
        rcases List.mem_cons.mp hbegun with rfl | hbegun
        · exact hlost _
        rw [List.mem_singleton.mp hbegun]
        exact hcareful 444 _)
  exact ⟨hrun.1, hrun.2 _ (List.mem_cons_of_mem _ List.mem_cons_self)⟩

/-- A listener goes whose record is the desired rule, as Xray cannot be trusted with it; a flag
is recorded that is not installed; and a listener goes whose record is what is wanted, as the
former rule is put over it. -/
theorem record_undone :
    (∃ moment ∈ (reconcileListeners { roundTo (ruleTo "example.com" 443 false) with
          targetPolicySupported := false } (begun (serving (ruleTo "example.com" 443 false)))).2.moments,
        moment.change = .removed 1 ∧ moment.before.recorded = [ruleTo "example.com" 443 false]
          ∧ moment.before.runtime.values = [ruleTo "example.com" 443 false])
      ∧ ((serving (ruleTo "example.com" 443 true)).next (.round {
          roundTo (ruleTo "1.1.1.1" 443 false) with outboundReady := false })).recorded
            = [ruleTo "example.com" 443 false]
      ∧ ((serving (ruleTo "example.com" 443 true)).next (.round {
          roundTo (ruleTo "1.1.1.1" 443 false) with outboundReady := false })).runtime.values
            = [ruleTo "example.com" 443 true]
      ∧ ∃ moment ∈ (reconcileListeners (recordLost (roundTo (ruleTo "example.com" 444 false)))
          (begun (serving (ruleTo "example.com" 443 false)))).2.moments,
        moment.change = .removed 1 ∧ moment.before.recorded = [ruleTo "example.com" 444 false]
          ∧ moment.before.runtime.values = [ruleTo "example.com" 444 false] := by
  decide +kernel

end Brocade.Forwarding
