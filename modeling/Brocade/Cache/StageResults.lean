/-
What the callers of the stage memo can rely on.

Whatever the threads do, a call returns what a builder of its own key returned; no key is built
twice at a time, and where all keys fit none is built twice at all; the memo keeps the keys used
last; and every call comes back once nothing is left to happen.  The last of these rests on a
measure: apart from wakeups nobody sent, each move brings some call nearer its end.
-/
import Mathlib.Algebra.Order.BigOperators.Group.List
import Mathlib.Algebra.Order.Group.Nat
import Brocade.Cache.StageMemo

namespace Brocade.Cache.StageMemo

open SingleFlight

variable {α : Type} {capacity : ℕ} {requests : List (String × Except String α)}
  {log : List String} {w w' : World α} {move : Move} {moves : List Move}

/-! ### Who leads -/

/-- The call that a move makes the leader of a new flight. -/
def starts (w : World α) : Move → List ℕ
  | .enter i => match w.calls[i]? with
      | some ⟨key, build, .entering⟩ => match (w.memo.lookup key build).1 with
          | .lead _ => [i]
          | _ => []
      | _ => []
  | _ => []

/-- What the stage of a call says of whether it leads a flight: its own builder's outcome is that
of a leader, and who does not lead panics with the fixed text. -/
def Call.Role (known : List (Flight String String α)) (leads : Prop) (call : Call α) : Prop :=
  match call.stage with
  | .entering | .waits _ | .parked _ => ¬leads
  | .leads f => leads ∧ ∃ phase, known[f]? = some ⟨call.key, call.build, phase⟩
  | .returned v => leads → call.build = .ok v
  | .panicked message => leads ∧ call.build = .error message ∨ ¬leads ∧ message = builderPanicked

/-- Every call has its role, and every flight was started by a call whose key and builder it has. -/
structure Roles (requests : List (String × Except String α)) (leaders : List ℕ) (w : World α) :
    Prop where
  roles : ∀ (i : ℕ) (call : Call α), w.calls[i]? = some call → call.Role w.memo.known (i ∈ leaders)
  started : ∀ flight ∈ w.memo.known, ∃ i ∈ leaders, requests[i]? = some (flight.key, flight.build)

section Roles

variable {leaders : List ℕ}

theorem Call.Role.later {known known' : List (Flight String String α)} {leads : Prop} {call : Call α}
    (h : call.Role known leads) (hlater : Later known known') : call.Role known' leads := by
  obtain ⟨key, build, stage⟩ := call
  cases stage with
  | leads f =>
    obtain ⟨hleads, phase, hf⟩ := h
    obtain ⟨phase', hf', -⟩ := hlater f key build phase hf
    exact ⟨hleads, phase', hf'⟩
  | _ => exact h

theorem Roles.set (h : Roles requests leaders w) {i : ℕ} {call : Call α}
    (hrole : call.Role w.memo.known (i ∈ leaders)) : Roles requests leaders (w.set i call) := by
  refine ⟨fun j other hother => ?_, h.started⟩
  replace hother : (w.calls.set i call)[j]? = some other := hother
  by_cases hsame : i = j
  · subst hsame
    rw [List.getElem?_set] at hother
    split at hother
    · split at hother
      · cases hother
        exact hrole
      · cases hother
    · exact absurd rfl ‹_›
  · rw [List.getElem?_set_ne hsame] at hother
    exact h.roles j other hother

theorem Roles.enter (h : Roles requests leaders w) (hsound : Sound capacity requests log w) {i : ℕ}
    {key : String} {build : Except String α} (hcall : w.calls[i]? = some ⟨key, build, .entering⟩) :
    Roles requests (leaders ++ starts w (.enter i))
      (({ w with memo := (w.memo.lookup key build).2 } : World α).set i
        ⟨key, build, .ofLookup (w.memo.lookup key build).1⟩) := by
  have hrole : i ∉ leaders := h.roles i _ hcall
  rcases w.memo.lookup_cases key build with ⟨value, -, -, hlookup⟩
    | ⟨-, -, ⟨flight, -, hlookup⟩ | ⟨-, hlookup⟩⟩
  · have hsame : Roles requests leaders
        ({ w with memo := { w.memo with store := w.memo.store.touch key } } : World α) :=
      ⟨h.roles, h.started⟩
    simp only [starts, hcall, hlookup, List.append_nil]
    exact hsame.set fun hleads => absurd hleads hrole
  · simp only [starts, hcall, hlookup, List.append_nil]
    exact h.set hrole
  · simp only [starts, hcall, hlookup]
    have hlater : Later w.memo.known (w.memo.lead key build).known := later_concat _ _
    have hlast : i ∈ leaders ++ [i] := List.mem_append_right _ (List.mem_singleton.mpr rfl)
    have hnew : (w.memo.known ++ [⟨key, build, .building⟩])[w.memo.known.length]?
        = some ⟨key, build, .building⟩ := List.getElem?_concat_length
    refine ⟨fun j other hother => ?_, fun flight hmem => ?_⟩
    · replace hother : (w.calls.set i _)[j]? = some other := hother
      by_cases hsame : i = j
      · subst hsame
        rw [List.getElem?_set_self (List.getElem?_eq_some_iff.mp hcall).1] at hother
        cases hother
        exact ⟨hlast, .building, hnew⟩
      · rw [List.getElem?_set_ne hsame] at hother
        have hstill : (j ∈ leaders ++ [i]) = (j ∈ leaders) := by
          simp [Ne.symm hsame]
        rw [hstill]
        exact (h.roles j other hother).later hlater
    · rcases List.mem_append.mp (show flight ∈ w.memo.known ++ [_] from hmem) with hold | hnew
      · obtain ⟨j, hj, hrequest⟩ := h.started flight hold
        exact ⟨j, List.mem_append_left _ hj, hrequest⟩
      · rw [List.mem_singleton.mp hnew]
        refine ⟨i, hlast, ?_⟩
        rw [← hsound.calls, List.getElem?_map, hcall]
        rfl

theorem Roles.lead (h : Roles requests leaders w) {flight : ℕ} {memo : Memo String String α}
    (hmemo : w.memo.advance capacity flight = some memo) :
    Roles requests leaders (({ w with memo } : World α).led flight) := by
  obtain ⟨key, build, phase, phase', hknown, -, hset, -⟩ := Memo.advance_cases hmemo
  have hlater := Memo.later_advance hmemo
  have hself : memo.known[flight]? = some ⟨key, build, phase'⟩ := by
    rw [hset, List.getElem?_set_self (List.getElem?_eq_some_iff.mp hknown).1]
  have hstarted : ∀ entry ∈ memo.known,
      ∃ i ∈ leaders, requests[i]? = some (entry.key, entry.build) := by
    intro entry hmem
    rw [hset] at hmem
    rcases List.mem_or_eq_of_mem_set hmem with hmem | rfl
    · exact h.started entry hmem
    · exact h.started ⟨key, build, phase⟩ (List.mem_of_getElem? hknown)
  rcases led_eq (w := ({ w with memo } : World α)) hself with ⟨-, hled⟩ | ⟨-, hled⟩
  · rw [hled]
    exact ⟨fun i call hcall => (h.roles i call hcall).later hlater, hstarted⟩
  · rw [hled]
    refine ⟨fun i call' hcall' => ?_, hstarted⟩
    replace hcall' : (w.calls.map _)[i]? = some call' := hcall'
    rw [List.getElem?_map, Option.map_eq_some_iff] at hcall'
    obtain ⟨⟨key', build', stage⟩, hcall, rfl⟩ := hcall'
    have hrole := h.roles i _ hcall
    cases stage with
    | leads f =>
      obtain ⟨hleads, old, hf⟩ := hrole
      show (Call.mk key' build' (Stage.notified flight build (.leads f))).Role _ _
      rw [Stage.notified]
      by_cases hsame : f = flight
      · rw [if_pos hsame]
        rw [hsame, hknown] at hf
        cases hf
        cases build' with
        | ok v => exact fun _ => rfl
        | error e => exact .inl ⟨hleads, rfl⟩
      · rw [if_neg hsame]
        obtain ⟨new, hf', -⟩ := hlater f key' build' old hf
        exact ⟨hleads, new, hf'⟩
    | parked f =>
      show (Call.mk key' build' (Stage.notified flight build (.parked f))).Role _ _
      rw [Stage.notified]
      split
      · exact hrole
      · exact hrole
    | _ => exact hrole

/-- **Every move keeps the roles.** -/
theorem Roles.step (h : Roles requests leaders w) (hsound : Sound capacity requests log w)
    (hstep : StageMemo.step capacity w move = some w') :
    Roles requests (leaders ++ starts w move) w' := by
  rcases step_cases hstep with ⟨i, key, build, rfl, hcall, rfl⟩ | ⟨flight, memo, rfl, hmemo, rfl⟩
    | ⟨i, key, build, flight, entry, rfl, hcall, -, rfl⟩ | ⟨i, key, build, flight, rfl, hcall, rfl⟩
  · exact h.enter hsound hcall
  · rw [show starts w (.lead flight) = [] from rfl, List.append_nil]
    exact h.lead hmemo
  · rw [show starts w (.check i) = [] from rfl, List.append_nil]
    have hrole : i ∉ leaders := h.roles i _ hcall
    refine h.set ?_
    split
    · cases entry.build with
      | ok v => exact fun hleads => absurd hleads hrole
      | error e => exact .inr ⟨hrole, rfl⟩
    · exact hrole
  · rw [show starts w (.wake i) = [] from rfl, List.append_nil]
    have hrole : i ∉ leaders := h.roles i _ hcall
    exact h.set hrole

theorem roles_start (requests : List (String × Except String α)) :
    Roles requests [] (start requests) where
  roles i call hcall := by
    obtain ⟨request, -, rfl⟩ := List.mem_map.mp (List.mem_of_getElem? hcall)
    exact List.not_mem_nil
  started flight hmem := absurd hmem List.not_mem_nil

end Roles

/-! ### What comes back -/

/-- The calls that started a flight, in a run. -/
def leaders (capacity : ℕ) (requests : List (String × Except String α)) (moves : List Move) : List ℕ :=
  Steps.log (step capacity) starts moves (start requests)

theorem roles_run (hpos : 0 < capacity)
    (hrun : moves.foldlM (step capacity) (start requests) = some w) :
    Roles requests (leaders capacity requests moves) w := by
  have hboth : (∃ log, Sound capacity requests log w)
      ∧ Roles requests ([] ++ leaders capacity requests moves) w := by
    refine Steps.log_keeps (P := fun led w => (∃ log, Sound capacity requests log w)
      ∧ Roles requests led w) ?_ ⟨⟨[], sound_start capacity requests⟩, roles_start requests⟩ hrun
    rintro led before move after ⟨⟨log, hsound⟩, hroles⟩ hstep
    exact ⟨⟨_, hsound.step hpos hstep⟩, hroles.step hsound hstep⟩
  exact hboth.2

/-- A builder of the key has run, with this outcome. -/
def World.Ran (w : World α) (key : String) (build : Except String α) : Prop :=
  ∃ phase, ⟨key, build, phase⟩ ∈ w.memo.known ∧ phase ≠ .building

theorem Sound.ran (h : Sound capacity requests log w) {call : Call α} (hcall : call ∈ w.calls) :
    (∀ v, call.stage = .returned v → w.Ran call.key (.ok v))
      ∧ ∀ message, call.stage = .panicked message → ∃ payload, w.Ran call.key (.error payload) := by
  have hfits := h.fits call hcall
  have hran : ∀ {f : ℕ} {build : Except String α} {phase : Phase},
      w.memo.known[f]? = some ⟨call.key, build, phase⟩ → phase.left ≤ 3 → w.Ran call.key build := by
    intro f build phase hf hleft
    refine ⟨phase, List.mem_of_getElem? hf, fun hbuilding => ?_⟩
    rw [hbuilding] at hleft
    exact absurd hleft (by decide)
  constructor
  · intro v hstage
    rw [hstage] at hfits
    obtain ⟨f, p, hf, hleft⟩ := hfits
    exact hran hf hleft
  · intro message hstage
    rw [hstage] at hfits
    obtain ⟨f, e, p, hf, hleft⟩ := hfits
    exact ⟨e, hran hf hleft⟩

/-- Two calls of one key, the second while the first builds, and one of another key. -/
def askedTwice : List (String × Except String ℕ) := [("a", .ok 1), ("a", .ok 2), ("b", .ok 3)]

/-- The same calls where the first builder panics. -/
def askedInVain : List (String × Except String ℕ) :=
  [("a", .error "bad"), ("a", .ok 2), ("b", .ok 3)]

/-- Three calls of two keys. -/
def overlapping : List Move :=
  [.enter 0, .enter 1, .check 1, .enter 2, .lead 0, .lead 1, .lead 1, .wake 1, .check 1, .lead 0,
    .lead 1, .lead 1, .lead 0, .lead 0, .check 1]

theorem overlapping_runs : (overlapping.foldlM (step 2) (start askedTwice)).isSome = true := by
  decide +kernel

/-- **A call returns what a builder of its key returned that ran, and panics only if such a builder
did: who started the flight with the outcome of its own builder, who waited with the fixed text.**
What runs is a builder of the calls, at no time two for one key, nor one for a key that is kept. -/
theorem returned_built (hpos : 0 < capacity)
    (hrun : moves.foldlM (step capacity) (start requests) = some w) :
    (∀ (i : ℕ) (call : Call α), w.calls[i]? = some call →
        (∀ v, call.stage = .returned v → w.Ran call.key (.ok v)
          ∧ (i ∈ leaders capacity requests moves → call.build = .ok v))
        ∧ ∀ message, call.stage = .panicked message → (∃ payload, w.Ran call.key (.error payload))
            ∧ (i ∈ leaders capacity requests moves → call.build = .error message)
            ∧ (i ∉ leaders capacity requests moves → message = builderPanicked))
      ∧ (∀ flight ∈ w.memo.known, ∃ i ∈ leaders capacity requests moves,
          requests[i]? = some (flight.key, flight.build))
      ∧ ∀ (f f' : ℕ) (flight flight' : Flight String String α), w.memo.known[f]? = some flight →
        w.memo.known[f']? = some flight' → flight.phase = .building →
        w.memo.store.ready.get? flight.key = none
          ∧ (flight'.phase = .building → flight.key = flight'.key → f = f') := by
  have hsound := sound_run hpos hrun
  have hroles := roles_run hpos hrun
  refine ⟨fun i call hcall => ?_, hroles.started, ?_⟩
  · obtain ⟨hreturned, hpanicked⟩ := hsound.ran (List.mem_of_getElem? hcall)
    have hrole := hroles.roles i call hcall
    constructor
    · intro v hstage
      rw [Call.Role, hstage] at hrole
      exact ⟨hreturned v hstage, hrole⟩
    · intro message hstage
      rw [Call.Role, hstage] at hrole
      refine ⟨hpanicked message hstage, fun hleads => ?_, fun hwaits => ?_⟩
      · exact (hrole.resolve_right fun hother => hother.1 hleads).2
      · exact (hrole.resolve_left fun hother => hwaits hother.1).2
  · intro f f' flight flight' hf hf' hbuilding
    obtain ⟨key, build, phase⟩ := flight
    obtain ⟨key', build', phase'⟩ := flight'
    have hopen : ∀ {phase : Phase}, phase = .building → 2 < phase.left := by
      intro phase hphase
      rw [hphase]
      decide
    constructor
    · exact hsound.memo.apart key f ((hsound.memo.open_iff key f).mpr
        ⟨build, phase, hf, hopen hbuilding⟩)
    · intro hbuilding' hkey
      rw [show key = key' from hkey] at hf
      exact hsound.memo.unique hf (hopen hbuilding) hf' (hopen hbuilding')

/-- The first call panics with what its builder panicked with, and the second, which waited, with
the fixed text. -/
theorem returned_built_overlapping : ∃ w, overlapping.foldlM (step 2) (start askedInVain) = some w
    ∧ w.calls = [⟨"a", .error "bad", .panicked "bad"⟩, ⟨"a", .ok 2, .panicked builderPanicked⟩,
      ⟨"b", .ok 3, .returned 3⟩]
    ∧ (∃ payload, w.Ran "a" (.error payload)) ∧ w.Ran "b" (.ok 3)
    ∧ ∀ flight ∈ w.memo.known, ∃ i ∈ [0, 2], askedInVain[i]? = some (flight.key, flight.build) := by
  have hends : (overlapping.foldlM (step 2) (start askedInVain)).map World.calls
      = some [⟨"a", .error "bad", .panicked "bad"⟩, ⟨"a", .ok 2, .panicked builderPanicked⟩,
        ⟨"b", .ok 3, .returned 3⟩] := rfl
  have hleads : leaders 2 askedInVain overlapping = [0, 2] := by decide +kernel
  obtain ⟨w, hrun, hstages⟩ := Option.map_eq_some_iff.mp hends
  obtain ⟨hcalls, hstarted, -⟩ := returned_built (by decide) hrun
  rw [hleads] at hstarted
  rw [hstages] at hcalls
  exact ⟨w, hrun, hstages, ((hcalls 1 _ rfl).2 _ rfl).1, ((hcalls 2 _ rfl).1 _ rfl).1, hstarted⟩

/-! ### Where all keys fit -/

theorem Sound.room (h : Sound capacity requests log w)
    (hroom : (requests.map Prod.fst).dedup.length ≤ capacity) : log.dedup.length ≤ capacity := by
  refine le_trans ?_ hroom
  refine List.Subperm.length_le (List.subperm_of_subset (List.nodup_dedup _) ?_)
  intro k hk
  exact List.mem_dedup.mpr (h.asked k (List.mem_dedup.mp hk))

theorem memo_led (w : World α) (flight : ℕ) : (w.led flight).memo = w.memo := by
  unfold World.led
  split <;> rfl

theorem once_step (h : Sound capacity requests log w) (honce : Once log w.memo)
    (hroom : (requests.map Prod.fst).dedup.length ≤ capacity)
    (hok : ∀ request ∈ requests, ∃ v, request.2 = .ok v) (hstep : step capacity w move = some w') :
    Once (log ++ uses w move) w'.memo := by
  rcases step_cases hstep with ⟨i, key, build, rfl, hcall, rfl⟩ | ⟨flight, memo, rfl, hmemo, rfl⟩
    | ⟨i, key, build, flight, entry, rfl, hcall, -, rfl⟩ | ⟨i, key, build, flight, rfl, hcall, rfl⟩
  · have huses : uses w (.enter i) = w.memo.hit key := by rw [uses, hcall]; rfl
    rw [huses]
    exact honce.lookup h.memo (h.room hroom) key build
  · rw [memo_led]
    exact honce.advance hmemo fun flight hmem => hok _ (h.known flight hmem)
  · rw [show uses w (.check i) = [] from rfl, List.append_nil]
    exact honce
  · rw [show uses w (.wake i) = [] from rfl, List.append_nil]
    exact honce

/-- **Where all keys fit and no builder panics, each key is built once**, however many calls ask for
it and however they overlap. -/
theorem built_once (hpos : 0 < capacity) (hroom : (requests.map Prod.fst).dedup.length ≤ capacity)
    (hok : ∀ request ∈ requests, ∃ v, request.2 = .ok v)
    (hrun : moves.foldlM (step capacity) (start requests) = some w) :
    (w.memo.known.map Flight.key).Nodup := by
  obtain ⟨-, honce⟩ := Steps.log_keeps
    (P := fun log w => Sound capacity requests log w ∧ Once log w.memo)
    (fun l s a m hs hstep => ⟨hs.1.step hpos hstep, once_step hs.1 hs.2 hroom hok hstep⟩)
    ⟨sound_start capacity requests, Once.empty⟩ hrun
  exact honce.keys

theorem built_once_overlapping : ∃ w, overlapping.foldlM (step 2) (start askedTwice) = some w
    ∧ (w.memo.known.map Flight.key).Nodup := by
  have hrun := (Option.some_get overlapping_runs).symm
  refine ⟨_, hrun, built_once (by decide) (by decide +kernel) (fun request hmem => ?_) hrun⟩
  simp only [askedTwice, List.mem_cons, List.not_mem_nil, or_false] at hmem
  rcases hmem with rfl | rfl | rfl <;> exact ⟨_, rfl⟩

/-! ### What is kept -/

/-- **The memo keeps the `capacity` keys used last**, no matter how the calls overlap. -/
theorem keeps_last_used (hpos : 0 < capacity)
    (hrun : moves.foldlM (step capacity) (start requests) = some w) (k : String) :
    w.memo.store.ready.contains k = true
      ↔ k ∈ (Steps.log (step capacity) uses moves (start requests)).dedup.rtake capacity := by
  have hkept := (sound_run hpos hrun).memo.kept
  rw [← hkept.keys, hkept.lru]

/-- With room for one, `b` is given up for `a`, which was built longer. -/
theorem keeps_last_used_overlapping : ∃ w, overlapping.foldlM (step 1) (start askedTwice) = some w
      ∧ (w.memo.store.ready.contains "a" = true ↔ "a" ∈ ["a"])
      ∧ (w.memo.store.ready.contains "b" = true ↔ "b" ∈ ["a"]) := by
  have hends : (overlapping.foldlM (step 1) (start askedTwice)).isSome = true := by decide +kernel
  have hrun := (Option.some_get hends).symm
  have hlog : (Steps.log (step 1) uses overlapping (start askedTwice)).dedup.rtake 1 = ["a"] := by
    decide +kernel
  exact ⟨_, hrun, hlog ▸ keeps_last_used (by decide) hrun "a",
    hlog ▸ keeps_last_used (by decide) hrun "b"⟩

/-! ### No run goes on for ever -/

def Move.isWake : Move → Bool
  | .wake _ => true
  | _ => false

def Stage.over : Stage α → Bool
  | .returned _ | .panicked _ => true
  | _ => false

/-- The moves that a call may still take, apart from unasked wakeups. -/
def Stage.weight (known : List (Flight String String α)) : Stage α → ℕ
  | .entering => 5
  | .waits f => if (known[f]?.map fun entry => entry.phase.hasResult).getD false then 1 else 3
  | .parked _ => 2
  | .leads _ | .returned _ | .panicked _ => 0

/-- With the steps ahead of the flights. -/
def World.left (w : World α) : ℕ :=
  w.memo.left + (w.calls.map fun call => call.stage.weight w.memo.known).sum

theorem weight_waits_le (known : List (Flight String String α)) (f : ℕ) :
    (Stage.waits f : Stage α).weight known ≤ 3 := by
  rw [Stage.weight]
  split <;> omega

theorem weight_later {known known' : List (Flight String String α)} {key : String}
    {stage : Stage α} (h : stage.Fits known key) (hlater : Later known known') :
    stage.weight known' ≤ stage.weight known := by
  cases stage with
  | waits f =>
    obtain ⟨b, p, hf⟩ := h
    obtain ⟨p', hf', hless⟩ := hlater f key b p hf
    rw [Stage.weight, Stage.weight, hf, hf']
    show (if p'.hasResult = true then 1 else 3) ≤ if p.hasResult = true then 1 else 3
    by_cases hp : p.hasResult = true
    · rw [if_pos hp, if_pos (Phase.hasResult_iff.mpr (hless.trans (Phase.hasResult_iff.mp hp)))]
    · rw [if_neg hp]
      split <;> omega
  | _ => exact le_rfl

theorem left_memo (h : Sound capacity requests log w) {memo : Memo String String α}
    (hlater : Later w.memo.known memo.known) :
    ({ w with memo } : World α).left + w.memo.left ≤ w.left + memo.left := by
  have hsum := List.sum_le_sum (l := w.calls)
    (f := fun call => call.stage.weight memo.known)
    (g := fun call => call.stage.weight w.memo.known)
    fun call hmem => weight_later (h.fits call hmem) hlater
  show memo.left + (w.calls.map fun call => call.stage.weight memo.known).sum + w.memo.left ≤ _
  rw [World.left]
  omega

theorem left_set (w : World α) {i : ℕ} {key : String} {build : Except String α}
    {old : Stage α} (hcall : w.calls[i]? = some ⟨key, build, old⟩) (stage : Stage α) :
    (w.set i ⟨key, build, stage⟩).left + old.weight w.memo.known
      = w.left + stage.weight w.memo.known := by
  have hbefore : (w.calls.map fun call => call.stage.weight w.memo.known)[i]?
      = some (old.weight w.memo.known) := by
    rw [List.getElem?_map, hcall]
    rfl
  have hsum := List.sum_set_add hbefore (stage.weight w.memo.known)
  show w.memo.left + ((w.calls.set i _).map fun call => call.stage.weight w.memo.known).sum + _ = _
  rw [List.map_set, World.left]
  show w.memo.left + (List.set _ i (stage.weight w.memo.known)).sum + _ = _
  omega

theorem left_enter (h : Sound capacity requests log w) {i : ℕ} {key : String}
    {build : Except String α} (hcall : w.calls[i]? = some ⟨key, build, .entering⟩) :
    (({ w with memo := (w.memo.lookup key build).2 } : World α).set i
      ⟨key, build, .ofLookup (w.memo.lookup key build).1⟩).left + 1 ≤ w.left := by
  rcases w.memo.lookup_cases key build with ⟨value, -, -, hlookup⟩
    | ⟨-, -, ⟨flight, -, hlookup⟩ | ⟨-, hlookup⟩⟩
  · rw [hlookup]
    have hset := left_set ({ w with memo := { w.memo with store := w.memo.store.touch key } }
      : World α) hcall (.returned value)
    have hsame : ({ w with memo := { w.memo with store := w.memo.store.touch key } }
      : World α).left = w.left := rfl
    rw [hsame] at hset
    exact hset.le.trans' (Nat.add_le_add_left (by decide : 1 ≤ 5) _)
  · rw [hlookup]
    have hset := left_set w hcall (.waits flight)
    have hwaits := weight_waits_le w.memo.known flight
    have hentering : (Stage.entering : Stage α).weight w.memo.known = 5 := rfl
    show (w.set i ⟨key, build, .waits flight⟩).left + 1 ≤ w.left
    omega
  · rw [hlookup]
    have hlater : Later w.memo.known (w.memo.lead key build).known := later_concat _ _
    have hmemo := left_memo h hlater
    have hfour := w.memo.left_lead key build
    have hset := left_set ({ w with memo := w.memo.lead key build } : World α) hcall
      (.leads w.memo.known.length)
    have hentering : ∀ known, (Stage.entering : Stage α).weight known = 5 := fun _ => rfl
    have hleads : ∀ known f, (Stage.leads f : Stage α).weight known = 0 := fun _ _ => rfl
    rw [hentering, hleads] at hset
    show (({ w with memo := w.memo.lead key build } : World α).set i
      ⟨key, build, .leads w.memo.known.length⟩).left + 1 ≤ w.left
    omega

theorem left_lead (h : Sound capacity requests log w) {flight : ℕ} {memo : Memo String String α}
    (hmemo : w.memo.advance capacity flight = some memo) :
    (({ w with memo } : World α).led flight).left + 1 ≤ w.left := by
  obtain ⟨key, build, phase, phase', hknown, -, hset, -⟩ := Memo.advance_cases hmemo
  obtain ⟨hlt, -⟩ := List.getElem?_eq_some_iff.mp hknown
  have hself : memo.known[flight]? = some ⟨key, build, phase'⟩ := by
    rw [hset, List.getElem?_set_self hlt]
  have hless := left_memo h (Memo.later_advance hmemo)
  have hmemoLeft := Memo.left_advance hmemo
  rcases led_eq (w := ({ w with memo } : World α)) hself with ⟨-, hled⟩ | ⟨rfl, hled⟩
  · rw [hled]
    omega
  · rw [hled]
    -- who was parked finds the result, and the leader was not counted
    have hsum := List.sum_le_sum (l := w.calls)
      (f := fun call => (call.stage.notified flight build).weight memo.known)
      (g := fun call => call.stage.weight memo.known) fun call _ => by
        show (call.stage.notified flight build).weight memo.known ≤ call.stage.weight memo.known
        cases call.stage with
        | parked f =>
          rw [Stage.notified]
          split
          next hf =>
            rw [hf, Stage.weight, hself]
            exact Nat.le_succ 1
          · exact le_rfl
        | leads f =>
          rw [Stage.notified]
          split
          · cases build <;> exact le_rfl
          · exact le_rfl
        | _ => exact le_rfl
    have hmap : (({ w with memo } : World α).calls.map fun call =>
        call.to (call.stage.notified flight build)).map (fun call => call.stage.weight memo.known)
        = w.calls.map fun call => (call.stage.notified flight build).weight memo.known :=
      List.map_map
    show memo.left + (List.map _ (List.map _ _)).sum + 1 ≤ _
    rw [hmap]
    have hworld : ({ w with memo } : World α).left
        = memo.left + (w.calls.map fun call => call.stage.weight memo.known).sum := rfl
    omega

/-- **Every move but an unasked wakeup brings the calls nearer their end.** -/
theorem left_step (h : Sound capacity requests log w) (hstep : step capacity w move = some w') :
    w'.left + 1 ≤ w.left + if move.isWake then 2 else 0 := by
  rcases step_cases hstep with ⟨i, key, build, rfl, hcall, rfl⟩ | ⟨flight, memo, rfl, hmemo, rfl⟩
    | ⟨i, key, build, flight, entry, rfl, hcall, hentry, rfl⟩
    | ⟨i, key, build, flight, rfl, hcall, rfl⟩
  · exact left_enter h hcall
  · exact left_lead h hmemo
  · have hset := left_set w hcall
      (if entry.phase.hasResult then .ofResult entry.build else .parked flight)
    have hwaits : (Stage.waits flight : Stage α).weight w.memo.known
        = if entry.phase.hasResult then 1 else 3 := by
      rw [Stage.weight, hentry]
      rfl
    rw [hwaits] at hset
    have hless : (if entry.phase.hasResult then Stage.ofResult entry.build
        else .parked flight).weight w.memo.known + 1 ≤ if entry.phase.hasResult then 1 else 3 := by
      by_cases hresult : entry.phase.hasResult = true
      · rw [if_pos hresult, if_pos hresult]
        cases entry.build <;> exact le_rfl
      · rw [if_neg hresult, if_neg hresult]
        exact le_rfl
    rw [show (Move.check i).isWake = false from rfl]
    simp only [Bool.false_eq_true, if_false]
    omega
  · have hset := left_set w hcall (.waits flight)
    have hwaits := weight_waits_le w.memo.known flight
    have hparked : (Stage.parked flight : Stage α).weight w.memo.known = 2 := rfl
    rw [show (Move.wake i).isWake = true from rfl, if_pos rfl]
    omega

theorem left_run (hpos : 0 < capacity) :
    ∀ {moves : List Move} {log : List String} {w w' : World α}, Sound capacity requests log w →
      moves.foldlM (step capacity) w = some w' →
      w'.left + moves.length ≤ w.left + 2 * moves.countP Move.isWake := by
  intro moves
  induction moves with
  | nil =>
    intro log w w' _ hrun
    rw [← Option.some.inj hrun]
    simp
  | cons move moves ih =>
    intro log w w' h hrun
    rw [List.foldlM_cons, Option.bind_eq_bind, Option.bind_eq_some_iff] at hrun
    obtain ⟨mid, hstep, hrest⟩ := hrun
    have hmid := left_step h hstep
    have htail := ih (h.step hpos hstep) hrest
    rw [List.length_cons, List.countP_cons]
    split at hmid <;> simp_all <;> omega

/-- **No call is left behind.**  A run of `n` calls takes at most five moves for each and two for
each unasked wakeup, and when no move but such a wakeup is possible every call is over. -/
theorem comes_to_rest (hpos : 0 < capacity)
    (hrun : moves.foldlM (step capacity) (start requests) = some w) :
    moves.length ≤ 5 * requests.length + 2 * moves.countP Move.isWake
      ∧ ((∀ move, move.isWake = false → step capacity w move = none) →
        ∀ call ∈ w.calls, call.stage.over = true) := by
  constructor
  · have hleft := left_run hpos (sound_start capacity requests) hrun
    have hstart : (start requests).left = 5 * requests.length := by
      simp [World.left, start, Memo.left, Memo.empty, Stage.weight, Function.comp_def, Nat.mul_comm]
    omega
  · intro hrest call hmem
    have hsound := sound_run hpos hrun
    obtain ⟨i, hcall⟩ := List.mem_iff_getElem?.mp hmem
    obtain ⟨key, build, stage⟩ := call
    have hfits := hsound.fits _ hmem
    -- a flight that is not through could go on
    have hopen : ∀ {f : ℕ}, ¬ ∃ (b : Except String α) (p : Phase),
        w.memo.known[f]? = some ⟨key, b, p⟩ ∧ 0 < p.left := by
      rintro f ⟨b, p, hf, hleft⟩
      obtain ⟨memo, hmemo⟩ := hsound.memo.advances hpos hf hleft
      have hlead := hrest (.lead f) rfl
      rw [step, hmemo] at hlead
      cases hlead
    cases stage with
    | entering =>
      have henter := hrest (.enter i) rfl
      rw [step, hcall] at henter
      cases henter
    | waits f =>
      obtain ⟨b, p, hf⟩ := hfits
      have hcheck := hrest (.check i) rfl
      simp only [step, hcall, hf] at hcheck
      cases hcheck
    | parked f => exact absurd hfits hopen
    | leads f => exact absurd hfits hopen
    | returned v => rfl
    | panicked message => rfl

/-- The run stops where nothing but a wakeup is left. -/
theorem comes_to_rest_overlapping : ∃ w, overlapping.foldlM (step 2) (start askedTwice) = some w
    ∧ overlapping.length ≤ 5 * askedTwice.length + 2 * overlapping.countP Move.isWake
    ∧ ∀ call ∈ w.calls, call.stage.over = true := by
  have hends : (overlapping.foldlM (step 2) (start askedTwice)).any (fun w =>
      w.calls.all (fun call => call.stage.over)
        && w.memo.known.all (fun flight => flight.phase = .notified)) = true := by decide +kernel
  obtain ⟨w, hrun, hdone⟩ := (Option.any_eq_true _ _).mp hends
  simp only [Bool.and_eq_true, List.all_eq_true, decide_eq_true_eq] at hdone
  obtain ⟨hbound, hover⟩ := comes_to_rest (by decide) hrun
  refine ⟨w, hrun, hbound, hover fun move hmove => Option.eq_none_iff_forall_ne_some.mpr ?_⟩
  intro w' hstep
  rcases step_cases hstep with ⟨i, key, build, rfl, hcall, rfl⟩ | ⟨flight, memo, rfl, hmemo, rfl⟩
    | ⟨i, key, build, flight, entry, rfl, hcall, -, rfl⟩ | ⟨i, key, build, flight, rfl, -, rfl⟩
  · exact absurd (hdone.1 _ (List.mem_of_getElem? hcall)) (by simp [Stage.over])
  · obtain ⟨key, build, phase, phase', hknown, hleft, -⟩ := Memo.advance_cases hmemo
    have hphase : phase = .notified := hdone.2 _ (List.mem_of_getElem? hknown)
    rw [hphase] at hleft
    cases hleft
  · exact absurd (hdone.1 _ (List.mem_of_getElem? hcall)) (by simp [Stage.over])
  · cases hmove

end Brocade.Cache.StageMemo
