/-
The stage memo of the incremental compiler.

Every call of `get_or_insert_with` runs on a thread of its own and gives way to the others at any
point outside the lock: after the first critical section, while its builder runs, before it enters
the result, before it stores the result in the flight and before it wakes those who wait.  Who waits
looks for the result under the flight's own lock and parks on the condition variable, which also
wakes unasked.  A run is any interleaving of these moves.

`Sound` says what holds at every point of every run: who waits or leads does so at a flight of its
own key, and who sleeps on the condition variable sleeps at a flight that is still to wake it.
-/
import Brocade.Lib.SingleFlight
import Brocade.Lib.Steps

namespace Brocade.Cache.StageMemo

open SingleFlight

/-- What a call panics with that waited for a builder that panicked. -/
def builderPanicked : String := "stage cache builder panicked"

/-- Where a call of `get_or_insert_with` stands. -/
inductive Stage (α : Type) where
  | entering
  | waits (flight : ℕ)
  | parked (flight : ℕ)
  | leads (flight : ℕ)
  | returned (value : α)
  | panicked (message : String)

/-- A call with its key and what its builder returns or panics with. -/
structure Call (α : Type) where
  key : String
  build : Except String α
  stage : Stage α

/-- The memo and the calls made on it. -/
structure World (α : Type) where
  memo : Memo String String α
  calls : List (Call α)

/-- The steps of the calls. -/
inductive Move where
  /-- The first critical section. -/
  | enter (call : ℕ)
  /-- The next step of the call that leads a flight. -/
  | lead (flight : ℕ)
  /-- A look for the result, under the flight's lock. -/
  | check (call : ℕ)
  /-- The condition variable wakes the call unasked. -/
  | wake (call : ℕ)

variable {α : Type}

def Stage.ofLookup : Lookup α → Stage α
  | .ready value => .returned value
  | .wait flight => .waits flight
  | .lead flight => .leads flight

/-- How a leading call ends: with the value, or with the builder's own panic. -/
def Stage.ofBuild : Except String α → Stage α
  | .ok value => .returned value
  | .error payload => .panicked payload

/-- How a waiting call ends. -/
def Stage.ofResult : Except String α → Stage α
  | .ok value => .returned value
  | .error _ => .panicked builderPanicked

/-- `notify_all`: who is parked at the flight looks again, and the call that leads it ends. -/
def Stage.notified (flight : ℕ) (build : Except String α) : Stage α → Stage α
  | .parked f => if f = flight then .waits f else .parked f
  | .leads f => if f = flight then .ofBuild build else .leads f
  | stage => stage

def Call.to (call : Call α) (stage : Stage α) : Call α := { call with stage }

def World.set (w : World α) (i : ℕ) (call : Call α) : World α :=
  { w with calls := w.calls.set i call }

/-- After a step of a flight, which notifies with the last. -/
def World.led (w : World α) (flight : ℕ) : World α :=
  match w.memo.known[flight]? with
  | some ⟨_, build, .notified⟩ =>
    { w with calls := w.calls.map fun call => call.to (call.stage.notified flight build) }
  | _ => w

/-- The cache behind one move. -/
def step (capacity : ℕ) (w : World α) : Move → Option (World α)
  | .enter i =>
    match w.calls[i]? with
    | some ⟨key, build, .entering⟩ =>
      let asked := w.memo.lookup key build
      some (({ w with memo := asked.2 } : World α).set i ⟨key, build, .ofLookup asked.1⟩)
    | _ => none
  | .lead flight =>
    (w.memo.advance capacity flight).map fun memo => ({ w with memo } : World α).led flight
  | .check i =>
    match w.calls[i]? with
    | some ⟨key, build, .waits flight⟩ =>
      w.memo.known[flight]?.map fun entry =>
        w.set i ⟨key, build,
          if entry.phase.hasResult then .ofResult entry.build else .parked flight⟩
    | _ => none
  | .wake i =>
    match w.calls[i]? with
    | some ⟨key, build, .parked flight⟩ => some (w.set i ⟨key, build, .waits flight⟩)
    | _ => none

/-- The calls to come, on an empty memo. -/
def start (requests : List (String × Except String α)) : World α where
  memo := .empty
  calls := requests.map fun request => ⟨request.1, request.2, .entering⟩

/-- The keys that a move makes the last used ones. -/
def uses (w : World α) : Move → List String
  | .enter i => (w.calls[i]?.map fun call => w.memo.hit call.key).getD []
  | .lead flight => w.memo.brought flight
  | _ => []

/-! ### What a move does -/

variable {capacity : ℕ} {w w' : World α} {move : Move}

/-- Everything a move can be: a call asks, a flight takes its next step, a waiting call looks, or a
sleeping one wakes. -/
theorem step_cases (h : step capacity w move = some w') :
    (∃ i key build, move = .enter i ∧ w.calls[i]? = some ⟨key, build, .entering⟩
        ∧ w' = ({ w with memo := (w.memo.lookup key build).2 } : World α).set i
          ⟨key, build, .ofLookup (w.memo.lookup key build).1⟩)
      ∨ (∃ flight memo, move = .lead flight ∧ w.memo.advance capacity flight = some memo
        ∧ w' = ({ w with memo } : World α).led flight)
      ∨ (∃ i key build flight entry, move = .check i
        ∧ w.calls[i]? = some ⟨key, build, .waits flight⟩ ∧ w.memo.known[flight]? = some entry
        ∧ w' = w.set i ⟨key, build,
          if entry.phase.hasResult then .ofResult entry.build else .parked flight⟩)
      ∨ (∃ i key build flight, move = .wake i ∧ w.calls[i]? = some ⟨key, build, .parked flight⟩
        ∧ w' = w.set i ⟨key, build, .waits flight⟩) := by
  cases move with
  | enter i =>
    simp only [step] at h
    split at h
    next key build hcall => exact .inl ⟨i, key, build, rfl, hcall, (Option.some.inj h).symm⟩
    · cases h
  | lead flight =>
    obtain ⟨memo, hmemo, rfl⟩ := Option.map_eq_some_iff.mp h
    exact .inr (.inl ⟨flight, memo, rfl, hmemo, rfl⟩)
  | check i =>
    simp only [step] at h
    split at h
    next key build flight hcall =>
      obtain ⟨entry, hentry, rfl⟩ := Option.map_eq_some_iff.mp h
      exact .inr (.inr (.inl ⟨i, key, build, flight, entry, rfl, hcall, hentry, rfl⟩))
    · cases h
  | wake i =>
    simp only [step] at h
    split at h
    next key build flight hcall =>
      exact .inr (.inr (.inr ⟨i, key, build, flight, rfl, hcall, (Option.some.inj h).symm⟩))
    · cases h

theorem led_eq {flight : ℕ} {key : String} {build : Except String α} {phase : Phase}
    (h : w.memo.known[flight]? = some ⟨key, build, phase⟩) :
    phase ≠ .notified ∧ w.led flight = w ∨ phase = .notified ∧ w.led flight = { w with
        calls := w.calls.map fun call => call.to (call.stage.notified flight build) } := by
  cases phase <;> simp [World.led, h]

/-! ### The invariant -/

variable {requests : List (String × Except String α)} {log : List String}

/-- What the stage of a call with this key says of the flights: a call is over only where the
builder of a flight of its key has run. -/
def Stage.Fits (known : List (Flight String String α)) (key : String) : Stage α → Prop
  | .entering => True
  | .waits f => ∃ b p, known[f]? = some ⟨key, b, p⟩
  | .parked f | .leads f => ∃ (b : Except String α) (p : Phase),
      known[f]? = some ⟨key, b, p⟩ ∧ 0 < p.left
  | .returned v => ∃ (f : ℕ) (p : Phase), known[f]? = some ⟨key, .ok v, p⟩ ∧ p.left ≤ 3
  | .panicked _ => ∃ (f : ℕ) (e : String) (p : Phase),
      known[f]? = some ⟨key, .error e, p⟩ ∧ p.left ≤ 3

/-- The memo is sound, all it was asked for and has built is of the calls, and the calls' stages
fit the flights. -/
structure Sound (capacity : ℕ) (requests : List (String × Except String α)) (log : List String)
    (w : World α) : Prop where
  memo : SingleFlight.Sound capacity log w.memo
  asked : ∀ k ∈ log, k ∈ requests.map Prod.fst
  known : ∀ flight ∈ w.memo.known, (flight.key, flight.build) ∈ requests
  calls : w.calls.map (fun call => (call.key, call.build)) = requests
  fits : ∀ call ∈ w.calls, call.stage.Fits w.memo.known call.key

/-- What a stage says goes on to hold as flights are added and move on, as long as the flight that
a call sleeps at or leads is not through. -/
theorem Stage.Fits.later {known known' : List (Flight String String α)} {key : String}
    {stage : Stage α} (h : stage.Fits known key) (hlater : Later known known')
    (hopen : ∀ f, stage = .parked f ∨ stage = .leads f →
      ∀ entry, known'[f]? = some entry → known[f]? = some entry ∨ 0 < entry.phase.left) :
    stage.Fits known' key := by
  have hstill : ∀ f, stage = .parked f ∨ stage = .leads f →
      (∃ (b : Except String α) (p : Phase), known[f]? = some ⟨key, b, p⟩ ∧ 0 < p.left) →
      ∃ (b : Except String α) (p : Phase), known'[f]? = some ⟨key, b, p⟩ ∧ 0 < p.left := by
    intro f hstage hf
    obtain ⟨b, p, hf, hleft⟩ := hf
    obtain ⟨p', hf', -⟩ := hlater f key b p hf
    refine ⟨b, p', hf', ?_⟩
    rcases hopen f hstage _ hf' with hsame | hleft'
    · rw [hf] at hsame
      cases hsame
      exact hleft
    · exact hleft'
  cases stage with
  | entering => trivial
  | waits f =>
    obtain ⟨b, p, hf⟩ := h
    obtain ⟨p', hf', -⟩ := hlater f key b p hf
    exact ⟨b, p', hf'⟩
  | parked f => exact hstill f (.inl rfl) h
  | leads f => exact hstill f (.inr rfl) h
  | returned v =>
    obtain ⟨f, p, hf, hran⟩ := h
    obtain ⟨p', hf', hless⟩ := hlater f key (.ok v) p hf
    exact ⟨f, p', hf', hless.trans hran⟩
  | panicked message =>
    obtain ⟨f, e, p, hf, hran⟩ := h
    obtain ⟨p', hf', hless⟩ := hlater f key (.error e) p hf
    exact ⟨f, e, p', hf', hless.trans hran⟩

theorem sound_start (capacity : ℕ) (requests : List (String × Except String α)) :
    Sound capacity requests [] (start requests) where
  memo := SingleFlight.Sound.empty
  asked k hk := absurd hk List.not_mem_nil
  known flight hmem := absurd hmem List.not_mem_nil
  calls := by simp [start, Function.comp_def]
  fits call hmem := by
    obtain ⟨request, -, rfl⟩ := List.mem_map.mp hmem
    trivial

section

variable (h : Sound capacity requests log w)

include h

theorem Sound.set {i : ℕ} {key : String} {build : Except String α} {old stage : Stage α}
    (hcall : w.calls[i]? = some ⟨key, build, old⟩) (hfits : stage.Fits w.memo.known key) :
    Sound capacity requests log (w.set i ⟨key, build, stage⟩) where
  memo := h.memo
  asked := h.asked
  known := h.known
  calls := by
    refine Eq.trans ?_ h.calls
    show (w.calls.set i _).map _ = _
    rw [List.map_set, List.set_of_getElem?]
    rw [List.getElem?_map, hcall]
    rfl
  fits call hmem := by
    rcases List.mem_or_eq_of_mem_set hmem with hmem | rfl
    · exact h.fits call hmem
    · exact hfits

theorem Sound.enter {i : ℕ} {key : String} {build : Except String α}
    (hcall : w.calls[i]? = some ⟨key, build, .entering⟩) :
    Sound capacity requests (log ++ w.memo.hit key)
      (({ w with memo := (w.memo.lookup key build).2 } : World α).set i
        ⟨key, build, .ofLookup (w.memo.lookup key build).1⟩) := by
  have hrequest : (key, build) ∈ requests := by
    rw [← h.calls]
    exact List.mem_map.mpr ⟨_, List.mem_of_getElem? hcall, rfl⟩
  have hasked : ∀ k ∈ log ++ w.memo.hit key, k ∈ requests.map Prod.fst := by
    intro k hk
    rcases List.mem_append.mp hk with hk | hk
    · exact h.asked k hk
    · unfold Memo.hit at hk
      split at hk
      · rw [List.mem_singleton.mp hk]
        exact List.mem_map.mpr ⟨_, hrequest, rfl⟩
      · cases hk
  have hmemo := h.memo.lookup key build
  rcases w.memo.lookup_cases key build with ⟨value, hready, -, hlookup⟩
    | ⟨-, -, ⟨flight, hflight, hlookup⟩ | ⟨-, hlookup⟩⟩
  · rw [hlookup] at hmemo ⊢
    have hsame : Sound capacity requests (log ++ w.memo.hit key)
        ({ w with memo := { w.memo with store := w.memo.store.touch key } } : World α) :=
      ⟨hmemo, hasked, h.known, h.calls, h.fits⟩
    obtain ⟨f, p, hf, hran⟩ := h.memo.built key value hready
    exact hsame.set hcall ⟨f, p, hf, hran.trans (by decide)⟩
  · rw [hlookup] at hmemo ⊢
    have hsame : Sound capacity requests (log ++ w.memo.hit key) w :=
      ⟨hmemo, hasked, h.known, h.calls, h.fits⟩
    obtain ⟨b, p, hf, -⟩ := (h.memo.open_iff key flight).mp hflight
    exact hsame.set hcall ⟨b, p, hf⟩
  · rw [hlookup] at hmemo ⊢
    have hnew : (w.memo.known ++ [⟨key, build, .building⟩])[w.memo.known.length]?
        = some ⟨key, build, .building⟩ := List.getElem?_concat_length
    have hsame : Sound capacity requests (log ++ w.memo.hit key)
        ({ w with memo := w.memo.lead key build } : World α) := by
      refine ⟨hmemo, hasked, fun flight hmem => ?_, h.calls, fun call hmem => ?_⟩
      · rcases List.mem_append.mp (show flight ∈ w.memo.known ++ [_] from hmem) with hmem | hmem
        · exact h.known flight hmem
        · rw [List.mem_singleton.mp hmem]
          exact hrequest
      · refine (h.fits call hmem).later (later_concat _ _) fun f _ entry hf => ?_
        replace hf : (w.memo.known ++ [_])[f]? = some entry := hf
        rw [List.getElem?_append] at hf
        split at hf
        · exact .inl hf
        · rw [List.mem_singleton.mp (List.mem_of_getElem? hf)]
          exact .inr (Nat.succ_pos 3)
    exact hsame.set hcall ⟨build, .building, hnew, Nat.succ_pos 3⟩

theorem Sound.lead (hpos : 0 < capacity) {flight : ℕ} {memo : Memo String String α}
    (hmemo : w.memo.advance capacity flight = some memo) :
    Sound capacity requests (log ++ w.memo.brought flight)
      (({ w with memo } : World α).led flight) := by
  obtain ⟨key, build, phase, phase', hknown, -, hset, -⟩ := Memo.advance_cases hmemo
  obtain ⟨hlt, -⟩ := List.getElem?_eq_some_iff.mp hknown
  have hself : memo.known[flight]? = some ⟨key, build, phase'⟩ := by
    rw [hset, List.getElem?_set_self hlt]
  have hothers : ∀ {f : ℕ}, f ≠ flight → memo.known[f]? = w.memo.known[f]? := by
    intro f hf
    rw [hset, List.getElem?_set_ne (Ne.symm hf)]
  have hrequest := h.known _ (List.mem_of_getElem? hknown)
  have hasked : ∀ k ∈ log ++ w.memo.brought flight, k ∈ requests.map Prod.fst := by
    intro k hk
    rcases List.mem_append.mp hk with hk | hk
    · exact h.asked k hk
    · have hkey : k = key := by
        unfold Memo.brought at hk
        rw [hknown] at hk
        cases build <;> cases phase <;> simp_all
      exact List.mem_map.mpr ⟨_, hrequest, hkey.symm⟩
  have hrequests : ∀ entry ∈ memo.known, (entry.key, entry.build) ∈ requests := by
    intro entry hmem
    rw [hset] at hmem
    rcases List.mem_or_eq_of_mem_set hmem with hmem | rfl
    · exact h.known entry hmem
    · exact hrequest
  have hsound := h.memo.advance hpos hmemo
  have hlater := Memo.later_advance hmemo
  have hled := led_eq (w := ({ w with memo } : World α)) hself
  rcases hled with ⟨hmore, hled⟩ | ⟨hlast, hled⟩
  · rw [hled]
    refine ⟨hsound, hasked, hrequests, h.calls, fun call hmem => ?_⟩
    refine (h.fits call hmem).later hlater fun f _ entry hf => ?_
    by_cases hflight : f = flight
    · rw [hflight, hself] at hf
      rw [← Option.some.inj hf]
      exact .inr (Nat.pos_of_ne_zero fun hleft => hmore (Phase.left_eq_zero.mp hleft))
    · exact .inl (hothers hflight ▸ hf)
  · -- those who slept at the flight look again, and its leader is through
    rw [hled]
    refine ⟨hsound, hasked, hrequests, ?_, fun call' hmem' => ?_⟩
    · refine Eq.trans ?_ h.calls
      show (w.calls.map _).map _ = _
      rw [List.map_map]
      rfl
    · obtain ⟨call, hmem, rfl⟩ := List.mem_map.mp hmem'
      have hfits := h.fits call hmem
      have hold : (∀ f, call.stage = .parked f ∨ call.stage = .leads f → f ≠ flight) →
          call.stage.Fits memo.known call.key := by
        intro hne
        exact hfits.later hlater fun f hstage entry hf => .inl (hothers (hne f hstage) ▸ hf)
      have hkey : ∀ {b : Except String α} {p : Phase},
          w.memo.known[flight]? = some ⟨call.key, b, p⟩ → key = call.key := by
        intro b p hf
        rw [hknown] at hf
        exact congrArg Flight.key (Option.some.inj hf)
      show (call.stage.notified flight build).Fits memo.known call.key
      cases hstage : call.stage with
      | parked f =>
        rw [Stage.notified]
        by_cases hf : f = flight
        · rw [if_pos hf]
          rw [hstage, hf] at hfits
          obtain ⟨b, p, hat, -⟩ := hfits
          exact ⟨build, phase', by rw [hf, hself, hkey hat]⟩
        · rw [if_neg hf, ← hstage]
          exact hold (by simp [hstage, hf])
      | leads f =>
        rw [Stage.notified]
        by_cases hf : f = flight
        · rw [if_pos hf]
          rw [hstage, hf] at hfits
          obtain ⟨b, p, hat, -⟩ := hfits
          have hran : phase'.left ≤ 3 := by
            rw [hlast]
            decide
          cases build with
          | ok v => exact ⟨flight, phase', by rw [hself, hkey hat], hran⟩
          | error e => exact ⟨flight, e, phase', by rw [hself, hkey hat], hran⟩
        · rw [if_neg hf, ← hstage]
          exact hold (by simp [hstage, hf])
      | _ =>
        rw [Stage.notified, ← hstage]
        · exact hold (by simp [hstage])
        all_goals simp

/-- **Every move keeps the invariant.** -/
theorem Sound.step (hpos : 0 < capacity) (hstep : StageMemo.step capacity w move = some w') :
    Sound capacity requests (log ++ uses w move) w' := by
  rcases step_cases hstep with ⟨i, key, build, rfl, hcall, rfl⟩ | ⟨flight, memo, rfl, hmemo, rfl⟩
    | ⟨i, key, build, flight, entry, rfl, hcall, hentry, rfl⟩
    | ⟨i, key, build, flight, rfl, hcall, rfl⟩
  · have huses : uses w (.enter i) = w.memo.hit key := by rw [uses, hcall]; rfl
    rw [huses]
    exact h.enter hcall
  · exact h.lead hpos hmemo
  · rw [show uses w (.check i) = [] from rfl, List.append_nil]
    refine h.set hcall ?_
    obtain ⟨b, p, hflight⟩ : ∃ b p, w.memo.known[flight]? = some ⟨key, b, p⟩ :=
      h.fits _ (List.mem_of_getElem? hcall)
    rw [hentry] at hflight
    cases hflight
    by_cases hresult : p.hasResult = true
    · rw [if_pos hresult]
      have hran : p.left ≤ 3 := (Phase.hasResult_iff.mp hresult).trans (by decide)
      cases b with
      | ok v => exact ⟨flight, p, hentry, hran⟩
      | error e => exact ⟨flight, e, p, hentry, hran⟩
    · rw [if_neg hresult]
      rw [Phase.hasResult_iff] at hresult
      exact ⟨b, p, hentry, by omega⟩
  · rw [show uses w (.wake i) = [] from rfl, List.append_nil]
    obtain ⟨b, p, hflight, -⟩ : ∃ (b : Except String α) (p : Phase),
        w.memo.known[flight]? = some ⟨key, b, p⟩ ∧ 0 < p.left :=
      h.fits _ (List.mem_of_getElem? hcall)
    exact h.set hcall ⟨b, p, hflight⟩

end

theorem sound_run (hpos : 0 < capacity) {moves : List Move}
    (hrun : moves.foldlM (StageMemo.step capacity) (start requests) = some w) :
    Sound capacity requests (Steps.log (StageMemo.step capacity) uses moves (start requests)) w := by
  have hlog := Steps.log_keeps (P := Sound capacity requests)
    (fun l s a m hs hstep => hs.step hpos hstep) (sound_start capacity requests) hrun
  rwa [List.nil_append] at hlog

/-- Where each call's builder gives the value of what it is asked for, the value a call returns is
that of something with the same key. -/
theorem returned_of_calls {ι : Type} (hpos : 0 < capacity) {key : ι → String} {build : ι → α}
    {calls : List ι} {moves : List Move} (hrun : moves.foldlM (StageMemo.step capacity)
      (start (calls.map fun i => (key i, .ok (build i)))) = some w) {call : Call α}
    (hcall : call ∈ w.calls) {value : α} (hstage : call.stage = .returned value) :
    ∃ i ∈ calls, key i = call.key ∧ build i = value := by
  have hsound := sound_run hpos hrun
  have hfits := hsound.fits call hcall
  rw [hstage] at hfits
  obtain ⟨f, p, hf, -⟩ := hfits
  obtain ⟨i, hi, hsame⟩ := List.mem_map.mp (hsound.known _ (List.mem_of_getElem? hf))
  exact ⟨i, hi, congrArg Prod.fst hsame, Except.ok.inj (congrArg Prod.snd hsame)⟩

end Brocade.Cache.StageMemo
