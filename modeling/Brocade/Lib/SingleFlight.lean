/-
One build for all who ask at once.

A store keeps what was built.  Who asks for a key it does not keep starts a flight for the key, or
joins the one that is under way; what the flight's builder returns is put in the store and handed to
all who joined.  The store and the index of flights are looked at and changed only as a whole, and
the build runs outside of both, so that flights of different keys overlap freely.

`Sound` is the invariant: the index holds exactly the flights still to be entered in the store, none
of them for a key that is kept, and whatever is kept was built for its key.  Flights are never
forgotten here, so that the list of them tells what was built and how often.
-/
import Mathlib.Algebra.GroupWithZero.Nat
import Brocade.Lib.Lru

/-! ### One entry of a list changes -/

namespace List

theorem set_of_getElem? {α : Type*} {l : List α} {i : ℕ} {a : α} (h : l[i]? = some a) :
    l.set i a = l := by
  obtain ⟨hlt, rfl⟩ := getElem?_eq_some_iff.mp h
  exact set_getElem_self hlt

theorem sum_set_add {l : List ℕ} {i a : ℕ} (h : l[i]? = some a) (b : ℕ) :
    (l.set i b).sum + a = l.sum + b := by
  induction l generalizing i with
  | nil => simp at h
  | cons c l ih =>
    cases i with
    | zero =>
      have hc : c = a := by simpa using h
      rw [set_cons_zero, sum_cons, sum_cons, hc]
      omega
    | succ i =>
      have hrest := ih (i := i) (by simpa using h)
      rw [set_cons_succ, sum_cons, sum_cons]
      omega

end List

namespace SingleFlight

/-- How far a flight has come: its builder runs, has returned, the result is entered in the store
and the flight struck off the index, the result is stored in the flight, and those who wait have
been woken. -/
inductive Phase where
  | building
  | built
  | settled
  | stored
  | notified
  deriving DecidableEq

namespace Phase

/-- Whether those who joined find the result. -/
def hasResult : Phase → Bool
  | .stored | .notified => true
  | _ => false

/-- The steps ahead of the flight; with more than two of them it is still in the index. -/
def left : Phase → ℕ
  | .building => 4
  | .built => 3
  | .settled => 2
  | .stored => 1
  | .notified => 0

theorem hasResult_iff {phase : Phase} : phase.hasResult = true ↔ phase.left ≤ 1 := by
  cases phase <;> decide

theorem left_eq_zero {phase : Phase} : phase.left = 0 ↔ phase = .notified := by
  cases phase <;> decide

end Phase

/-- A flight, with what its builder returns once it has run. -/
structure Flight (ε κ α : Type) where
  key : κ
  build : Except ε α
  phase : Phase

/-- What is kept, the index of the flights under way, and all flights ever started. -/
structure Memo (ε κ α : Type) where
  store : Lru κ α
  flights : Table κ ℕ
  known : List (Flight ε κ α)

/-- What a caller is to do. -/
inductive Lookup (α : Type) where
  | ready (value : α)
  | wait (flight : ℕ)
  | lead (flight : ℕ)

variable {ε κ α : Type}

/-- Flights are added and move on. -/
def Later (known known' : List (Flight ε κ α)) : Prop :=
  ∀ (f : ℕ) (k : κ) (build : Except ε α) (phase : Phase), known[f]? = some ⟨k, build, phase⟩ →
    ∃ phase', known'[f]? = some ⟨k, build, phase'⟩ ∧ phase'.left ≤ phase.left

theorem later_concat (known : List (Flight ε κ α)) (flight : Flight ε κ α) :
    Later known (known ++ [flight]) := by
  intro f k build phase hf
  obtain ⟨hlt, -⟩ := List.getElem?_eq_some_iff.mp hf
  exact ⟨phase, by rw [List.getElem?_append_left hlt, hf], le_rfl⟩

theorem later_set {known : List (Flight ε κ α)} {flight : ℕ} {k : κ} {build : Except ε α}
    {phase phase' : Phase} (h : known[flight]? = some ⟨k, build, phase⟩)
    (hleft : phase'.left ≤ phase.left) : Later known (known.set flight ⟨k, build, phase'⟩) := by
  obtain ⟨hlt, -⟩ := List.getElem?_eq_some_iff.mp h
  intro f k' build' old hf
  by_cases hsame : flight = f
  · subst hsame
    rw [h] at hf
    cases hf
    exact ⟨phase', List.getElem?_set_self hlt, hleft⟩
  · exact ⟨old, by rw [List.getElem?_set_ne hsame, hf], le_rfl⟩

namespace Memo

def setFlight (m : Memo ε κ α) (flight : ℕ) (entry : Flight ε κ α) : Memo ε κ α :=
  { m with known := m.known.set flight entry }

variable [DecidableEq κ]

def empty : Memo ε κ α := ⟨.empty, .empty, []⟩

/-- A new flight. -/
def lead (m : Memo ε κ α) (k : κ) (build : Except ε α) : Memo ε κ α :=
  { m with
    flights := m.flights.put k m.known.length
    known := m.known ++ [⟨k, build, .building⟩] }

/-- A caller looks a key up. -/
def lookup (m : Memo ε κ α) (k : κ) (build : Except ε α) : Lookup α × Memo ε κ α :=
  match m.store.ready.get? k with
  | some value => (.ready value, { m with store := m.store.touch k })
  | none =>
    match m.flights.get? k with
    | some flight => (.wait flight, m)
    | none => (.lead m.known.length, m.lead k build)

/-- The flight leaves the index, and a value goes into the store. -/
def settle (capacity : ℕ) (m : Memo ε κ α) (k : κ) : Except ε α → Option (Memo ε κ α)
  | .error _ => some { m with flights := m.flights.deleteWhere fun key => decide (key = k) }
  | .ok value =>
    (m.store.insert capacity k value).map fun store =>
      { m with store, flights := m.flights.deleteWhere fun key => decide (key = k) }

/-- The next step of a flight; nothing where it is through. -/
def advance (capacity : ℕ) (m : Memo ε κ α) (flight : ℕ) : Option (Memo ε κ α) :=
  match m.known[flight]? with
  | some ⟨k, build, .building⟩ => some (m.setFlight flight ⟨k, build, .built⟩)
  | some ⟨k, build, .built⟩ =>
    (m.settle capacity k build).map (·.setFlight flight ⟨k, build, .settled⟩)
  | some ⟨k, build, .settled⟩ => some (m.setFlight flight ⟨k, build, .stored⟩)
  | some ⟨k, build, .stored⟩ => some (m.setFlight flight ⟨k, build, .notified⟩)
  | _ => none

/-- The key that asking moves to the back of the store. -/
def hit (m : Memo ε κ α) (k : κ) : List κ := if m.store.ready.contains k then [k] else []

/-- The key that the next step of a flight brings into the store. -/
def brought (m : Memo ε κ α) (flight : ℕ) : List κ :=
  match m.known[flight]? with
  | some ⟨k, .ok _, .built⟩ => [k]
  | _ => []

/-! ### What the steps do -/

variable {capacity : ℕ} {m m' : Memo ε κ α} {k : κ} {flight : ℕ}

theorem lookup_cases (m : Memo ε κ α) (k : κ) (build : Except ε α) :
    (∃ value, m.store.ready.get? k = some value ∧ m.hit k = [k]
        ∧ m.lookup k build = (.ready value, { m with store := m.store.touch k }))
      ∨ m.store.ready.get? k = none ∧ m.hit k = []
        ∧ ((∃ flight, m.flights.get? k = some flight ∧ m.lookup k build = (.wait flight, m))
          ∨ m.flights.get? k = none
            ∧ m.lookup k build = (.lead m.known.length, m.lead k build)) := by
  cases hready : m.store.ready.get? k with
  | some value =>
    exact .inl ⟨value, rfl, by simp [hit, Table.contains, hready], by simp [lookup, hready]⟩
  | none =>
    refine .inr ⟨rfl, by simp [hit, Table.contains, hready], ?_⟩
    cases hflight : m.flights.get? k with
    | some flight => exact .inl ⟨flight, rfl, by simp [lookup, hready, hflight]⟩
    | none => exact .inr ⟨rfl, by simp [lookup, hready, hflight]⟩

theorem known_settle {build : Except ε α} (h : m.settle capacity k build = some m') :
    m'.known = m.known := by
  cases build with
  | error e => rw [← Option.some.inj h]
  | ok value =>
    obtain ⟨store, -, rfl⟩ := Option.map_eq_some_iff.mp h
    rfl

/-- Everything the next step of a flight can be: it goes ahead by one, and where its builder has
returned the result is entered. -/
theorem advance_cases (h : m.advance capacity flight = some m') :
    ∃ key build phase phase', m.known[flight]? = some ⟨key, build, phase⟩
      ∧ phase.left = phase'.left + 1
      ∧ m'.known = m.known.set flight ⟨key, build, phase'⟩
      ∧ (phase ≠ .built ∧ m.brought flight = [] ∧ m' = m.setFlight flight ⟨key, build, phase'⟩
        ∨ phase = .built ∧ ∃ settled, m.settle capacity key build = some settled
          ∧ m' = settled.setFlight flight ⟨key, build, phase'⟩) := by
  unfold advance at h
  split at h
  next key build hknown =>
    rw [← Option.some.inj h]
    exact ⟨key, build, _, .built, hknown, rfl, rfl, .inl ⟨by decide, by simp [brought, hknown], rfl⟩⟩
  next key build hknown =>
    obtain ⟨settled, hsettled, rfl⟩ := Option.map_eq_some_iff.mp h
    refine ⟨key, build, _, .settled, hknown, rfl, ?_, .inr ⟨rfl, settled, hsettled, rfl⟩⟩
    rw [setFlight, known_settle hsettled]
  next key build hknown =>
    rw [← Option.some.inj h]
    exact ⟨key, build, _, .stored, hknown, rfl, rfl, .inl ⟨by decide, by simp [brought, hknown], rfl⟩⟩
  next key build hknown =>
    rw [← Option.some.inj h]
    exact ⟨key, build, _, .notified, hknown, rfl, rfl, .inl ⟨by decide, by simp [brought, hknown], rfl⟩⟩
  · cases h

theorem later_advance (h : m.advance capacity flight = some m') : Later m.known m'.known := by
  obtain ⟨key, build, phase, phase', hknown, hleft, hset, -⟩ := advance_cases h
  rw [hset]
  exact later_set hknown (by omega)

/-- All steps ahead of all flights. -/
def left (m : Memo ε κ α) : ℕ := (m.known.map fun flight => flight.phase.left).sum

theorem left_lead (m : Memo ε κ α) (k : κ) (build : Except ε α) :
    (m.lead k build).left = m.left + 4 := by
  simp [left, lead, Phase.left]

theorem left_advance (h : m.advance capacity flight = some m') : m'.left + 1 = m.left := by
  obtain ⟨key, build, phase, phase', hknown, hleft, hset, -⟩ := advance_cases h
  have hbefore : (m.known.map fun flight => flight.phase.left)[flight]? = some phase.left := by
    rw [List.getElem?_map, hknown]
    rfl
  have hsum := List.sum_set_add hbefore phase'.left
  rw [left, left, hset, List.map_set]
  show (List.set _ _ phase'.left).sum + 1 = _
  omega

end Memo

/-! ### The invariant -/

section Invariant

variable [DecidableEq κ]

/-- Flights in the index are still to be entered, and what is kept was built. -/
structure Sound (capacity : ℕ) (uses : List κ) (m : Memo ε κ α) : Prop where
  kept : m.store.Kept capacity uses
  /-- The index holds the flights that are still to be entered. -/
  open_iff : ∀ k f, m.flights.get? k = some f
    ↔ ∃ build phase, m.known[f]? = some ⟨k, build, phase⟩ ∧ 2 < phase.left
  apart : ∀ k f, m.flights.get? k = some f → m.store.ready.get? k = none
  /-- What is kept is what a flight of the key has built. -/
  built : ∀ k v, m.store.ready.get? k = some v →
    ∃ (f : ℕ) (phase : Phase), m.known[f]? = some ⟨k, .ok v, phase⟩ ∧ phase.left ≤ 2

namespace Sound

variable {capacity : ℕ} {uses : List κ} {m m' : Memo ε κ α} {k : κ} {flight : ℕ}

theorem empty : Sound capacity [] (Memo.empty : Memo ε κ α) where
  kept := Lru.kept_empty
  open_iff k f := by simp [Memo.empty]
  apart k f h := by simp [Memo.empty] at h
  built k v h := by simp [Memo.empty, Lru.empty] at h

section

variable (h : Sound capacity uses m)

include h

/-- **At no time are two flights under way for one key.** -/
theorem unique {f f' : ℕ} {build build' : Except ε α} {phase phase' : Phase}
    (hf : m.known[f]? = some ⟨k, build, phase⟩) (hopen : 2 < phase.left)
    (hf' : m.known[f']? = some ⟨k, build', phase'⟩) (hopen' : 2 < phase'.left) : f = f' := by
  have hfirst := (h.open_iff k f).mpr ⟨build, phase, hf, hopen⟩
  have hsecond := (h.open_iff k f').mpr ⟨build', phase', hf', hopen'⟩
  exact Option.some.inj (hfirst.symm.trans hsecond)

theorem lookup (k : κ) (build : Except ε α) :
    Sound capacity (uses ++ m.hit k) (m.lookup k build).2 := by
  rcases m.lookup_cases k build with ⟨value, hready, hhit, hlookup⟩
    | ⟨hready, hhit, ⟨flight, -, hlookup⟩ | ⟨hflight, hlookup⟩⟩
  · rw [hlookup, hhit]
    exact ⟨h.kept.touch (Table.contains_iff.mpr ⟨value, hready⟩), h.open_iff, h.apart, h.built⟩
  · rw [hlookup, hhit, List.append_nil]
    exact h
  · rw [hlookup, hhit, List.append_nil]
    have hnew : (m.known ++ [⟨k, build, .building⟩])[m.known.length]? = some ⟨k, build, .building⟩ :=
      List.getElem?_concat_length
    refine ⟨h.kept, fun key f => ?_, fun key f hget => ?_, fun key v hget => ?_⟩
    · show (m.flights.put k m.known.length).get? key = some f
        ↔ ∃ build' phase, (m.known ++ [⟨k, build, .building⟩])[f]? = some ⟨key, build', phase⟩
          ∧ 2 < phase.left
      rw [Table.get?_put]
      by_cases hf : f = m.known.length
      · subst hf
        have hnone : m.flights.get? key ≠ some m.known.length := by
          intro hget
          obtain ⟨build', phase, hphase, -⟩ := (h.open_iff key _).mp hget
          simp at hphase
        rw [hnew]
        by_cases hkey : key = k
        · simp [hkey, Phase.left]
        · simp [hkey, hnone, Ne.symm hkey]
      · have hold : (m.known ++ [⟨k, build, .building⟩])[f]? = m.known[f]? := by
          rw [List.getElem?_append]
          by_cases hlt : f < m.known.length
          · rw [if_pos hlt]
          · rw [if_neg hlt, List.getElem?_eq_none (Nat.le_of_not_lt hlt), List.getElem?_eq_none]
            rw [List.length_singleton]
            omega
        rw [hold, ← h.open_iff]
        by_cases hkey : key = k
        · simp [hkey, hflight, Ne.symm hf]
        · rw [if_neg hkey]
    · replace hget : (m.flights.put k m.known.length).get? key = some f := hget
      rw [Table.get?_put] at hget
      split at hget
      next hkey => rw [hkey]; exact hready
      · exact h.apart key f hget
    · obtain ⟨f, phase, hf, hclosed⟩ := h.built key v hget
      obtain ⟨phase', hf', hless⟩ := later_concat m.known ⟨k, build, .building⟩ f _ _ _ hf
      exact ⟨f, phase', hf', hless.trans hclosed⟩

theorem settle (hpos : 0 < capacity) {build : Except ε α}
    (hflight : m.known[flight]? = some ⟨k, build, .built⟩) :
    ∃ store, m.settle capacity k build = some { m with
        store, flights := m.flights.deleteWhere fun key => decide (key = k) }
      ∧ store.Kept capacity (uses ++ m.brought flight)
      ∧ ∀ key v, store.ready.get? key = some v →
        key = k ∧ build = .ok v ∨ m.store.ready.get? key = some v := by
  cases build with
  | error e =>
    refine ⟨m.store, rfl, ?_, fun key v hget => .inr hget⟩
    simpa [Memo.brought, hflight] using h.kept
  | ok value =>
    have hfresh : m.store.ready.contains k = false := by
      rw [Table.contains, h.apart k flight ((h.open_iff k flight).mpr ⟨_, _, hflight, by decide⟩)]
      rfl
    obtain ⟨store, hstore, hkept, hget, hothers⟩ := h.kept.insert hpos hfresh value
    refine ⟨store, by rw [Memo.settle, hstore]; rfl, ?_, fun key v hv => ?_⟩
    · simpa [Memo.brought, hflight] using hkept
    · by_cases hkey : key = k
      · subst hkey
        rw [hget] at hv
        exact .inl ⟨rfl, congrArg Except.ok (Option.some.inj hv)⟩
      · exact .inr (hothers key v hv hkey)

/-- **Every step of a flight keeps the invariant.** -/
theorem advance (hpos : 0 < capacity) (hstep : m.advance capacity flight = some m') :
    Sound capacity (uses ++ m.brought flight) m' := by
  obtain ⟨key, build, phase, phase', hknown, hleft, hset, hcases⟩ := Memo.advance_cases hstep
  obtain ⟨hlt, -⟩ := List.getElem?_eq_some_iff.mp hknown
  have hbuilt : ∀ k v, m.store.ready.get? k = some v →
      ∃ (f : ℕ) (phase : Phase), m'.known[f]? = some ⟨k, .ok v, phase⟩ ∧ phase.left ≤ 2 := by
    intro k v hget
    obtain ⟨f, old, hf, hclosed⟩ := h.built k v hget
    obtain ⟨new, hf', hless⟩ := Memo.later_advance hstep f k (.ok v) old hf
    exact ⟨f, new, hf', hless.trans hclosed⟩
  -- the flight that moves stands at its own place, the others where they stood
  have hself : ∀ k, (∃ build phase, m'.known[flight]? = some ⟨k, build, phase⟩ ∧ 2 < phase.left)
      ↔ k = key ∧ 2 < phase'.left := by
    intro k
    rw [hset, List.getElem?_set_self hlt]
    constructor
    · rintro ⟨b, p, hb, hp⟩
      cases hb
      exact ⟨rfl, hp⟩
    · rintro ⟨rfl, hp⟩
      exact ⟨build, phase', rfl, hp⟩
  have hothers : ∀ {f : ℕ}, f ≠ flight → m'.known[f]? = m.known[f]? := by
    intro f hf
    rw [hset, List.getElem?_set_ne (Ne.symm hf)]
  have hold : ∀ k, m.flights.get? k = some flight ↔ k = key ∧ 2 < phase.left := by
    intro k
    rw [h.open_iff, hknown]
    constructor
    · rintro ⟨b, p, hb, hp⟩
      cases hb
      exact ⟨rfl, hp⟩
    · rintro ⟨rfl, hp⟩
      exact ⟨build, phase, rfl, hp⟩
  rcases hcases with ⟨hne, hbrought, rfl⟩ | ⟨rfl, settled, hsettle, rfl⟩
  · rw [hbrought, List.append_nil]
    refine ⟨h.kept, fun k f => ?_, h.apart, hbuilt⟩
    show m.flights.get? k = some f ↔ _
    by_cases hf : f = flight
    · subst hf
      rw [hself, hold]
      have hsame : 2 < phase'.left ↔ 2 < phase.left := by
        cases phase <;> simp_all [Phase.left]
      rw [hsame]
    · rw [hothers hf]
      exact h.open_iff k f
  · obtain ⟨store, hsettle', hkept, hstore⟩ := h.settle hpos hknown
    rw [hsettle] at hsettle'
    cases hsettle'
    have hindex : m.flights.get? key = some flight := (hold key).mpr ⟨rfl, by decide⟩
    have hrest : ∀ k f, (m.flights.deleteWhere fun other => decide (other = key)).get? k = some f
        ↔ k ≠ key ∧ m.flights.get? k = some f := by
      intro k f
      rw [Table.get?_deleteWhere]
      by_cases hk : k = key
      · simp [hk]
      · simp [hk]
    refine ⟨hkept, fun k f => ?_, fun k f hget => ?_, fun k v hget => ?_⟩
    · refine (hrest k f).trans ?_
      by_cases hf : f = flight
      · subst hf
        rw [hself, hold]
        have hclosed : ¬ 2 < phase'.left := by
          have hthree : Phase.built.left = 3 := rfl
          omega
        exact iff_of_false (fun hk => hk.1 hk.2.1) (fun hk => hclosed hk.2)
      · rw [hothers hf, ← h.open_iff]
        refine and_iff_right_of_imp fun hget hk => hf ?_
        rw [hk, hindex] at hget
        exact (Option.some.inj hget).symm
    · obtain ⟨hk, hget⟩ := (hrest k f).mp hget
      cases hready : store.ready.get? k with
      | none => exact hready
      | some v =>
        rcases hstore k v hready with ⟨heq, -⟩ | hready
        · exact absurd heq hk
        · rw [h.apart k f hget] at hready
          cases hready
    · rcases hstore k v hget with ⟨rfl, rfl⟩ | hget
      · refine ⟨flight, phase', by rw [hset, List.getElem?_set_self hlt], ?_⟩
        have hthree : Phase.built.left = 3 := rfl
        omega
      · exact hbuilt k v hget

/-- **A flight that is not through can take its next step.** -/
theorem advances (hpos : 0 < capacity) {build : Except ε α} {phase : Phase}
    (hknown : m.known[flight]? = some ⟨k, build, phase⟩) (hleft : 0 < phase.left) :
    ∃ m', m.advance capacity flight = some m' := by
  cases phase with
  | building => exact ⟨_, by rw [Memo.advance, hknown]⟩
  | built =>
    obtain ⟨store, hsettle, -⟩ := h.settle hpos hknown
    exact ⟨_, by simp only [Memo.advance, hknown, hsettle, Option.map_some]; rfl⟩
  | settled => exact ⟨_, by rw [Memo.advance, hknown]⟩
  | stored => exact ⟨_, by rw [Memo.advance, hknown]⟩
  | notified => exact absurd hleft (Nat.lt_irrefl 0)

theorem contains_iff (hroom : uses.dedup.length ≤ capacity) :
    m.store.ready.contains k = true ↔ k ∈ uses := by
  rw [← h.kept.keys, h.kept.lru, List.rtake_of_length_le hroom, List.mem_dedup]

end

end Sound

/-! ### Where all keys fit -/

/-- No key has two flights, and a key whose flight is entered has been used. -/
structure Once (uses : List κ) (m : Memo ε κ α) : Prop where
  keys : (m.known.map Flight.key).Nodup
  used : ∀ flight ∈ m.known, flight.phase.left ≤ 2 → flight.key ∈ uses

namespace Once

variable {capacity : ℕ} {uses : List κ} {m m' : Memo ε κ α} {flight : ℕ}

omit [DecidableEq κ] in
theorem empty : Once [] (Memo.empty : Memo ε κ α) :=
  ⟨List.nodup_nil, fun _ hmem => absurd hmem List.not_mem_nil⟩

theorem lookup (h : Once uses m) (hsound : Sound capacity uses m)
    (hroom : uses.dedup.length ≤ capacity) (k : κ) (build : Except ε α) :
    Once (uses ++ m.hit k) (m.lookup k build).2 := by
  have hmore : ∀ flight ∈ m.known, flight.phase.left ≤ 2 → flight.key ∈ uses ++ m.hit k :=
    fun flight hmem hleft => List.mem_append_left _ (h.used flight hmem hleft)
  rcases m.lookup_cases k build with ⟨value, -, -, hlookup⟩
    | ⟨hready, -, ⟨flight, -, hlookup⟩ | ⟨hflight, hlookup⟩⟩
  · rw [hlookup]
    exact ⟨h.keys, hmore⟩
  · rw [hlookup]
    exact ⟨h.keys, hmore⟩
  · rw [hlookup]
    have hnew : k ∉ m.known.map Flight.key := by
      intro hmem
      obtain ⟨flight, hknown, rfl⟩ := List.mem_map.mp hmem
      by_cases hopen : 2 < flight.phase.left
      · obtain ⟨f, hf⟩ := List.mem_iff_getElem?.mp hknown
        have hget := (hsound.open_iff flight.key f).mpr ⟨flight.build, flight.phase, hf, hopen⟩
        rw [hflight] at hget
        cases hget
      · have hused := (hsound.contains_iff hroom).mpr (h.used flight hknown (Nat.le_of_not_lt hopen))
        rw [Table.contains, hready] at hused
        cases hused
    refine ⟨?_, fun flight hmem hleft => ?_⟩
    · show ((m.known ++ [_]).map Flight.key).Nodup
      rw [List.map_append, List.map_singleton, ← List.concat_eq_append]
      exact h.keys.concat hnew
    · rcases List.mem_append.mp (show flight ∈ m.known ++ [_] from hmem) with hmem | hmem
      · exact hmore flight hmem hleft
      · rw [List.mem_singleton.mp hmem, show Phase.building.left = 4 from rfl] at hleft
        omega

theorem advance (h : Once uses m) (hstep : m.advance capacity flight = some m')
    (hok : ∀ flight ∈ m.known, ∃ v, flight.build = .ok v) : Once (uses ++ m.brought flight) m' := by
  obtain ⟨key, build, phase, phase', hknown, hleft, hset, -⟩ := Memo.advance_cases hstep
  have hmem := List.mem_of_getElem? hknown
  refine ⟨?_, fun entry hentry hclosed => ?_⟩
  · rw [hset, List.map_set, List.set_of_getElem? (by rw [List.getElem?_map, hknown]; rfl)]
    exact h.keys
  · rw [hset] at hentry
    rcases List.mem_or_eq_of_mem_set hentry with hentry | rfl
    · exact List.mem_append_left _ (h.used entry hentry hclosed)
    · by_cases hopen : 2 < phase.left
      · obtain ⟨v, hv⟩ := hok _ hmem
        have hbuilt : phase = .built := by
          have hnow : phase'.left ≤ 2 := hclosed
          cases phase <;> simp_all [Phase.left]
        have hbuild : build = .ok v := hv
        refine List.mem_append_right _ ?_
        rw [Memo.brought, hknown, hbuilt, hbuild]
        exact List.mem_singleton.mpr rfl
      · have hused := h.used ⟨key, build, phase⟩ hmem (Nat.le_of_not_lt hopen)
        exact List.mem_append_left _ hused

end Once

end Invariant

end SingleFlight
