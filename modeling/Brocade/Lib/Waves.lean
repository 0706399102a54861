/-
Scheduling in waves.

A round picks some of what remains and gives it the next number; what is picked depends on
what remains and on a state carried along.  `Picks` is all that is asked of a round: it picks
something, and what precedes a pick and still remains is picked with it, if the two belong
together.  From that a whole schedule is in order: what precedes an entry never has a later
number, and has the same one only if the two belong together (`schedule_ordered`).
-/
import Mathlib.Data.List.Basic

namespace Waves

variable {α σ : Type} [DecidableEq α]

/-- Number what remains, round by round. -/
def schedule (pick : σ → List α → List α) (next : σ → List α → σ) :
    ℕ → ℕ → σ → List α → List (α × ℕ)
  | 0, _, _, _ => []
  | _ + 1, _, _, [] => []
  | fuel + 1, wave, s, a :: rest =>
    let picked := pick s (a :: rest)
    (picked.map fun b => (b, wave)) ++ schedule pick next fuel (wave + 1) (next s picked)
        ((a :: rest).filter fun b => b ∉ picked)

/-- What a round picks: something of what remains, with all that must come with it. -/
structure Picks (before : α → List α) (together : α → α → Prop) (remaining picked : List α) :
    Prop where
  nonempty : picked ≠ []
  subset : picked ⊆ remaining
  closed : ∀ a ∈ picked, ∀ p ∈ before a, p ∈ remaining → p ∈ picked ∧ together a p

variable {before : α → List α} {together : α → α → Prop}

theorem lookup_picked (picked : List α) (wave : ℕ) (rest : List (α × ℕ)) (a : α) :
    ((picked.map fun b => (b, wave)) ++ rest).lookup a
      = if a ∈ picked then some wave else rest.lookup a := by
  induction picked with
  | nil => simp
  | cons b picked ih =>
    by_cases hab : a = b
    · simp [hab]
    · have hne : (a == b) = false := beq_false_of_ne hab
      simpa [List.lookup_cons, hne, hab] using ih

/-- An entry is numbered, and what precedes it has no later number. -/
structure Ordered (before : α → List α) (together : α → α → Prop) (remaining : List α)
    (waves : List (α × ℕ)) (wave : ℕ) (a : α) : Prop where
  numbered : ∃ w, waves.lookup a = some w ∧ wave ≤ w
  after : ∀ p ∈ before a, p ∈ remaining → ∃ v w, waves.lookup p = some v
    ∧ waves.lookup a = some w ∧ v ≤ w ∧ (v = w → together a p)

/-- **A schedule numbers everything in order.** -/
theorem schedule_ordered {pick : σ → List α → List α} {next : σ → List α → σ} {P : α → Prop}
    (h : ∀ s remaining, (∀ a ∈ remaining, P a) → remaining ≠ [] →
      Picks before together remaining (pick s remaining)) {fuel : ℕ} {wave : ℕ} {s : σ}
    {remaining : List α} (hall : ∀ a ∈ remaining, P a) (hfuel : remaining.length ≤ fuel) :
    ∀ a ∈ remaining,
      Ordered before together remaining (schedule pick next fuel wave s remaining) wave a := by
  induction fuel generalizing wave s remaining with
  | zero =>
    intro a ha
    rw [List.length_eq_zero_iff.mp (Nat.le_zero.mp hfuel)] at ha
    exact absurd ha List.not_mem_nil
  | succ fuel ih =>
    cases remaining with
    | nil => exact fun a ha => absurd ha List.not_mem_nil
    | cons b rest =>
      have hpicks := h s (b :: rest) hall (List.cons_ne_nil b rest)
      let picked := pick s (b :: rest)
      let left := (b :: rest).filter fun c => c ∉ picked
      have hless : left.length ≤ fuel := by
        obtain ⟨c, hc⟩ := List.exists_mem_of_ne_nil picked hpicks.nonempty
        have hlt : left.length < (b :: rest).length := by
          refine List.length_filter_lt_length_iff_exists.mpr ⟨c, hpicks.subset hc, by simp [hc]⟩
        omega
      have hrest := @ih (wave + 1) (next s picked) left
        (fun a ha => hall a (List.mem_of_mem_filter ha)) hless
      intro a ha
      show Ordered before together (b :: rest) ((picked.map fun c => (c, wave))
        ++ schedule pick next fuel (wave + 1) (next s picked) left) wave a
      have hleft : ∀ c ∈ b :: rest, c ∉ picked → c ∈ left := fun c hc hout =>
        List.mem_filter.mpr ⟨hc, by simpa using hout⟩
      by_cases hpicked : a ∈ picked
      · refine ⟨⟨wave, by rw [lookup_picked, if_pos hpicked], Nat.le_refl _⟩, fun p hp hremains => ?_⟩
        obtain ⟨hpp, htogether⟩ := hpicks.closed a hpicked p hp hremains
        exact ⟨wave, wave, by rw [lookup_picked, if_pos hpp],
          by rw [lookup_picked, if_pos hpicked], Nat.le_refl _, fun _ => htogether⟩
      · obtain ⟨⟨w, hw, hle⟩, hafter⟩ := hrest a (hleft a ha hpicked)
        refine ⟨⟨w, by rw [lookup_picked, if_neg hpicked, hw], by omega⟩,
          fun p hp hremains => ?_⟩
        by_cases hpp : p ∈ picked
        · refine ⟨wave, w, by rw [lookup_picked, if_pos hpp],
            by rw [lookup_picked, if_neg hpicked, hw], by omega, fun heq => ?_⟩
          omega
        · obtain ⟨v, w', hv, hw', hvw, htogether⟩ := hafter p hp (hleft p hremains hpp)
          exact ⟨v, w', by rw [lookup_picked, if_neg hpp, hv],
            by rw [lookup_picked, if_neg hpicked, hw'], hvw, htogether⟩

/-! ### Rounds -/

/-- The rounds of a schedule: the state each begins with, and what remains then. -/
def rounds (pick : σ → List α → List α) (next : σ → List α → σ) :
    ℕ → σ → List α → List (σ × List α)
  | 0, _, _ => []
  | _ + 1, _, [] => []
  | fuel + 1, s, a :: rest =>
    let picked := pick s (a :: rest)
    (s, a :: rest) :: rounds pick next fuel (next s picked)
      ((a :: rest).filter fun b => b ∉ picked)

section Rounds

variable {pick : σ → List α → List α} {next : σ → List α → σ}

theorem rounds_subset {fuel : ℕ} : ∀ {s : σ} {remaining : List α} {k : ℕ} {r : σ × List α},
    (rounds pick next fuel s remaining)[k]? = some r → r.2 ≠ [] ∧ r.2 ⊆ remaining := by
  induction fuel with
  | zero => exact fun h => nomatch h
  | succ fuel ih =>
    intro s remaining k r h
    cases remaining with
    | nil => cases h
    | cons a rest =>
      cases k with
      | zero =>
        cases h
        exact ⟨List.cons_ne_nil a rest, List.Subset.refl _⟩
      | succ k =>
        obtain ⟨hne, hsub⟩ := ih h
        exact ⟨hne, fun b hb => List.mem_of_mem_filter (hsub hb)⟩

theorem rounds_zero {fuel : ℕ} {s : σ} {remaining : List α} {r : σ × List α}
    (h : (rounds pick next fuel s remaining)[0]? = some r) : r = (s, remaining) := by
  cases fuel with
  | zero => cases h
  | succ fuel =>
    cases remaining with
    | nil => cases h
    | cons a rest => exact (Option.some.inj h).symm

theorem rounds_succ {fuel : ℕ} : ∀ {s : σ} {remaining : List α} {k : ℕ} {r r' : σ × List α},
    (rounds pick next fuel s remaining)[k]? = some r →
    (rounds pick next fuel s remaining)[k + 1]? = some r' →
      r' = (next r.1 (pick r.1 r.2), r.2.filter fun b => b ∉ pick r.1 r.2) := by
  induction fuel with
  | zero => exact fun h => nomatch h
  | succ fuel ih =>
    intro s remaining k r r' h h'
    cases remaining with
    | nil => cases h
    | cons a rest =>
      cases k with
      | zero =>
        cases h
        exact rounds_zero h'
      | succ k => exact ih h h'

theorem rounds_invariant {I : σ → List α → Prop}
    (hstep : ∀ s remaining, I s remaining → remaining ≠ [] →
      I (next s (pick s remaining)) (remaining.filter fun b => b ∉ pick s remaining))
    {fuel : ℕ} : ∀ {s : σ} {remaining : List α}, I s remaining → ∀ {k : ℕ} {r : σ × List α},
      (rounds pick next fuel s remaining)[k]? = some r → I r.1 r.2 := by
  induction fuel with
  | zero => exact fun _ _ _ h => nomatch h
  | succ fuel ih =>
    intro s remaining hinit k r h
    cases remaining with
    | nil => cases h
    | cons a rest =>
      cases k with
      | zero =>
        cases h
        exact hinit
      | succ k => exact ih (hstep s _ hinit (List.cons_ne_nil a rest)) h

/-- **An entry has a number exactly where a round picked it, and the number is the round's.** -/
theorem lookup_schedule {P : α → Prop} (h : ∀ s remaining, (∀ a ∈ remaining, P a) → remaining ≠ [] →
      Picks before together remaining (pick s remaining)) {fuel : ℕ} :
    ∀ {wave : ℕ} {s : σ} {remaining : List α}, (∀ a ∈ remaining, P a) → ∀ {a : α} {w : ℕ},
      (schedule pick next fuel wave s remaining).lookup a = some w
        ↔ ∃ k r, (rounds pick next fuel s remaining)[k]? = some r ∧ a ∈ pick r.1 r.2
          ∧ w = wave + k := by
  induction fuel with
  | zero =>
    intro wave s remaining _ a w
    simp [schedule, rounds]
  | succ fuel ih =>
    intro wave s remaining hall a w
    cases remaining with
    | nil => simp [schedule, rounds]
    | cons b rest =>
      let picked := pick s (b :: rest)
      let left := (b :: rest).filter fun c => c ∉ picked
      have hleft : ∀ c ∈ left, P c := fun c hc => hall c (List.mem_of_mem_filter hc)
      show ((picked.map fun c => (c, wave))
        ++ schedule pick next fuel (wave + 1) (next s picked) left).lookup a = some w ↔ _
      rw [lookup_picked]
      constructor
      · intro hlookup
        split_ifs at hlookup with hpicked
        · exact ⟨0, (s, b :: rest), rfl, hpicked, (Option.some.inj hlookup).symm⟩
        · obtain ⟨k, r, hr, ha, rfl⟩ := (ih hleft).mp hlookup
          exact ⟨k + 1, r, hr, ha, by omega⟩
      · rintro ⟨k, r, hr, ha, rfl⟩
        cases k with
        | zero =>
          cases hr
          rw [if_pos ha, Nat.add_zero]
        | succ k =>
          -- what a later round picks was left over
          replace hr : (rounds pick next fuel (next s picked) left)[k]? = some r := hr
          have hin : a ∈ left := by
            obtain ⟨hne, hsub⟩ := rounds_subset hr
            exact hsub ((h r.1 r.2 (fun c hc => hleft c (hsub hc)) hne).subset ha)
          have hout : a ∉ picked := by simpa using (List.mem_filter.mp hin).2
          rw [if_neg hout]
          exact (ih hleft).mpr ⟨k, r, hr, ha, by omega⟩

/-- With a round for everything that remains the schedule is complete: more rounds add nothing. -/
theorem schedule_stable {P : α → Prop} (h : ∀ s remaining, (∀ a ∈ remaining, P a) → remaining ≠ [] →
      Picks before together remaining (pick s remaining)) {fuel : ℕ} :
    ∀ {more wave : ℕ} {s : σ} {remaining : List α}, (∀ a ∈ remaining, P a) →
      remaining.length ≤ fuel → fuel ≤ more →
        schedule pick next more wave s remaining = schedule pick next fuel wave s remaining := by
  induction fuel with
  | zero =>
    intro more wave s remaining _ hfuel _
    rw [List.length_eq_zero_iff.mp (Nat.le_zero.mp hfuel)]
    cases more <;> rfl
  | succ fuel ih =>
    intro more wave s remaining hall hfuel hmore
    obtain ⟨more, rfl⟩ : ∃ n, more = n + 1 := ⟨more - 1, by omega⟩
    cases remaining with
    | nil => rfl
    | cons a rest =>
      have hpicks := h s (a :: rest) hall (List.cons_ne_nil a rest)
      have hless : ((a :: rest).filter fun b => b ∉ pick s (a :: rest)).length ≤ fuel := by
        obtain ⟨c, hc⟩ := List.exists_mem_of_ne_nil _ hpicks.nonempty
        have hlt : ((a :: rest).filter fun b => b ∉ pick s (a :: rest)).length
            < (a :: rest).length :=
          List.length_filter_lt_length_iff_exists.mpr ⟨c, hpicks.subset hc, by simp [hc]⟩
        omega
      rw [schedule, schedule]
      rw [ih (fun b hb => hall b (List.mem_of_mem_filter hb)) hless (by omega)]

end Rounds

end Waves
