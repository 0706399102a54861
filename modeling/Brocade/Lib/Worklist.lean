/-
Worklists.

`drain` takes entries off the front of a queue until it is empty; visiting an entry may
queue more behind the rest and changes a state.  It recurses on a fuel, so every result
about it carries a measure that visits strictly decrease: `drain_invariant` is the one
induction, and it says at once that the fuel suffices and that what each visit keeps holds
when the queue is empty.

What a worklist computes is a closure.  `Covers` is the invariant that makes it one:
everything done or pending was reached from the roots, the roots are accounted for, and so
is every successor of what is done.  With nothing pending, what is done is exactly what the
roots reach (`Covers.mem_iff`).

The loops in use differ in when they discard what they have seen.  `explore` discards on
the way out of the queue, `offer` on the way in.
-/
import Mathlib.Algebra.Order.BigOperators.Group.List
import Mathlib.Algebra.GroupWithZero.Nat

namespace Worklist

variable {α σ : Type}

/-- Take one entry after another off the front; what a visit queues goes behind the rest. -/
def drain (visit : α → σ → List α × σ) : ℕ → List α → σ → σ
  | 0, _, s => s
  | _ + 1, [], s => s
  | fuel + 1, a :: queue, s => drain visit fuel (queue ++ (visit a s).1) (visit a s).2

/-- **What every visit keeps holds when the queue is empty.** -/
theorem drain_invariant {visit : α → σ → List α × σ} {I : List α → σ → Prop} {μ : List α → σ → ℕ}
    (hstep : ∀ a queue s, I (a :: queue) s → I (queue ++ (visit a s).1) (visit a s).2
        ∧ μ (queue ++ (visit a s).1) (visit a s).2 < μ (a :: queue) s) {fuel : ℕ} {queue : List α}
    {s : σ} (hfuel : μ queue s ≤ fuel) (h : I queue s) : I [] (drain visit fuel queue s) := by
  induction fuel generalizing queue s with
  | zero =>
    cases queue with
    | nil => exact h
    | cons a queue =>
      have hless := (hstep a queue s h).2
      omega
  | succ fuel ih =>
    cases queue with
    | nil => exact h
    | cons a queue =>
      obtain ⟨hkeep, hless⟩ := hstep a queue s h
      exact ih (by omega) hkeep

theorem drain_keeps {visit : α → σ → List α × σ} {P : σ → Prop}
    (hvisit : ∀ a s, P s → P (visit a s).2) {fuel : ℕ} :
    ∀ {queue : List α} {s : σ}, P s → P (drain visit fuel queue s) := by
  induction fuel with
  | zero => exact fun h => h
  | succ fuel ih =>
    intro queue s h
    cases queue with
    | nil => exact h
    | cons a queue => exact ih (hvisit a s h)

/-! ### Closures -/

variable (succ : α → List α)

/-- `b` is reached from `a` along successors. -/
def Reaches : α → α → Prop :=
  Relation.ReflTransGen fun a b => b ∈ succ a

/-- `a` is reached from one of the roots. -/
def From (roots : List α) (a : α) : Prop :=
  ∃ r ∈ roots, Reaches succ r a

variable {succ} {roots : List α}

theorem From.of_root {a : α} (h : a ∈ roots) : From succ roots a :=
  ⟨a, h, .refl⟩

theorem From.congr {roots' : List α} (h : ∀ r, r ∈ roots ↔ r ∈ roots') {a : α} :
    From succ roots a ↔ From succ roots' a :=
  exists_congr fun r => and_congr_left' (h r)

theorem From.step {a b : α} (h : From succ roots a) (hab : b ∈ succ a) : From succ roots b := by
  obtain ⟨r, hr, hra⟩ := h
  exact ⟨r, hr, hra.tail hab⟩

/-- A search part of the way: what is done, what is pending, and nothing forgotten. -/
structure Covers (succ : α → List α) (roots pending done : List α) : Prop where
  sound : ∀ a, a ∈ pending ∨ a ∈ done → From succ roots a
  rooted : ∀ r ∈ roots, r ∈ pending ∨ r ∈ done
  closed : ∀ a ∈ done, ∀ b ∈ succ a, b ∈ pending ∨ b ∈ done

namespace Covers

variable {pending done : List α}

theorem initial : Covers succ roots roots [] where
  sound _ h := .of_root (h.resolve_right List.not_mem_nil)
  rooted _ h := .inl h
  closed _ h := absurd h List.not_mem_nil

theorem skip {a : α} (h : Covers succ roots (a :: pending) done) (ha : a ∈ done) :
    Covers succ roots pending done where
  sound b hb := h.sound b (hb.imp_left (List.mem_cons_of_mem a))
  rooted r hr := by
    rcases h.rooted r hr with hpending | hdone
    · rcases List.mem_cons.mp hpending with rfl | hpending
      · exact .inr ha
      · exact .inl hpending
    · exact .inr hdone
  closed b hb c hc := by
    rcases h.closed b hb c hc with hpending | hdone
    · rcases List.mem_cons.mp hpending with rfl | hpending
      · exact .inr ha
      · exact .inl hpending
    · exact .inr hdone

theorem take {a : α} {fresh : List α} (h : Covers succ roots (a :: pending) done)
    (hfresh : ∀ b ∈ fresh, b ∈ succ a)
    (hall : ∀ b ∈ succ a, b ∈ pending ++ fresh ∨ b ∈ done ++ [a]) :
    Covers succ roots (pending ++ fresh) (done ++ [a]) := by
  have ha : From succ roots a := h.sound a (.inl List.mem_cons_self)
  have hkept : ∀ b, b ∈ a :: pending ∨ b ∈ done → b ∈ pending ++ fresh ∨ b ∈ done ++ [a] := by
    intro b hb
    rcases hb with hb | hb
    · rcases List.mem_cons.mp hb with rfl | hb
      · exact .inr (by simp)
      · exact .inl (List.mem_append_left _ hb)
    · exact .inr (List.mem_append_left _ hb)
  refine ⟨?_, fun r hr => hkept r (h.rooted r hr), ?_⟩
  · intro b hb
    rcases hb with hb | hb
    · rcases List.mem_append.mp hb with hb | hb
      · exact h.sound b (.inl (List.mem_cons_of_mem a hb))
      · exact ha.step (hfresh b hb)
    · rcases List.mem_append.mp hb with hb | hb
      · exact h.sound b (.inr hb)
      · rwa [List.mem_singleton.mp hb]
  · intro b hb c hc
    rcases List.mem_append.mp hb with hb | hb
    · exact hkept c (h.closed b hb c hc)
    · rw [List.mem_singleton.mp hb] at hc
      exact hall c hc

/-- **With nothing pending, what is done is what the roots reach.** -/
theorem mem_iff (h : Covers succ roots [] done) (a : α) : a ∈ done ↔ From succ roots a := by
  refine ⟨fun ha => h.sound a (.inr ha), ?_⟩
  rintro ⟨r, hr, hra⟩
  induction hra with
  | refl => exact (h.rooted r hr).resolve_left List.not_mem_nil
  | tail _ hbc ih => exact (h.closed _ ih _ hbc).resolve_left List.not_mem_nil

end Covers

/-! ### Discarding on the way out -/

variable {τ : Type} [DecidableEq α]

/-- One visit of `explore`: what was seen before is dropped, anything else is noted and its
successors queued. -/
def visit (succ : α → List α) (note : τ → α → τ) (a : α) (s : List α × τ) :
    List α × (List α × τ) :=
  if a ∈ s.1 then ([], s) else (succ a, s.1 ++ [a], note s.2 a)

/-- How many visits a search can take: its roots, and the successors of everything that has
any. -/
def budget (succ : α → List α) (dom roots : List α) : ℕ :=
  roots.length + (dom.map fun a => (succ a).length).sum

/-- Everything the roots reach in the order it is first met, and what was noted on the way.
`dom` lists the entries that may have successors. -/
def explore (succ : α → List α) (note : τ → α → τ) (dom roots : List α) (t : τ) :
    List α × τ :=
  drain (visit succ note) (budget succ dom roots) roots ([], t)

/-- What is left to queue once `seen` is done with. -/
private def slack (succ : α → List α) (dom seen : List α) : ℕ :=
  ((dom.filter (· ∉ seen)).map fun a => (succ a).length).sum

private theorem slack_cons (b : α) (dom seen : List α) :
    slack succ (b :: dom) seen = (if b ∈ seen then 0 else (succ b).length) + slack succ dom seen := by
  unfold slack
  by_cases hb : b ∈ seen <;> simp [hb]

private theorem slack_take {dom seen : List α} {a : α} (hdom : ∀ a, succ a ≠ [] → a ∈ dom)
    (ha : a ∉ seen) : (succ a).length + slack succ dom (seen ++ [a]) ≤ slack succ dom seen := by
  have hcount : ∀ dom : List α,
      (if a ∈ dom then (succ a).length else 0) + slack succ dom (seen ++ [a])
        ≤ slack succ dom seen := by
    intro dom
    induction dom with
    | nil => simp [slack]
    | cons b dom ih =>
      rw [slack_cons, slack_cons]
      by_cases hba : b = a
      · subst hba
        simp only [List.mem_cons, List.mem_append, ha, true_or, or_true, if_true, if_false]
        split at ih <;> omega
      · simp only [List.mem_cons, List.mem_append, Ne.symm hba, hba, List.not_mem_nil, or_false,
          false_or]
        omega
  by_cases hsucc : succ a = []
  · have h := hcount dom
    rw [hsucc] at h ⊢
    simpa using h
  · simpa [hdom a hsucc] using hcount dom

/-- **The search finds what the roots reach**, and notes each entry of it once. -/
theorem explore_spec {note : τ → α → τ} {dom : List α} {t : τ} (hdom : ∀ a, succ a ≠ [] → a ∈ dom) :
    (∀ a, a ∈ (explore succ note dom roots t).1 ↔ From succ roots a)
      ∧ (explore succ note dom roots t).1.Nodup
      ∧ (explore succ note dom roots t).2 = (explore succ note dom roots t).1.foldl note t := by
  let I := fun (queue : List α) (s : List α × τ) =>
    Covers succ roots queue s.1 ∧ s.1.Nodup ∧ s.2 = s.1.foldl note t
  have h : I [] (explore succ note dom roots t) :=
    drain_invariant (I := I) (μ := fun queue s => queue.length + slack succ dom s.1) ?_ ?_
      ⟨.initial, List.nodup_nil, rfl⟩
  · exact ⟨h.1.mem_iff, h.2⟩
  · rintro a queue ⟨seen, noted⟩ ⟨hcovers, hnodup, hnoted⟩
    unfold visit
    by_cases ha : a ∈ seen
    · rw [if_pos ha]
      refine ⟨⟨by simpa using hcovers.skip ha, hnodup, hnoted⟩, ?_⟩
      simp
    · rw [if_neg ha]
      have hless := slack_take hdom ha
      refine ⟨⟨hcovers.take (fun _ hb => hb) ?_, ?_, ?_⟩, ?_⟩
      · exact fun b hb => .inl (List.mem_append_right _ hb)
      · exact List.nodup_append.mpr ⟨hnodup, by simp, by
          intro b hb c hc
          rw [List.mem_singleton.mp hc]
          exact fun h => ha (h ▸ hb)⟩
      · rw [List.foldl_append, ← hnoted]
        rfl
      · simp only [List.length_append, List.length_cons]
        omega
  · have hfilter : dom.filter (· ∉ ([] : List α)) = dom := by simp
    show roots.length + slack succ dom [] ≤ budget succ dom roots
    rw [slack, hfilter, budget]

theorem mem_explore {note : τ → α → τ} {dom : List α} {t : τ} (hdom : ∀ a, succ a ≠ [] → a ∈ dom)
    (a : α) : a ∈ (explore succ note dom roots t).1 ↔ From succ roots a :=
  (explore_spec hdom).1 a

/-! ### Discarding on the way in -/

/-- Queue the targets not seen before, each once: what is new, and what is seen with it. -/
def offer (targets seen : List α) : List α × List α :=
  targets.foldl (fun acc a => if a ∈ acc.2 then acc else (acc.1 ++ [a], acc.2 ++ [a])) ([], seen)

/-- What `offer` queues: targets that are new, each once, and all of them. -/
structure Offered (targets seen : List α) (offered : List α × List α) : Prop where
  grown : offered.2 = seen ++ offered.1
  fresh : ∀ a ∈ offered.1, a ∈ targets ∧ a ∉ seen
  nodup : offered.1.Nodup
  all : ∀ a ∈ targets, a ∈ offered.2

theorem offer_spec (targets seen : List α) : Offered targets seen (offer targets seen) := by
  have hfold : ∀ (before after : List α) (acc : List α × List α), Offered before seen acc →
      Offered (before ++ after) seen (after.foldl
        (fun acc a => if a ∈ acc.2 then acc else (acc.1 ++ [a], acc.2 ++ [a])) acc) := by
    intro before after
    induction after generalizing before with
    | nil =>
      intro acc h
      simpa using h
    | cons a after ih =>
      intro acc h
      rw [List.foldl_cons, ← List.singleton_append, ← List.append_assoc]
      refine ih (before ++ [a]) _ ?_
      by_cases ha : a ∈ acc.2
      · rw [if_pos ha]
        refine ⟨h.grown, fun b hb => ?_, h.nodup, fun b hb => ?_⟩
        · exact ⟨List.mem_append_left _ (h.fresh b hb).1, (h.fresh b hb).2⟩
        · rcases List.mem_append.mp hb with hb | hb
          · exact h.all b hb
          · rwa [List.mem_singleton.mp hb]
      · rw [if_neg ha]
        have hseen : a ∉ seen ∧ a ∉ acc.1 := by
          rw [h.grown, List.mem_append, not_or] at ha
          exact ha
        refine ⟨by rw [h.grown, List.append_assoc], fun b hb => ?_, ?_, fun b hb => ?_⟩
        · rcases List.mem_append.mp hb with hb | hb
          · exact ⟨List.mem_append_left _ (h.fresh b hb).1, (h.fresh b hb).2⟩
          · rw [List.mem_singleton.mp hb]
            exact ⟨by simp, hseen.1⟩
        · refine List.nodup_append.mpr ⟨h.nodup, by simp, fun b hb c hc => ?_⟩
          rw [List.mem_singleton.mp hc]
          exact fun heq => hseen.2 (heq ▸ hb)
        · rcases List.mem_append.mp hb with hb | hb
          · exact List.mem_append_left _ (h.all b hb)
          · exact List.mem_append_right _ hb
  have hnone : Offered [] seen ([], seen) :=
    ⟨by simp, fun _ h => absurd h List.not_mem_nil, List.nodup_nil,
      fun _ h => absurd h List.not_mem_nil⟩
  exact hfold [] targets ([], seen) hnone

theorem offer_measure {targets candidates seen : List α} (h : ∀ a ∈ targets, a ∈ candidates) :
    (offer targets seen).1.length
        + (candidates.filter (· ∉ (offer targets seen).2)).length
      ≤ (candidates.filter (· ∉ seen)).length := by
  obtain ⟨hgrown, hfresh, hnodup, -⟩ := offer_spec targets seen
  have hsplit : (candidates.filter (· ∉ seen)).length
      = ((candidates.filter (· ∉ seen)).filter (· ∈ (offer targets seen).1)).length
        + ((candidates.filter (· ∉ seen)).filter (· ∉ (offer targets seen).1)).length := by
    have h := List.length_eq_length_filter_add
      (l := candidates.filter (· ∉ seen)) (fun a => decide (a ∈ (offer targets seen).1))
    simpa using h
  have hrest : (candidates.filter (· ∉ seen)).filter (· ∉ (offer targets seen).1)
      = candidates.filter (· ∉ (offer targets seen).2) := by
    rw [List.filter_filter]
    refine List.filter_congr fun a _ => ?_
    rw [hgrown, ← Bool.decide_and, decide_eq_decide, List.mem_append]
    tauto
  have hsub : (offer targets seen).1.length
      ≤ ((candidates.filter (· ∉ seen)).filter (· ∈ (offer targets seen).1)).length := by
    refine List.Subperm.length_le (List.subperm_of_subset hnodup fun a ha => ?_)
    obtain ⟨htarget, hseen⟩ := hfresh a ha
    simp [h a htarget, hseen, ha]
  rw [hsplit, hrest]
  omega

/-- A visit that passes over what is done or not known, and else queues what it has not seen. -/
structure Offers (succ : α → List α) (known : α → Prop) (visit : α → σ → List α × σ)
    (seen done : σ → List α) : Prop where
  passed : ∀ a s, a ∈ done s ∨ ¬known a → (visit a s).1 = [] ∧ seen (visit a s).2 = seen s
    ∧ done (visit a s).2 = done s
  taken : ∀ a s, a ∉ done s → known a → ((visit a s).1, seen (visit a s).2) = offer (succ a) (seen s)
    ∧ done (visit a s).2 = done s ++ [a]

/-- **What is done when the queue is empty is what is known of all the roots reach**, and a fuel for
every root and every candidate suffices. -/
theorem Offers.mem_done {known : α → Prop} {visit : α → σ → List α × σ} {seen done : σ → List α}
    (h : Offers succ known visit seen done) (hknown : ∀ a, ¬known a → succ a = [])
    {candidates : List α} (hcandidates : ∀ a, ∀ b ∈ succ a, b ∈ candidates) {fuel : ℕ}
    (hfuel : roots.length + candidates.length ≤ fuel) {s : σ} (hseen : seen s = roots)
    (hdone : done s = []) (a : α) :
    a ∈ done (drain visit fuel roots s) ↔ known a ∧ From succ roots a := by
  -- beside what is done, what was passed over as unknown is through
  let I := fun (queue : List α) (s : σ) => ∃ through, Covers succ roots queue through
    ∧ (∀ b, b ∈ seen s ↔ b ∈ queue ∨ b ∈ through) ∧ ∀ b, b ∈ done s ↔ b ∈ through ∧ known b
  have hstart : I roots s :=
    ⟨[], .initial, by simp [hseen], by simp [hdone]⟩
  have hend : I [] (drain visit fuel roots s) := by
    refine drain_invariant (I := I)
      (μ := fun queue s => queue.length + (candidates.filter (· ∉ seen s)).length) ?_ ?_ hstart
    · rintro b queue s ⟨through, hcovers, hsees, hdoes⟩
      by_cases hpassed : b ∈ done s ∨ ¬known b
      · obtain ⟨hnone, hsame, hsame'⟩ := h.passed b s hpassed
        rw [hnone, hsame, List.append_nil]
        refine ⟨?_, by simp⟩
        by_cases hthrough : b ∈ through
        · refine ⟨through, hcovers.skip hthrough, fun c => ?_, fun c => by rw [hsame', hdoes]⟩
          rw [hsame, hsees, List.mem_cons]
          constructor
          · rintro ((rfl | hc) | hc)
            exacts [.inr hthrough, .inl hc, .inr hc]
          · exact fun hc => hc.imp_left .inr
        · have hunknown : ¬known b :=
            hpassed.resolve_left fun hb => hthrough ((hdoes b).mp hb).1
          have htaken : Covers succ roots (queue ++ []) (through ++ [b]) :=
            hcovers.take (by simp) (by simp [hknown b hunknown])
          rw [List.append_nil] at htaken
          refine ⟨through ++ [b], htaken, fun c => ?_, fun c => ?_⟩
          · rw [hsame, hsees, List.mem_cons, List.mem_append, List.mem_singleton]
            tauto
          · rw [hsame', hdoes, List.mem_append, List.mem_singleton]
            constructor
            · exact fun hc => ⟨.inl hc.1, hc.2⟩
            · rintro ⟨hc | rfl, hof⟩
              exacts [⟨hc, hof⟩, absurd hof hunknown]
      · rw [not_or, not_not] at hpassed
        obtain ⟨hoffered, hmade⟩ := h.taken b s hpassed.1 hpassed.2
        have hspec := offer_spec (succ b) (seen s)
        have hless : (offer (succ b) (seen s)).1.length
            + (candidates.filter (· ∉ (offer (succ b) (seen s)).2)).length
            ≤ (candidates.filter (· ∉ seen s)).length := offer_measure (hcandidates b)
        rw [← hoffered] at hspec hless
        dsimp only at hless
        have hgrown : seen (visit b s).2 = seen s ++ (visit b s).1 := hspec.grown
        have hsees' : ∀ c, c ∈ seen (visit b s).2 ↔
            c ∈ queue ++ (visit b s).1 ∨ c ∈ through ++ [b] := by
          intro c
          rw [hgrown, List.mem_append, hsees, List.mem_cons, List.mem_append, List.mem_append,
            List.mem_singleton]
          tauto
        refine ⟨⟨through ++ [b], hcovers.take (fun c hc => (hspec.fresh c hc).1)
          fun c hc => (hsees' c).mp (hspec.all c hc), hsees', fun c => ?_⟩, ?_⟩
        · rw [hmade, List.mem_append, hdoes, List.mem_singleton, List.mem_append,
            List.mem_singleton]
          constructor
          · rintro (hc | rfl)
            exacts [⟨.inl hc.1, hc.2⟩, ⟨.inr rfl, hpassed.2⟩]
          · exact fun hc => hc.1.imp (fun hold => ⟨hold, hc.2⟩) id
        · rw [List.length_append, List.length_cons]
          omega
    · exact (Nat.add_le_add_left (List.length_filter_le _ _) _).trans hfuel
  obtain ⟨through, hcovers, -, hdoes⟩ := hend
  rw [hdoes, hcovers.mem_iff, and_comm]

end Worklist
