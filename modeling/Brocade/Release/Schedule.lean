/-
What the numbering of waves promises of every list of targets.

Names may repeat, refer to themselves, to each other in circles or to nothing: a name means the
last target that has it, and an edge runs between the places of two targets that are given a
wave.  The numbering ends, gives exactly those targets a number, leaves no number out and follows
the edges.  A wave that is no circle of edges is careful: the first that applies an xray and each
that costs connections take one machine (`assignWaves_correct`).
-/
import Brocade.Release.Waves

namespace Brocade.Release

variable {targets : List PlannedTarget}

/-! ### Edges -/

/-- A place is a prerequisite of another one. -/
def Edge (targets : List PlannedTarget) (earlier later : ℕ) : Prop :=
  later ∈ orderedTargets targets ∧ earlier ∈ incoming targets later

/-- Two places that are each before the other, by way of edges. -/
def OneCircle (targets : List PlannedTarget) (a b : ℕ) : Prop :=
  Relation.ReflTransGen (Edge targets) a b ∧ Relation.ReflTransGen (Edge targets) b a

variable {index a b k : ℕ} {remaining : List ℕ} {target : PlannedTarget}

theorem mem_orderedTargets : index ∈ orderedTargets targets
    ↔ ∃ target, targets[index]? = some target ∧ target.ordered = true := by
  simp only [orderedTargets, List.mem_map, List.mem_filter, Prod.exists]
  constructor
  · rintro ⟨target, _, ⟨hmem, hordered⟩, rfl⟩
    exact ⟨target, List.mem_zipIdx_iff_getElem?.mp hmem, hordered⟩
  · rintro ⟨target, hget, hordered⟩
    exact ⟨target, index, ⟨List.mem_zipIdx_iff_getElem?.mpr hget, hordered⟩, rfl⟩

theorem incoming_ordered {earlier later : ℕ} (h : earlier ∈ incoming targets later) :
    earlier ∈ orderedTargets targets := by
  simpa using (List.mem_filter.mp h).2

theorem mem_outgoing :
    b ∈ outgoing targets remaining a ↔ a ∈ remaining ∧ b ∈ remaining ∧ a ∈ incoming targets b := by
  unfold outgoing
  split_ifs with ha
  · simp [ha]
  · simp [ha]

/-- What remains are targets with a wave, and whatever one of them precedes. -/
structure Open (targets : List PlannedTarget) (remaining : List ℕ) : Prop where
  subset : ∀ index ∈ remaining, index ∈ orderedTargets targets
  closed : ∀ earlier ∈ remaining, ∀ later, Edge targets earlier later → later ∈ remaining

theorem open_all : Open targets (orderedTargets targets) :=
  ⟨fun _ h => h, fun _ _ _ hedge => hedge.1⟩

theorem edge_of_outgoing (hsub : ∀ index ∈ remaining, index ∈ orderedTargets targets)
    (h : b ∈ outgoing targets remaining a) : Edge targets a b :=
  ⟨hsub b (mem_outgoing.mp h).2.1, (mem_outgoing.mp h).2.2⟩

theorem chain_of_reaches (hsub : ∀ index ∈ remaining, index ∈ orderedTargets targets)
    (h : Worklist.Reaches (outgoing targets remaining) a b) :
    Relation.ReflTransGen (Edge targets) a b := by
  induction h with
  | refl => exact .refl
  | tail _ hlast ih => exact ih.tail (edge_of_outgoing hsub hlast)

/-! ### One round -/

section Round

variable {canary : Bool} {remaining : List ℕ}

/-- What waits for nothing that remains. -/
def readyTargets (targets : List PlannedTarget) (remaining : List ℕ) : List ℕ :=
  remaining.filter fun index => (incoming targets index).all fun prerequisite => prerequisite ∉ remaining

/-- What of it costs no connections. -/
def regularTargets (targets : List PlannedTarget) (remaining : List ℕ) : List ℕ :=
  (readyTargets targets remaining).filter fun index => !targets[index]?.any (·.highRisk)

/-- **What a round picks**: a circle where nothing is ready, else one target or, once the canary
is over, all that cost no connections. -/
theorem selectWave_cases (targets : List PlannedTarget) (canary : Bool) (remaining : List ℕ) :
    (readyTargets targets remaining = []
        ∧ selectWave targets canary remaining = sourceDependencyComponent targets remaining)
      ∨ (∃ index ∈ readyTargets targets remaining, selectWave targets canary remaining = [index])
      ∨ (canary = false ∧ regularTargets targets remaining ≠ []
        ∧ selectWave targets canary remaining = regularTargets targets remaining) := by
  have hselect : selectWave targets canary remaining
      = if (readyTargets targets remaining).isEmpty then sourceDependencyComponent targets remaining
        else if (regularTargets targets remaining).isEmpty then (readyTargets targets remaining).take 1
        else if canary then (regularTargets targets remaining).take 1
        else regularTargets targets remaining := rfl
  cases hready : readyTargets targets remaining with
  | nil =>
    rw [hready] at hselect
    exact .inl ⟨rfl, hselect⟩
  | cons first rest =>
    rw [hready] at hselect
    cases hregular : regularTargets targets remaining with
    | nil =>
      rw [hregular] at hselect
      exact .inr (.inl ⟨first, List.mem_cons_self, hselect⟩)
    | cons calm others =>
      have hcalm : calm ∈ first :: rest := by
        rw [← hready]
        exact List.mem_of_mem_filter (hregular ▸ List.mem_cons_self)
      rw [hregular] at hselect
      cases canary with
      | true => exact .inr (.inl ⟨calm, hcalm, hselect⟩)
      | false => exact .inr (.inr ⟨rfl, List.cons_ne_nil _ _, hselect⟩)

theorem ready_free {index : ℕ} (h : index ∈ readyTargets targets remaining) :
    index ∈ remaining ∧ ∀ p ∈ incoming targets index, p ∉ remaining := by
  obtain ⟨hmem, hall⟩ := List.mem_filter.mp h
  simp only [List.all_eq_true, decide_eq_true_eq] at hall
  exact ⟨hmem, hall⟩

theorem ready_of_regular {index : ℕ} (h : index ∈ regularTargets targets remaining) :
    index ∈ readyTargets targets remaining := List.mem_of_mem_filter h

variable (targets) in
theorem circle_source (hne : remaining ≠ []) :
    Scc.Source (outgoing targets remaining) (incoming targets) remaining
      (sourceDependencyComponent targets remaining) := by
  refine Scc.sourceComponent_spec ?_ ?_ hne
  · intro a ha
    obtain ⟨b, hb⟩ := List.exists_mem_of_ne_nil _ ha
    exact (mem_outgoing.mp hb).1
  · exact fun a ha p hp hpr => mem_outgoing.mpr ⟨hpr, ha, hp⟩

variable (hsub : ∀ index ∈ remaining, index ∈ orderedTargets targets)

include hsub

theorem selectWave_keeps (hne : remaining ≠ []) :
    Waves.Picks (incoming targets) (OneCircle targets) remaining
      (selectWave targets canary remaining) := by
  have hready : ∀ picked : List ℕ, picked ≠ [] → (∀ index ∈ picked,
      index ∈ readyTargets targets remaining) →
        Waves.Picks (incoming targets) (OneCircle targets) remaining picked := by
    intro picked hpicked hall
    refine ⟨hpicked, fun index hindex => (ready_free (hall index hindex)).1, ?_⟩
    intro index hindex prerequisite hprerequisite hremains
    exact absurd hremains ((ready_free (hall index hindex)).2 prerequisite hprerequisite)
  rcases selectWave_cases targets canary remaining with
    ⟨-, hpick⟩ | ⟨index, hindex, hpick⟩ | ⟨-, hregular, hpick⟩
  · have hsource := circle_source targets hne
    rw [hpick]
    refine ⟨hsource.nonempty, hsource.subset, fun a ha p hp hremains => ?_⟩
    have hpicked := hsource.closed a ha p hp hremains
    exact ⟨hpicked, chain_of_reaches hsub (hsource.joined a ha p hpicked),
      chain_of_reaches hsub (hsource.joined p hpicked a ha)⟩
  · rw [hpick]
    refine hready [index] (List.cons_ne_nil _ _) fun other hother => ?_
    rw [List.mem_singleton.mp hother]
    exact hindex
  · rw [hpick]
    exact hready _ hregular fun _ h => ready_of_regular h

omit hsub in
theorem open_step (h : Open targets remaining) (hne : remaining ≠ []) :
    Open targets (remaining.filter fun index => index ∉ selectWave targets canary remaining) := by
  have hpicks := @selectWave_keeps targets canary remaining h.subset hne
  refine ⟨fun index hindex => h.subset index (List.mem_of_mem_filter hindex), ?_⟩
  intro earlier hearlier later hedge
  obtain ⟨hremains, hout⟩ := List.mem_filter.mp hearlier
  refine List.mem_filter.mpr ⟨h.closed earlier hremains later hedge, ?_⟩
  simp only [decide_eq_true_eq]
  intro hpicked
  have hwith := (hpicks.closed later hpicked earlier hedge.2 hremains).1
  simp [hwith] at hout

omit hsub in
theorem open_chain (h : Open targets remaining) {a b : ℕ} (ha : a ∈ remaining)
    (hab : Relation.ReflTransGen (Edge targets) a b) : b ∈ remaining := by
  induction hab with
  | refl => exact ha
  | tail _ hedge ih => exact h.closed _ ih _ hedge

omit hsub in
/-- **Where nothing is ready, a round picks a whole circle.** -/
theorem circle_iff (h : Open targets remaining) (hne : remaining ≠ []) {a b : ℕ}
    (ha : a ∈ sourceDependencyComponent targets remaining) :
    b ∈ sourceDependencyComponent targets remaining ↔ OneCircle targets a b := by
  have hsource := circle_source targets hne
  constructor
  · intro hb
    exact ⟨chain_of_reaches h.subset (hsource.joined a ha b hb),
      chain_of_reaches h.subset (hsource.joined b hb a ha)⟩
  · rintro ⟨hab, hba⟩
    -- back along the edges that lead from `b` to `a`
    have hb : b ∈ remaining := open_chain h (hsource.subset ha) hab
    clear hab
    induction hba using Relation.ReflTransGen.head_induction_on with
    | refl => exact ha
    | @head c d hedge hrest ih =>
      have hd : d ∈ remaining := h.closed c hb d hedge
      exact hsource.closed d (ih hd) c hedge.2 hb

end Round

/-! ### All rounds -/

/-- The rounds of the numbering. -/
def waveRounds (targets : List PlannedTarget) : List (Bool × List ℕ) :=
  Waves.rounds (selectWave targets) (canaryAfter targets) (orderedTargets targets).length true
    (orderedTargets targets)

theorem picks_all (canary : Bool) (remaining : List ℕ)
    (hsub : ∀ index ∈ remaining, index ∈ orderedTargets targets) (hne : remaining ≠ []) :
    Waves.Picks (incoming targets) (OneCircle targets) remaining
      (selectWave targets canary remaining) := selectWave_keeps hsub hne

theorem lookup_waveNumbers {w : ℕ} : (waveNumbers targets).lookup index = some w
    ↔ ∃ k r, (waveRounds targets)[k]? = some r ∧ index ∈ selectWave targets r.1 r.2 ∧ w = 1 + k :=
  Waves.lookup_schedule picks_all fun _ h => h

theorem open_round {r : Bool × List ℕ} (h : (waveRounds targets)[k]? = some r) :
    Open targets r.2 ∧ r.2 ≠ [] :=
  ⟨Waves.rounds_invariant (I := fun _ remaining => Open targets remaining)
    (fun _ _ hopen hne => open_step hopen hne) open_all h, (Waves.rounds_subset h).1⟩

theorem canary_round : ∀ {r : Bool × List ℕ}, (waveRounds targets)[k]? = some r →
    r.1 = false → ∃ j r', j < k ∧ (waveRounds targets)[j]? = some r'
      ∧ ∃ index ∈ selectWave targets r'.1 r'.2, targets[index]?.any (·.appliesXray) = true := by
  induction k with
  | zero =>
    intro r hr hover
    rw [Waves.rounds_zero hr] at hover
    cases hover
  | succ k ih =>
    intro r hr hover
    obtain ⟨before, hbefore⟩ : ∃ before, (waveRounds targets)[k]? = some before := by
      have hlength := (List.getElem?_eq_some_iff.mp hr).1
      exact ⟨_, List.getElem?_eq_getElem (by omega)⟩
    rw [Waves.rounds_succ hbefore hr] at hover
    cases hcanary : before.1 with
    | false =>
      obtain ⟨j, r', hj, hr'⟩ := ih hbefore hcanary
      exact ⟨j, r', by omega, hr'⟩
    | true =>
      rw [hcanary] at hover
      simp only [canaryAfter, Bool.true_and, Bool.not_eq_false'] at hover
      obtain ⟨index, hindex, hxray⟩ := List.any_eq_true.mp hover
      exact ⟨k, before, by omega, hbefore, index, by rwa [hcanary], hxray⟩

/-! ### What is promised -/

theorem getElem?_assignWaves :
    (assignWaves targets)[index]? = some target ↔ ∃ before, targets[index]? = some before
      ∧ target = { before with wave := ((waveNumbers targets).lookup index).getD 0 } := by
  unfold assignWaves
  rw [List.getElem?_map, List.getElem?_zipIdx]
  cases targets[index]? with
  | none => simp
  | some before => simp [eq_comm]

theorem lookup_isSome : ((waveNumbers targets).lookup index).isSome = true
    ↔ index ∈ orderedTargets targets := by
  constructor
  · intro h
    obtain ⟨w, hw⟩ := Option.isSome_iff_exists.mp h
    obtain ⟨k, r, hr, hpicked, -⟩ := lookup_waveNumbers.mp hw
    obtain ⟨hopen, hne⟩ := open_round hr
    exact hopen.subset index ((picks_all r.1 r.2 hopen.subset hne).subset hpicked)
  · intro h
    obtain ⟨w, hw, -⟩ := (@Waves.schedule_ordered ℕ Bool _ (incoming targets) (OneCircle targets)
      (selectWave targets) (canaryAfter targets) (· ∈ orderedTargets targets) picks_all _ 1 true _
      (fun _ h => h) (Nat.le_refl _) index h).numbered
    rw [waveNumbers, hw]
    rfl

/-- The numbering is a careful schedule. -/
structure WavesCorrect (targets : List PlannedTarget) : Prop where
  /-- one round a target is enough: more of them change nothing -/
  ends : ∀ fuel, (orderedTargets targets).length ≤ fuel →
    Waves.schedule (selectWave targets) (canaryAfter targets) fuel 1 true (orderedTargets targets)
      = waveNumbers targets
  numbered : ∀ target ∈ assignWaves targets,
    (1 ≤ target.wave ↔ target.ordered = true) ∧ (target.wave = 0 ↔ target.ordered = false)
  contiguous : ∀ target ∈ assignWaves targets, ∀ wave, 1 ≤ wave → wave ≤ target.wave →
    ∃ other ∈ assignWaves targets, other.wave = wave
  follows : ∀ {earlier later : ℕ}, Edge targets earlier later → ∀ {first second : PlannedTarget},
    (assignWaves targets)[earlier]? = some first → (assignWaves targets)[later]? = some second →
      first.wave < second.wave ∨ (first.wave = second.wave ∧ OneCircle targets earlier later)
  careful : ∀ {index : ℕ} {target : PlannedTarget}, (assignWaves targets)[index]? = some target →
    1 ≤ target.wave →
      -- the wave is a circle
      (∀ {place : ℕ} {other : PlannedTarget}, (assignWaves targets)[place]? = some other →
        (other.wave = target.wave ↔ OneCircle targets index place))
      -- or it is one target, if it costs connections or is the first that applies an xray
      ∨ ((target.highRisk = true ∨ (target.appliesXray = true
          ∧ ∀ earlier ∈ assignWaves targets, 1 ≤ earlier.wave → earlier.wave < target.wave →
            earlier.appliesXray = false)) →
        ∀ {place : ℕ} {other : PlannedTarget}, (assignWaves targets)[place]? = some other →
          other.wave = target.wave → place = index)

theorem wave_of_round {r : Bool × List ℕ} (hr : (waveRounds targets)[k]? = some r)
    (h : index ∈ selectWave targets r.1 r.2)
    (htarget : (assignWaves targets)[index]? = some target) : target.wave = 1 + k := by
  obtain ⟨before, -, rfl⟩ := getElem?_assignWaves.mp htarget
  show ((waveNumbers targets).lookup index).getD 0 = 1 + k
  rw [lookup_waveNumbers.mpr ⟨k, r, hr, h, rfl⟩]
  rfl

theorem round_of_wave (htarget : (assignWaves targets)[index]? = some target)
    (h : 1 ≤ target.wave) :
    ∃ k r, (waveRounds targets)[k]? = some r ∧ index ∈ selectWave targets r.1 r.2
      ∧ target.wave = 1 + k := by
  obtain ⟨before, -, rfl⟩ := getElem?_assignWaves.mp htarget
  change 1 ≤ ((waveNumbers targets).lookup index).getD 0 at h
  show ∃ k r, _ ∧ _ ∧ ((waveNumbers targets).lookup index).getD 0 = 1 + k
  cases hlookup : (waveNumbers targets).lookup index with
  | none =>
    rw [hlookup] at h
    exact absurd h (by decide)
  | some w =>
    obtain ⟨k, r, hr, hpicked, rfl⟩ := lookup_waveNumbers.mp hlookup
    exact ⟨k, r, hr, hpicked, rfl⟩

theorem ordered_lookup {before : PlannedTarget} (h : targets[index]? = some before) :
    (before.ordered = true ↔ ∃ w, (waveNumbers targets).lookup index = some w) := by
  rw [← Option.isSome_iff_exists, lookup_isSome, mem_orderedTargets]
  constructor
  · exact fun hordered => ⟨before, h, hordered⟩
  · rintro ⟨target, htarget, hordered⟩
    rw [h] at htarget
    rw [Option.some.inj htarget]
    exact hordered

theorem wave_numbered (h : target ∈ assignWaves targets) :
    (1 ≤ target.wave ↔ target.ordered = true) ∧ (target.wave = 0 ↔ target.ordered = false) := by
  obtain ⟨index, hget⟩ := List.getElem?_of_mem h
  obtain ⟨before, hbefore, rfl⟩ := getElem?_assignWaves.mp hget
  have hiff := ordered_lookup hbefore
  show (1 ≤ ((waveNumbers targets).lookup index).getD 0 ↔ before.ordered = true)
    ∧ (((waveNumbers targets).lookup index).getD 0 = 0 ↔ before.ordered = false)
  cases hlookup : (waveNumbers targets).lookup index with
  | none =>
    have hnot : before.ordered = false := by
      by_contra hordered
      obtain ⟨w, hw⟩ := hiff.mp (by simpa using hordered)
      rw [hlookup] at hw
      cases hw
    simp [hnot]
  | some w =>
    obtain ⟨k, r, -, -, rfl⟩ := lookup_waveNumbers.mp hlookup
    have hyes := hiff.mpr ⟨_, hlookup⟩
    simp [hyes]

theorem wave_contiguous (h : target ∈ assignWaves targets) {wave : ℕ} (hone : 1 ≤ wave)
    (hle : wave ≤ target.wave) : ∃ other ∈ assignWaves targets, other.wave = wave := by
  obtain ⟨index, hget⟩ := List.getElem?_of_mem h
  obtain ⟨k, r, hr, -, hwave⟩ := round_of_wave hget (hone.trans hle)
  -- the round of the number is there, and it picked something
  have hlength := (List.getElem?_eq_some_iff.mp hr).1
  obtain ⟨round, hround⟩ : ∃ round, (waveRounds targets)[wave - 1]? = some round :=
    ⟨_, List.getElem?_eq_getElem (by omega)⟩
  obtain ⟨hopen, hne⟩ := open_round hround
  have hpicks := picks_all round.1 round.2 hopen.subset hne
  obtain ⟨place, hplace⟩ := List.exists_mem_of_ne_nil _ hpicks.nonempty
  obtain ⟨before, hbefore, -⟩ := mem_orderedTargets.mp (hopen.subset place (hpicks.subset hplace))
  have hother := getElem?_assignWaves.mpr ⟨before, hbefore, rfl⟩
  refine ⟨_, List.mem_of_getElem? hother, ?_⟩
  rw [wave_of_round hround hplace hother]
  omega

/-- A target comes after its prerequisites, or with them where each is before the other. -/
theorem wave_follows {earlier later : ℕ} (h : Edge targets earlier later)
    {first second : PlannedTarget} (hfirst : (assignWaves targets)[earlier]? = some first)
    (hsecond : (assignWaves targets)[later]? = some second) :
    first.wave < second.wave ∨ (first.wave = second.wave ∧ OneCircle targets earlier later) := by
  obtain ⟨v, w, hv, hw, hle, htogether⟩ := (@Waves.schedule_ordered ℕ Bool _ (incoming targets)
    (OneCircle targets) (selectWave targets) (canaryAfter targets) (· ∈ orderedTargets targets)
    picks_all _ 1 true _ (fun _ h => h) (Nat.le_refl _) later h.1).after earlier h.2
      (incoming_ordered h.2)
  obtain ⟨before, -, rfl⟩ := getElem?_assignWaves.mp hfirst
  obtain ⟨after, -, rfl⟩ := getElem?_assignWaves.mp hsecond
  show ((waveNumbers targets).lookup earlier).getD 0 < ((waveNumbers targets).lookup later).getD 0
    ∨ (((waveNumbers targets).lookup earlier).getD 0 = ((waveNumbers targets).lookup later).getD 0 ∧ _)
  rw [waveNumbers, hv, hw]
  rcases Nat.lt_or_eq_of_le hle with hlt | heq
  · exact .inl hlt
  · exact .inr ⟨heq, (htogether heq).2, (htogether heq).1⟩

/-- **Numbering is a careful schedule of every list of targets.** -/
theorem assignWaves_correct (targets : List PlannedTarget) : WavesCorrect targets where
  ends _ hfuel := Waves.schedule_stable picks_all (fun _ h => h) (Nat.le_refl _) hfuel
  numbered _ h := wave_numbered h
  contiguous _ h _ hone hle := wave_contiguous h hone hle
  follows h _ _ hfirst hsecond := wave_follows h hfirst hsecond
  careful := by
    intro index target htarget hone
    obtain ⟨k, r, hr, hpicked, hwave⟩ := round_of_wave htarget hone
    obtain ⟨hopen, hne⟩ := open_round hr
    -- the members of the wave are what the round picked
    have hmembers : ∀ {place : ℕ} {other : PlannedTarget}, (assignWaves targets)[place]? = some other →
        (other.wave = target.wave ↔ place ∈ selectWave targets r.1 r.2) := by
      intro place other hother
      constructor
      · intro hsame
        obtain ⟨j, r', hr', hpicked', hwave'⟩ := round_of_wave hother (hsame ▸ hone)
        have hjk : j = k := by omega
        rw [hjk, hr] at hr'
        rw [Option.some.inj hr']
        exact hpicked'
      · intro hin
        rw [wave_of_round hr hin hother, hwave]
    rcases selectWave_cases targets r.1 r.2 with
      ⟨-, hpick⟩ | ⟨only, -, hpick⟩ | ⟨hover, -, hpick⟩
    · refine .inl fun {place other} hother => ?_
      rw [hpick] at hpicked
      rw [hmembers hother, hpick, circle_iff hopen hne hpicked]
    · refine .inr fun _ {place other} hother hsame => ?_
      rw [hpick] at hpicked
      have hin := (hmembers hother).mp hsame
      rw [hpick] at hin
      rw [List.mem_singleton.mp hin, List.mem_singleton.mp hpicked]
    · -- the canary is over, and nothing here costs connections
      refine .inr fun hcareful => ?_
      exfalso
      obtain ⟨before, hbefore, htargetEq⟩ := getElem?_assignWaves.mp htarget
      rcases hcareful with hrisk | ⟨-, hfirst⟩
      · rw [hpick] at hpicked
        have hcalm := (List.mem_filter.mp hpicked).2
        rw [hbefore, Option.any_some, Bool.not_eq_true'] at hcalm
        rw [htargetEq] at hrisk
        have hsame : before.highRisk = true := hrisk
        rw [hcalm] at hsame
        cases hsame
      · obtain ⟨j, r', hj, hr', place, hplace, hxray⟩ := canary_round hr hover
        obtain ⟨source, hsource, happlies⟩ := (Option.any_eq_true _ _).mp hxray
        have hother := getElem?_assignWaves.mpr ⟨source, hsource, rfl⟩
        have hnumber := wave_of_round hr' hplace hother
        have hnot := hfirst _ (List.mem_of_getElem? hother) (by omega) (by omega)
        have hsame : source.appliesXray = false := hnot
        rw [hsame] at happlies
        cases happlies

end Brocade.Release
