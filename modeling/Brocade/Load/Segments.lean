/-
The segments of an aggregation.

Aggregating merges the groups of a greedy grouping, one after the other.  A group is a segment: one
boot, one bucket, touching windows, and no gap once it has two samples.  Two neighbouring rows do not
join again, since what joined them would have joined the samples at the boundary.
-/
import Mathlib.Data.List.Chain
import Brocade.Load.Merged

namespace Brocade.Load

open Groups Fallible

variable {K : Kinds}

/-- The groups that an aggregation merges. -/
def segments (samples : List (TimedSample K)) : List (List (TimedSample K)) :=
  groups continues samples

theorem aggregateLoop_eq (avg : Averaging K) (samples : List (TimedSample K)) :
    ∀ result group : List (TimedSample K), aggregateLoop avg result group samples =
      (groupsFrom continues group samples).mapM (merged avg) >>= fun rows => .ok (result ++ rows) := by
  induction samples with
  | nil =>
    intro result group
    rw [aggregateLoop, groupsFrom]
    by_cases hgroup : group.isEmpty = true
    · rw [if_pos hgroup, if_pos hgroup, List.mapM_nil]
      show Except.ok result = Except.ok (result ++ [])
      rw [List.append_nil]
    · rw [if_neg hgroup, if_neg hgroup, List.mapM_cons, List.mapM_nil]
      cases merged avg group <;> rfl
  | cons sample samples ih =>
    intro result group
    rw [aggregateLoop, groupsFrom]
    by_cases hjoins : continues group sample = true
    · rw [if_pos hjoins, if_pos hjoins, ih]
    · rw [if_neg hjoins, if_neg hjoins]
      by_cases hgroup : group.isEmpty = true
      · rw [if_pos hgroup, if_pos hgroup, ih]
      · rw [if_neg hgroup, if_neg hgroup, List.mapM_cons]
        cases merged avg group with
        | error e => rfl
        | ok row =>
          show aggregateLoop avg (result ++ [row]) [sample] samples = _
          rw [ih]
          show _ = (((groupsFrom continues [sample] samples).mapM (merged avg)) >>= fun rows =>
            Except.ok (row :: rows)) >>= fun rows => Except.ok (result ++ rows)
          cases (groupsFrom continues [sample] samples).mapM (merged avg) with
          | error e => rfl
          | ok rows =>
            show Except.ok (result ++ [row] ++ rows) = Except.ok (result ++ (row :: rows))
            rw [List.append_assoc, List.singleton_append]

/-- **Aggregating merges segment after segment.** -/
theorem aggregate_eq (avg : Averaging K) (samples : List (TimedSample K)) :
    aggregate avg samples = (segments samples).mapM (merged avg) := by
  rw [aggregate, aggregateLoop_eq, segments, groups]
  cases (groupsFrom continues [] samples).mapM (merged avg) <;> rfl

/-! ### What a segment is -/

/-- Samples of one boot and one bucket whose windows touch. -/
structure Segment (samples : List (TimedSample K)) : Prop where
  bucket : ∀ s ∈ samples, ∀ t ∈ samples, bucketEnd s.sample = bucketEnd t.sample
  boot : ∀ s ∈ samples, ∀ t ∈ samples, s.btime = t.btime
  touching : samples.IsChain fun s t => s.sample.windowEndUnixSecs = t.sample.windowStartUnixSecs
  noGap : samples.length ≠ 1 → ∀ s ∈ samples, s.sample.hasGap = false
  span : samples.length ≠ 1 → ∀ first ∈ samples.head?, ∀ last ∈ samples.getLast?,
    last.sample.windowEndUnixSecs - first.sample.windowStartUnixSecs ≤ MINUTE

/-- What a sample that continues a group is. -/
structure Continues (first previous sample : TimedSample K) : Prop where
  boot : previous.btime = sample.btime
  bucket : bucketEnd previous.sample = bucketEnd sample.sample
  noGap : previous.sample.hasGap = false ∧ sample.sample.hasGap = false
  touching : previous.sample.windowEndUnixSecs = sample.sample.windowStartUnixSecs
  span : sample.sample.windowEndUnixSecs - first.sample.windowStartUnixSecs ≤ MINUTE

theorem continues_iff {group : List (TimedSample K)} {first previous sample : TimedSample K}
    (hfirst : group.head? = some first) (hprevious : group.getLast? = some previous) :
    continues group sample = true ↔ Continues first previous sample := by
  rw [continues, hfirst, hprevious]
  simp only [Bool.and_eq_true, beq_iff_eq, Bool.not_eq_true', decide_eq_true_eq]
  constructor
  · intro h
    obtain ⟨⟨⟨⟨⟨hboot, hbucket⟩, hbefore⟩, hafter⟩, htouching⟩, hspan⟩ := h
    exact ⟨hboot, hbucket, ⟨hbefore, hafter⟩, htouching, hspan⟩
  · intro h
    exact ⟨⟨⟨⟨⟨h.boot, h.bucket⟩, h.noGap.1⟩, h.noGap.2⟩, h.touching⟩, h.span⟩

theorem segment_singleton (sample : TimedSample K) : Segment [sample] where
  bucket s hs t ht := by rw [List.mem_singleton.mp hs, List.mem_singleton.mp ht]
  boot s hs t ht := by rw [List.mem_singleton.mp hs, List.mem_singleton.mp ht]
  touching := List.isChain_singleton sample
  noGap h := absurd rfl h
  span h := absurd rfl h

theorem Segment.join {group : List (TimedSample K)} {sample : TimedSample K} (hne : group ≠ [])
    (h : Segment group) (hjoins : continues group sample = true) : Segment (group ++ [sample]) := by
  have hfirst := List.head?_eq_some_head hne
  generalize group.head hne = first at hfirst
  have hprevious := List.getLast?_eq_some_getLast hne
  generalize group.getLast hne = previous at hprevious
  have hin : previous ∈ group := List.mem_of_getLast? hprevious
  have hcontinues := (continues_iff hfirst hprevious).mp hjoins
  have hbucket : ∀ s ∈ group ++ [sample], bucketEnd s.sample = bucketEnd previous.sample := by
    intro s hs
    rcases List.mem_append.mp hs with hs | hs
    · exact h.bucket s hs previous hin
    · rw [List.mem_singleton.mp hs, hcontinues.bucket]
  have hboot : ∀ s ∈ group ++ [sample], s.btime = previous.btime := by
    intro s hs
    rcases List.mem_append.mp hs with hs | hs
    · exact h.boot s hs previous hin
    · rw [List.mem_singleton.mp hs, hcontinues.boot]
  refine ⟨fun s hs t ht => by rw [hbucket s hs, hbucket t ht],
    fun s hs t ht => by rw [hboot s hs, hboot t ht], ?_, ?_, ?_⟩
  · rw [List.isChain_append]
    refine ⟨h.touching, List.isChain_singleton sample, ?_⟩
    intro s hs t ht
    have hs' : previous = s := by simpa [hprevious] using hs
    have ht' : sample = t := by simpa using ht
    rw [← hs', ← ht', hcontinues.touching]
  · intro _ s hs
    rcases List.mem_append.mp hs with hs | hs
    · by_cases hone : group.length = 1
      · obtain ⟨only, honly⟩ := List.length_eq_one_iff.mp hone
        rw [honly] at hs hprevious
        have hsame : only = previous := by simpa using hprevious
        rw [List.mem_singleton.mp hs, hsame]
        exact hcontinues.noGap.1
      · exact h.noGap hone s hs
    · rw [List.mem_singleton.mp hs]
      exact hcontinues.noGap.2
  · intro _ s hs t ht
    rw [List.head?_append_of_ne_nil _ hne, hfirst] at hs
    have hs' : first = s := by simpa using hs
    have ht' : sample = t := by simpa using ht
    rw [← hs', ← ht']
    exact hcontinues.span

/-- **Every group of an aggregation is a segment.** -/
theorem segments_spec (samples : List (TimedSample K)) :
    ∀ group ∈ segments samples, group ≠ [] ∧ Segment group :=
  groups_induction segment_singleton fun _ _ hne h hjoins => h.join hne hjoins

/-! ### Aggregating again -/

section Again

variable {samples : List (TimedSample K)} {avg : Averaging K}

theorem Segment.end_le {group : List (TimedSample K)}
    (htouching : group.IsChain fun s t => s.sample.windowEndUnixSecs = t.sample.windowStartUnixSecs)
    (hpositive : ∀ s ∈ group, s.sample.windowStartUnixSecs < s.sample.windowEndUnixSecs)
    {first last : TimedSample K} (hfirst : group.head? = some first)
    (hlast : group.getLast? = some last) :
    first.sample.windowEndUnixSecs ≤ last.sample.windowEndUnixSecs := by
  induction group generalizing first with
  | nil => cases hfirst
  | cons s group ih =>
    have hs : s = first := by simpa using hfirst
    cases group with
    | nil =>
      have hl : s = last := by simpa using hlast
      rw [← hs, ← hl]
    | cons t group =>
      obtain ⟨hst, hrest⟩ := List.isChain_cons_cons.mp htouching
      have hend := ih hrest (fun u hu => hpositive u (List.mem_cons_of_mem _ hu)) rfl
        (by simpa using hlast)
      have hlong := hpositive t (by simp)
      rw [← hs]
      omega

theorem rows_apart {group next : List (TimedSample K)} {row row' : TimedSample K}
    (hnext : Segment next)
    (hpositive : ∀ s ∈ next, s.sample.windowStartUnixSecs < s.sample.windowEndUnixSecs)
    (hrow : IsMerged group row) (hrow' : IsMerged next row') {sample : TimedSample K}
    (hhead : next.head? = some sample) (hrefused : continues group sample = false) :
    continues [row] row' = false := by
  obtain ⟨first, hfirst, hstart⟩ := hrow.start
  obtain ⟨last, hlast, hbtime, hend, hgap, -⟩ := hrow.last
  obtain ⟨first', hfirst', hstart'⟩ := hrow'.start
  obtain ⟨last', hlast', hbtime', hend', hgap', -⟩ := hrow'.last
  have hsame : first' = sample := by simpa [hhead] using hfirst'.symm
  rw [hsame] at hstart'
  have hin : sample ∈ next := List.mem_of_head? hhead
  have hin' : last' ∈ next := List.mem_of_getLast? hlast'
  have hbucketRow : bucketEnd row.sample = bucketEnd last.sample := by
    rw [bucketEnd, bucketEnd, hend]
  have hbucketRow' : bucketEnd row'.sample = bucketEnd last'.sample := by
    rw [bucketEnd, bucketEnd, hend']
  by_contra hjoined
  have hcontinues : Continues row row row' :=
    (continues_iff rfl rfl).mp (by simpa using hjoined)
  have hsampleGap : sample.sample.hasGap = false := by
    by_cases hone : next.length = 1
    · obtain ⟨only, honly⟩ := List.length_eq_one_iff.mp hone
      rw [honly] at hhead hlast'
      have honlySample : only = sample := by simpa using hhead
      have honlyLast : only = last' := by simpa using hlast'
      rw [← honlySample, honlyLast, ← hgap']
      exact hcontinues.noGap.2
    · exact hnext.noGap hone sample hin
  have horder := Segment.end_le hnext.touching hpositive hhead hlast'
  have hspan := hcontinues.span
  have htouching := hcontinues.touching
  have hjoins : Continues first last sample := by
    refine ⟨?_, ?_, ⟨?_, hsampleGap⟩, ?_, ?_⟩
    · rw [← hbtime, hcontinues.boot, hbtime', hnext.boot last' hin' sample hin]
    · rw [← hbucketRow, hcontinues.bucket, hbucketRow', hnext.bucket last' hin' sample hin]
    · rw [← hgap]
      exact hcontinues.noGap.1
    · rw [← hend, htouching, hstart']
    · omega
  rw [(continues_iff hfirst hlast).mpr hjoins] at hrefused
  cases hrefused

theorem merged_rows {groups : List (List (TimedSample K))} {rows : List (TimedSample K)}
    (hne : ∀ group ∈ groups, group ≠ []) (h : groups.mapM (merged avg) = .ok rows) :
    List.Forall₂ IsMerged groups rows := by
  have hall := mapM_eq_ok.mp h
  clear h
  induction hall with
  | nil => exact .nil
  | cons hrow _ ih =>
    refine .cons (merged_ok (hne _ List.mem_cons_self) hrow) (ih ?_)
    exact fun group hin => hne group (List.mem_cons_of_mem _ hin)

theorem rows_chain {groups : List (List (TimedSample K))} {rows : List (TimedSample K)}
    (hall : List.Forall₂ IsMerged groups rows) (hsegments : ∀ group ∈ groups, Segment group ∧
      ∀ s ∈ group, s.sample.windowStartUnixSecs < s.sample.windowEndUnixSecs)
    (hrefused : groups.IsChain fun group next =>
      ∃ x, next.head? = some x ∧ continues group x = false) :
    rows.IsChain fun row next => continues [row] next = false := by
  induction hall with
  | nil => exact List.isChain_nil
  | cons hrow hrest ih =>
    rename_i group row groups rows
    cases hrest with
    | nil => exact List.isChain_singleton row
    | cons hrow' hrest' =>
      obtain ⟨⟨x, hhead, hx⟩, hchain⟩ := List.isChain_cons_cons.mp hrefused
      rw [List.isChain_cons_cons]
      refine ⟨?_, ih (fun g hg => hsegments g (List.mem_cons_of_mem _ hg)) hchain⟩
      obtain ⟨hgroup, -⟩ := hsegments group List.mem_cons_self
      obtain ⟨hnext, hpositive⟩ := hsegments _ (List.mem_cons_of_mem _ List.mem_cons_self)
      exact rows_apart hnext hpositive hrow hrow' hhead hx

/-- **What was aggregated stays as it is when aggregated again.** -/
theorem aggregate_again
    (hpositive : ∀ s ∈ samples, s.sample.windowStartUnixSecs < s.sample.windowEndUnixSecs)
    {rows : List (TimedSample K)} (h : aggregate avg samples = .ok rows) :
    aggregate avg rows = .ok rows := by
  rw [aggregate_eq] at h
  have hspec := segments_spec samples
  have hrows := merged_rows (fun group hin => (hspec group hin).1) h
  have hinside : ∀ group ∈ segments samples, ∀ s ∈ group,
      s.sample.windowStartUnixSecs < s.sample.windowEndUnixSecs := by
    intro group hin s hs
    apply hpositive
    rw [← flatten_groups continues samples]
    exact List.mem_flatten.mpr ⟨group, hin, hs⟩
  have hchain := rows_chain hrows
    (fun group hin => ⟨(hspec group hin).2, hinside group hin⟩) groups_refused
  rw [aggregate_eq, segments, groups_singletons (fun _ => rfl) hchain, mapM_eq_ok]
  rw [List.forall₂_map_left_iff]
  exact List.forall₂_same.mpr fun _ _ => rfl

end Again

end Brocade.Load
