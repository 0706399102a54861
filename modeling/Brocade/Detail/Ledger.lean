/-
What a report of checkpoints adds to the hours.

An hour comes to the sum over its segments of the greatest value reported of each
(`reported`).  A transaction that takes a report keeps that up: it finds the head of every
row's segment as it was before the report, adds the growth over it, and writes the greater
of the two as the new head (`recordFor_taken`).  The induction goes over the rows, which are
of distinct segments, and so of distinct heads.
-/
import Mathlib.Algebra.BigOperators.Group.Finset.Basic
import Brocade.Detail.Record
import Brocade.Lib.Fallible

namespace Brocade.Detail

open Usage (StoreError UsageGeneration)

/-! ### What rows report of an hour -/

/-- The greatest value reported of a segment, in each direction. -/
def greatest (rows : List OtherDomainCounter) (segment : Segment) : Bytes :=
  rows.foldr (fun row bytes => if row.segment = segment then row.bytes ⊔ bytes else bytes) (0, 0)

theorem zero_le_bytes (bytes : Bytes) : ((0, 0) : Bytes) ≤ bytes :=
  ⟨Nat.zero_le _, Nat.zero_le _⟩

variable {segment : Segment} {owner : String → Option (String × String)} {key : HourKey}
    {epoch : String} {report : OtherDomainReport} {pending pending' : Pending}
    {console : DetailConsole} {floor : ℤ} {old : HeadKey → Option Bytes} {tables : DetailTables}
    {heads : Table HeadKey Bytes}

theorem greatest_le_iff {rows : List OtherDomainCounter} {bound : Bytes} :
    greatest rows segment ≤ bound ↔ AtMost rows segment bound := by
  induction rows with
  | nil => exact ⟨fun _ row hrow => absurd hrow List.not_mem_nil, fun _ => zero_le_bytes bound⟩
  | cons row rows ih =>
    have hcons : AtMost (row :: rows) segment bound
        ↔ (row.segment = segment → row.bytes ≤ bound) ∧ AtMost rows segment bound :=
      List.forall_mem_cons
    rw [hcons, ← ih]
    show (if row.segment = segment then row.bytes ⊔ greatest rows segment
      else greatest rows segment) ≤ bound ↔ _
    by_cases hseg : row.segment = segment
    · simp [hseg]
    · simp [hseg]

theorem greatest_congr {rows rows' : List OtherDomainCounter}
    (h : ∀ bound, AtMost rows segment bound ↔ AtMost rows' segment bound) :
    greatest rows segment = greatest rows' segment :=
  eq_of_forall_ge_iff fun bound => by rw [greatest_le_iff, greatest_le_iff, h]

theorem greatest_append (rows rows' : List OtherDomainCounter) (segment : Segment) :
    greatest (rows ++ rows') segment = greatest rows segment ⊔ greatest rows' segment :=
  eq_of_forall_ge_iff fun bound => by
    rw [sup_le_iff, greatest_le_iff, greatest_le_iff, greatest_le_iff, atMost_append]

theorem greatest_eq_zero {rows : List OtherDomainCounter}
    (h : ∀ row ∈ rows, row.segment ≠ segment) : greatest rows segment = (0, 0) :=
  le_antisymm (greatest_le_iff.mpr fun row hrow hseg => absurd hseg (h row hrow))
    (zero_le_bytes _)

theorem greatest_of_nodup {rows : List OtherDomainCounter}
    (hnodup : (rows.map OtherDomainCounter.segment).Nodup) {row : OtherDomainCounter}
    (hrow : row ∈ rows) : greatest rows row.segment = row.bytes := by
  refine le_antisymm (greatest_le_iff.mpr fun r hr hseg => ?_)
    (greatest_le_iff.mp le_rfl row hrow rfl)
  rw [List.inj_on_of_nodup_map hnodup hr hrow hseg]

/-- The hour a segment counts towards. -/
def Segment.hourKey (owner : String → Option (String × String)) (segment : Segment) :
    Option HourKey :=
  (owner segment.2.1).map fun user => (segment.1, user.1, user.2, segment.2.2.1)

/-- The segments of an hour. -/
def segmentsOf (owner : String → Option (String × String)) (rows : List OtherDomainCounter)
    (key : HourKey) : Finset Segment :=
  ((rows.map OtherDomainCounter.segment).filter fun segment =>
    decide (Segment.hourKey owner segment = some key)).toFinset

/-- **What rows report of an hour: the greatest value of each of its segments, together.** -/
def reported (owner : String → Option (String × String)) (rows : List OtherDomainCounter)
    (key : HourKey) : Bytes :=
  ∑ segment ∈ segmentsOf owner rows key, greatest rows segment

theorem mem_segmentsOf {rows : List OtherDomainCounter} : segment ∈ segmentsOf owner rows key
      ↔ (∃ row ∈ rows, row.segment = segment) ∧ Segment.hourKey owner segment = some key := by
  simp [segmentsOf]

theorem reported_congr {rows rows' : List OtherDomainCounter}
    (hseg : ∀ segment, (∃ row ∈ rows, row.segment = segment) ↔ ∃ row ∈ rows', row.segment = segment)
    (hbound : ∀ segment bound, AtMost rows segment bound ↔ AtMost rows' segment bound) :
    reported owner rows key = reported owner rows' key := by
  have hsame : segmentsOf owner rows key = segmentsOf owner rows' key := by
    ext segment
    rw [mem_segmentsOf, mem_segmentsOf, hseg]
  unfold reported
  rw [hsame]
  exact Finset.sum_congr rfl fun segment _ => greatest_congr (hbound segment)

/-- **What an hour gains by more rows**: every segment what it grows. -/
theorem reported_append (owner : String → Option (String × String))
    (rows rows' : List OtherDomainCounter) (key : HourKey) : reported owner (rows ++ rows') key
      = reported owner rows key + ∑ segment ∈ segmentsOf owner rows' key,
          (greatest rows segment ⊔ greatest rows' segment - greatest rows segment) := by
  have hunion : segmentsOf owner (rows ++ rows') key
      = segmentsOf owner rows key ∪ segmentsOf owner rows' key := by
    ext segment
    rw [Finset.mem_union, mem_segmentsOf, mem_segmentsOf, mem_segmentsOf]
    simp only [List.mem_append]
    grind
  -- a sum over more segments, of which nothing is reported
  have hleft : reported owner rows key
      = ∑ segment ∈ segmentsOf owner (rows ++ rows') key, greatest rows segment := by
    refine Finset.sum_subset (hunion ▸ Finset.subset_union_left) fun segment hmem hnot => ?_
    refine greatest_eq_zero fun row hrow hseg => hnot (mem_segmentsOf.mpr ⟨⟨row, hrow, hseg⟩, ?_⟩)
    exact (mem_segmentsOf.mp hmem).2
  have hright : ∑ segment ∈ segmentsOf owner rows' key,
        (greatest rows segment ⊔ greatest rows' segment - greatest rows segment)
      = ∑ segment ∈ segmentsOf owner (rows ++ rows') key,
        (greatest rows segment ⊔ greatest rows' segment - greatest rows segment) := by
    refine Finset.sum_subset (hunion ▸ Finset.subset_union_right) fun segment hmem hnot => ?_
    have hzero : greatest rows' segment = (0, 0) :=
      greatest_eq_zero fun row hrow hseg =>
        hnot (mem_segmentsOf.mpr ⟨⟨row, hrow, hseg⟩, (mem_segmentsOf.mp hmem).2⟩)
    rw [hzero, sup_eq_left.mpr (zero_le_bytes _)]
    exact Prod.ext (Nat.sub_self _) (Nat.sub_self _)
  rw [hleft, hright, ← Finset.sum_add_distrib]
  refine Finset.sum_congr rfl fun segment _ => ?_
  rw [greatest_append]
  have hle : greatest rows segment ≤ greatest rows segment ⊔ greatest rows' segment := le_sup_left
  exact Prod.ext (Nat.add_sub_of_le hle.1).symm (Nat.add_sub_of_le hle.2).symm

/-! ### Heads -/

/-- A segment's head, under the lifetime of its counter. -/
def Segment.headKey (epoch : String) (segment : Segment) : HeadKey :=
  (counterEpoch epoch segment.2.2.2, segment.1, segment.2.1, segment.2.2.1)

/-- What a head holds, zero where there is none. -/
def headBytes (heads : Table HeadKey Bytes) (epoch : String) (segment : Segment) : Bytes :=
  (heads.get? (Segment.headKey epoch segment)).getD (0, 0)

theorem counterEpoch_ne {id : ℕ} (hid : id ≠ 0) : counterEpoch epoch id ≠ epoch := by
  intro h
  unfold counterEpoch at h
  rw [if_neg hid] at h
  have hlength := congrArg (fun s : String => s.toList.length) h
  simp at hlength

theorem counterEpoch_injective {id id' : ℕ} (h : counterEpoch epoch id = counterEpoch epoch id') :
    id = id' := by
  by_cases hid : id = 0
  · by_cases hid' : id' = 0
    · rw [hid, hid']
    · rw [hid] at h
      exact absurd h.symm (counterEpoch_ne hid')
  · by_cases hid' : id' = 0
    · rw [hid'] at h
      exact absurd h (counterEpoch_ne hid)
    · unfold counterEpoch at h
      rw [if_neg hid, if_neg hid'] at h
      exact Text.toString_nat_injective ((String.append_right_inj _).mp h)

theorem Segment.headKey_injective {segment' : Segment}
    (h : Segment.headKey epoch segment = Segment.headKey epoch segment') : segment = segment' := by
  obtain ⟨hid, h⟩ := Prod.mk.inj h
  obtain ⟨hbucket, h⟩ := Prod.mk.inj h
  obtain ⟨hlabel, hdomain⟩ := Prod.mk.inj h
  exact Prod.ext hbucket (Prod.ext hlabel (Prod.ext hdomain (counterEpoch_injective hid)))

theorem headBytes_put (heads : Table HeadKey Bytes) (epoch : String) (segment segment' : Segment)
    (bytes : Bytes) : headBytes (heads.put (Segment.headKey epoch segment') bytes) epoch segment
      = if segment = segment' then bytes else headBytes heads epoch segment := by
  unfold headBytes
  rw [Table.get?_put]
  by_cases hseg : segment = segment'
  · rw [if_pos (congrArg _ hseg), if_pos hseg]
    rfl
  · rw [if_neg fun h => hseg (Segment.headKey_injective h), if_neg hseg]

/-- The heads once the rows so far are written. -/
def Pending.headsOver (pending : Pending) (heads : Table HeadKey Bytes) : Table HeadKey Bytes :=
  pending.writes.foldl (fun heads write => heads.put write.1 write.2) heads

/-- What a row's segment grows over its head. -/
def growth (heads : Table HeadKey Bytes) (epoch : String) (row : OtherDomainCounter) : Bytes :=
  row.bytes ⊔ headBytes heads epoch row.segment - headBytes heads epoch row.segment

/-! ### One row -/

theorem addGrowth_full {row : OtherDomainCounter} {user : String × String} {capacity : ℕ}
    {newHead : Bool} {before after : Bytes}
    (h : addGrowth report row user capacity newHead before after pending = .ok pending')
    (hroom : pending'.full = false) :
    pending.full = false ∧ pending'.writes = pending.writes ++ [(row.headKey report.epoch, after)]
      ∧ ∀ key, (pending'.totals.get? key).getD (0, 0) = (pending.totals.get? key).getD (0, 0)
          + if key = (row.bucket, user.1, user.2, row.domain) then after - before else (0, 0) := by
  unfold addGrowth at h
  dsimp only at h
  split at h
  · rw [Except.ok.injEq] at h
    subst h
    exact absurd hroom (by simp)
  split at h
  · cases h
  rw [Except.ok.injEq] at h
  subst h
  refine ⟨hroom, rfl, fun key => ?_⟩
  dsimp only
  rw [Table.get?_upsert]
  by_cases hkey : key = (row.bucket, user.1, user.2, row.domain)
  · rw [if_pos hkey, if_pos hkey, Option.getD_some, hkey]
  · rw [if_neg hkey, if_neg hkey]
    exact (add_zero _).symm

/-- **What a row of a checkpoint adds**, where there is room and no head of the first version. -/
theorem recordRow_taken {row : OtherDomainCounter} {user : String × String}
    (h : recordRow console report floor owner old pending row = .ok pending')
    (hversion : report.version = DETAIL_CHECKPOINT_VERSION) (howner : owner row.label = some user)
    (hlegacy : old (row.legacyKey report.epoch) = none) (hroom : pending'.full = false) :
    pending.full = false ∧ (row.bucket < floor → pending' = pending) ∧ (floor ≤ row.bucket →
        let before := (old (row.headKey report.epoch)).getD (0, 0)
        let after := row.bytes ⊔ before
        pending'.writes
            = pending.writes ++ (if after = before then [] else [(row.headKey report.epoch, after)])
          ∧ ∀ key, (pending'.totals.get? key).getD (0, 0) = (pending.totals.get? key).getD (0, 0)
            + if key = (row.bucket, user.1, user.2, row.domain) then after - before else (0, 0)) := by
  unfold recordRow at h
  dsimp only at h
  rw [howner] at h
  dsimp only at h
  by_cases hfloor : row.bucket < floor
  · simp only [hversion, hfloor, decide_true, Bool.and_self, if_true, Except.ok.injEq] at h
    exact ⟨h ▸ hroom, fun _ => h.symm, fun hle => absurd hle (not_le.mpr hfloor)⟩
  · have hbefore : ((old (row.headKey report.epoch)).orElse fun _ =>
        if (old (row.headKey report.epoch)).isNone && isFirstSegment report.counters row then
          old (row.legacyKey report.epoch) else none) = old (row.headKey report.epoch) := by
      rw [hlegacy, ite_self]
      cases old (row.headKey report.epoch) <;> rfl
    simp only [hversion, hfloor, decide_true, decide_false, Bool.and_false, Bool.true_and, hbefore,
      if_true, Bool.not_true, Bool.false_and, if_false, Bool.false_eq_true] at h
    rw [hlegacy] at h
    simp only [ite_self, and_true] at h
    generalize (old (row.headKey report.epoch)).getD (0, 0) = before at h ⊢
    by_cases hsame : row.bytes ⊔ before = before
    · rw [if_pos hsame, Except.ok.injEq] at h
      subst h
      refine ⟨hroom, fun _ => rfl, fun _ => ⟨?_, fun key => ?_⟩⟩
      · simp [hsame]
      · have hzero : row.bytes ⊔ before - before = (0, 0) := by
          rw [hsame]
          exact Prod.ext (Nat.sub_self _) (Nat.sub_self _)
        rw [hzero, ite_self]
        exact (add_zero _).symm
    · rw [if_neg hsame] at h
      split at h
      · rw [Except.ok.injEq] at h
        subst h
        exact absurd hroom (by simp)
      · obtain ⟨hfull, hwrites, htotals⟩ := addGrowth_full h hroom
        refine ⟨hfull, fun hlt => absurd hlt hfloor, fun _ => ⟨?_, htotals⟩⟩
        rw [hwrites, if_neg hsame]

/-! ### The rows of a report -/

/-- Where the rows so far have brought the transaction. -/
structure Counted (owner : String → Option (String × String)) (epoch : String) (floor : ℤ)
    (heads : Table HeadKey Bytes) (rows : List OtherDomainCounter) (pending : Pending) : Prop where
  /-- a head is what it was or what a row says, whichever is more -/
  headed : ∀ segment : Segment, floor ≤ segment.1 →
    headBytes (pending.headsOver heads) epoch segment
      = headBytes heads epoch segment ⊔ greatest rows segment
  /-- an hour is owed what its segments grew -/
  owed : ∀ key : HourKey, floor ≤ key.1 → (pending.totals.get? key).getD (0, 0)
    = ((rows.filter fun row => decide (Segment.hourKey owner row.segment = some key)).map
        (growth heads epoch)).sum
  /-- an hour from before the window is owed nothing -/
  passed : ∀ key : HourKey, key.1 < floor → (pending.totals.get? key).getD (0, 0) = (0, 0)
  /-- only the rows' heads are written -/
  written : ∀ write ∈ pending.writes, ∃ row ∈ rows, write.1 = row.headKey epoch

theorem Counted.start : Counted owner epoch floor tables.heads [] (.start tables report) where
  headed _ _ := (sup_eq_left.mpr (zero_le_bytes _)).symm
  owed _ _ := rfl
  passed _ _ := rfl
  written _ hwrite := absurd hwrite List.not_mem_nil

theorem Counted.row {rows : List OtherDomainCounter} {row : OtherDomainCounter}
    (hcounted : Counted owner report.epoch floor heads rows pending)
    (h : recordRow console report floor owner old pending row = .ok pending')
    (hversion : report.version = DETAIL_CHECKPOINT_VERSION)
    (howner : (owner row.label).isSome = true) (hlegacy : old (row.legacyKey report.epoch) = none)
    (hold : floor ≤ row.bucket →
      old (row.headKey report.epoch) = heads.get? (row.headKey report.epoch))
    (hnew : ∀ r ∈ rows, r.segment ≠ row.segment) (hroom : pending'.full = false) :
    Counted owner report.epoch floor heads (rows ++ [row]) pending' := by
  obtain ⟨user, huser⟩ := Option.isSome_iff_exists.mp howner
  obtain ⟨-, hout, hin⟩ := recordRow_taken h hversion huser hlegacy hroom
  have hkey : Segment.hourKey owner row.segment = some (row.bucket, user.1, user.2, row.domain) := by
    show (owner row.label).map _ = _
    rw [huser]
    rfl
  by_cases hfloor : row.bucket < floor
  · -- the row is from before the window: nothing the invariant speaks of
    rw [hout hfloor]
    refine ⟨fun segment hsegment => ?_, fun key hle => ?_, hcounted.passed, fun write hwrite => ?_⟩
    · have hne : row.segment ≠ segment := by
        rintro rfl
        exact absurd hsegment (not_le.mpr hfloor)
      have hzero : greatest [row] segment = (0, 0) :=
        greatest_eq_zero fun r hr => List.mem_singleton.mp hr ▸ hne
      rw [hcounted.headed segment hsegment, greatest_append, hzero,
        sup_eq_left.mpr (zero_le_bytes (greatest rows segment))]
    · have hne : ¬ Segment.hourKey owner row.segment = some key := by
        rw [hkey, Option.some.injEq]
        rintro rfl
        exact absurd hle (not_le.mpr hfloor)
      rw [hcounted.owed key hle, List.filter_append, List.filter_cons_of_neg (by simpa using hne),
        List.filter_nil, List.append_nil]
    · obtain ⟨r, hr, heq⟩ := hcounted.written write hwrite
      exact ⟨r, List.mem_append_left _ hr, heq⟩
  · obtain ⟨hwrites, htotals⟩ := hin (not_lt.mp hfloor)
    have hbefore : (old (row.headKey report.epoch)).getD (0, 0)
        = headBytes heads report.epoch row.segment := by
      rw [hold (not_lt.mp hfloor)]
      rfl
    rw [hbefore] at hwrites htotals
    have hover : ∀ segment : Segment, headBytes (pending'.headsOver heads) report.epoch segment
        = if segment = row.segment ∧ ¬ row.bytes ⊔ headBytes heads report.epoch row.segment
              = headBytes heads report.epoch row.segment then
            row.bytes ⊔ headBytes heads report.epoch row.segment
          else headBytes (pending.headsOver heads) report.epoch segment := by
      intro segment
      unfold Pending.headsOver
      rw [hwrites, List.foldl_append]
      by_cases hsame : row.bytes ⊔ headBytes heads report.epoch row.segment
          = headBytes heads report.epoch row.segment
      · rw [if_pos hsame, if_neg fun h => h.2 hsame]
        rfl
      · rw [if_neg hsame, List.foldl_cons, List.foldl_nil]
        show headBytes (Table.put _ (Segment.headKey report.epoch row.segment) _) _ _ = _
        rw [headBytes_put]
        simp only [hsame, not_false_eq_true, and_true]
    refine ⟨fun segment hsegment => ?_, fun key hle => ?_, fun key hlt => ?_, fun write hwrite => ?_⟩
    · rw [hover segment, hcounted.headed segment hsegment, greatest_append]
      by_cases hseg : segment = row.segment
      · subst hseg
        have hone : greatest [row] row.segment = row.bytes :=
          greatest_of_nodup (by simp) List.mem_cons_self
        rw [greatest_eq_zero hnew, hone, sup_eq_left.mpr (zero_le_bytes (headBytes heads _ _)),
          sup_eq_right.mpr (zero_le_bytes row.bytes), sup_comm row.bytes]
        split
        · rfl
        · rename_i hnot
          by_contra hne
          exact hnot ⟨rfl, fun h => hne h.symm⟩
      · have hzero : greatest [row] segment = (0, 0) :=
          greatest_eq_zero fun r hr => List.mem_singleton.mp hr ▸ fun h => hseg h.symm
        rw [if_neg fun h => hseg h.1, hzero, sup_eq_left.mpr (zero_le_bytes (greatest rows segment))]
    · rw [htotals key, hcounted.owed key hle, List.filter_append, List.map_append, List.sum_append]
      congr 1
      by_cases hsame : key = (row.bucket, user.1, user.2, row.domain)
      · subst hsame
        rw [if_pos rfl, List.filter_cons_of_pos (by simpa using hkey)]
        exact (List.sum_singleton).symm
      · have hne : ¬ Segment.hourKey owner row.segment = some key := by
          rw [hkey, Option.some.injEq]
          exact fun h => hsame h.symm
        rw [if_neg hsame, List.filter_cons_of_neg (by simpa using hne)]
        rfl
    · rw [htotals key, hcounted.passed key hlt, if_neg]
      · exact zero_add _
      · rintro rfl
        exact hfloor hlt
    · rw [hwrites, List.mem_append] at hwrite
      rcases hwrite with hwrite | hwrite
      · obtain ⟨r, hr, heq⟩ := hcounted.written write hwrite
        exact ⟨r, List.mem_append_left _ hr, heq⟩
      · split at hwrite
        · exact absurd hwrite List.not_mem_nil
        · exact ⟨row, List.mem_append_right _ List.mem_cons_self,
            congrArg Prod.fst (List.mem_singleton.mp hwrite)⟩

theorem Counted.rows {rows rest : List OtherDomainCounter}
    (hcounted : pending.full = false → Counted owner report.epoch floor heads rows pending)
    (h : rest.foldlM (recordRow console report floor owner old) pending = .ok pending')
    (hversion : report.version = DETAIL_CHECKPOINT_VERSION)
    (howner : ∀ row ∈ rest, (owner row.label).isSome = true)
    (hlegacy : ∀ row ∈ rest, old (row.legacyKey report.epoch) = none)
    (hold : ∀ row ∈ rest, floor ≤ row.bucket →
      old (row.headKey report.epoch) = heads.get? (row.headKey report.epoch))
    (hnodup : ((rows ++ rest).map OtherDomainCounter.segment).Nodup)
    (hroom : pending'.full = false) :
    Counted owner report.epoch floor heads (rows ++ rest) pending' := by
  induction rest generalizing rows pending with
  | nil =>
    rw [List.foldlM_nil, Fallible.pure_eq_ok] at h
    rw [List.append_nil]
    exact h ▸ hcounted (h ▸ hroom)
  | cons row rest ih =>
    rw [List.foldlM_cons, Fallible.bind_eq_ok] at h
    obtain ⟨next, hrow, hrest⟩ := h
    have happend : rows ++ row :: rest = (rows ++ [row]) ++ rest := by simp
    rw [happend] at hnodup ⊢
    refine ih (fun hnext => ?_) hrest (fun r hr => howner r (List.mem_cons_of_mem _ hr))
      (fun r hr => hlegacy r (List.mem_cons_of_mem _ hr))
      (fun r hr => hold r (List.mem_cons_of_mem _ hr)) hnodup
    obtain ⟨user, huser⟩ := Option.isSome_iff_exists.mp (howner row List.mem_cons_self)
    obtain ⟨hfull, -, -⟩ :=
      recordRow_taken hrow hversion huser (hlegacy row List.mem_cons_self) hnext
    refine (hcounted hfull).row hrow hversion (howner row List.mem_cons_self)
      (hlegacy row List.mem_cons_self) (hold row List.mem_cons_self) (fun r hr hseg => ?_) hnext
    rw [List.map_append, List.map_append] at hnodup
    have hdisjoint := (List.nodup_append.mp (List.nodup_append.mp hnodup).1).2.2
    exact hdisjoint _ (List.mem_map_of_mem hr) _ (by simp) hseg

theorem growth_sum {rows : List OtherDomainCounter}
    (hnodup : (rows.map OtherDomainCounter.segment).Nodup) :
    ((rows.filter fun row => decide (Segment.hourKey owner row.segment = some key)).map
        (growth heads epoch)).sum
      = ∑ segment ∈ segmentsOf owner rows key,
        (headBytes heads epoch segment ⊔ greatest rows segment - headBytes heads epoch segment) := by
  unfold segmentsOf
  rw [List.sum_toFinset _ (hnodup.filter _), List.filter_map, List.map_map]
  congr 1
  refine List.map_congr_left fun row hrow => ?_
  show growth heads epoch row = _
  unfold growth
  rw [sup_comm]
  show _ = headBytes heads epoch row.segment ⊔ greatest rows row.segment - _
  rw [greatest_of_nodup hnodup (List.mem_of_mem_filter hrow)]

/-! ### The transaction -/

theorem addHourly_fold {entries : List (HourKey × Bytes)} {hourly hourly' : Table HourKey Bytes}
    (h : entries.foldlM addHourly hourly = .ok hourly') (key : HourKey) :
    (hourly'.get? key).getD (0, 0) = (hourly.get? key).getD (0, 0)
      + ((entries.filter fun entry => decide (entry.1 = key)).map Prod.snd).sum := by
  induction entries generalizing hourly with
  | nil =>
    rw [List.foldlM_nil, Fallible.pure_eq_ok] at h
    rw [h]
    exact (add_zero _).symm
  | cons entry entries ih =>
    rw [List.foldlM_cons, Fallible.bind_eq_ok] at h
    obtain ⟨next, hentry, hrest⟩ := h
    rw [ih hrest]
    unfold addHourly at hentry
    dsimp only at hentry
    split at hentry
    · cases hentry
    rw [Except.ok.injEq] at hentry
    rw [← hentry, Table.get?_upsert]
    by_cases hkey : entry.1 = key
    · rw [if_pos hkey.symm, List.filter_cons_of_pos (by simpa using hkey), List.map_cons,
        List.sum_cons, Option.getD_some, hkey, add_assoc]
    · rw [if_neg fun h => hkey h.symm, List.filter_cons_of_neg (by simpa using hkey)]

theorem foldl_put_absent {writes : List (HeadKey × Bytes)} {key : HeadKey}
    (h : ∀ write ∈ writes, write.1 ≠ key) :
    (writes.foldl (fun heads write => heads.put write.1 write.2) heads).get? key
      = heads.get? key := by
  induction writes generalizing heads with
  | nil => rfl
  | cons write writes ih =>
    rw [List.foldl_cons, ih fun w hw => h w (List.mem_cons_of_mem _ hw), Table.get?_put,
      if_neg fun heq => h write List.mem_cons_self heq.symm]

theorem commitRows_taken {tables' : DetailTables} {now : ℤ}
    (h : commitRows console tables now report pending = .ok tables') :
    (∀ key, key.1 = report.epoch → (pending.headsOver tables.heads).get? key = none →
        tables'.heads.get? key = none)
      ∧ (∀ segment : Segment, segment.2.2.2 ≠ 0 → replayFloor now ≤ segment.1 →
        headBytes tables'.heads report.epoch segment
          = headBytes (pending.headsOver tables.heads) report.epoch segment)
      ∧ ∀ key : HourKey, now - console.historyHours * 3600 ≤ key.1 →
        (tables'.hourly.get? key).getD (0, 0)
          = (tables.hourly.get? key).getD (0, 0) + (pending.totals.get? key).getD (0, 0) := by
  unfold commitRows at h
  dsimp only at h
  split at h
  · cases h
  rename_i hourly hfold
  rw [Except.ok.injEq] at h
  subst h
  refine ⟨fun key _ hnone => ?_, fun segment hid hfloor => ?_, fun key hkept => ?_⟩
  · have hlegacy : ∀ p, ((pending.headsOver tables.heads).deleteWhere p).get? key = none := by
      intro p
      rw [Table.get?_deleteWhere, hnone, ite_self]
    dsimp only
    rw [Table.get?_deleteWhere]
    split
    · rfl
    · split
      · exact hlegacy _
      · exact hnone
  · have hbucket : (Segment.headKey report.epoch segment).2.1 = segment.1 := rfl
    have hlifetime : (Segment.headKey report.epoch segment).1 ≠ report.epoch :=
      counterEpoch_ne hid
    unfold headBytes
    dsimp only
    rw [Table.get?_deleteWhere, if_neg (by simpa [hbucket] using hfloor)]
    split
    · rw [Table.get?_deleteWhere, if_neg (by simp [hlifetime])]
      rfl
    · rfl
  · have hexpired : key ∉ expiredHours hourly (now - console.historyHours * 3600) := by
      intro hmem
      have hmem := (List.mem_insertionSort _).mp (List.mem_of_mem_take hmem)
      have hlt := of_decide_eq_true (List.mem_filter.mp hmem).2
      exact absurd hlt (not_lt.mpr hkept)
    dsimp only
    rw [Table.get?_deleteWhere, if_neg (by simpa using hexpired), addHourly_fold hfold]
    congr 1
    exact Table.total_eq_get? pending.totals key

/-- No row is dropped for want of room. -/
def hasRoom (console : DetailConsole) (tables : DetailTables) (now : ℤ)
    (report : OtherDomainReport) : Bool :=
  match console.generations report.usageGenerationId with
  | none => true
  | some generation =>
    match recordRows console tables now report generation with
    | .ok pending => !pending.full
    | .error _ => true

/-- Every label is a user's, the one `owner` says. -/
def OwnedBy (console : DetailConsole) (report : OtherDomainReport)
    (owner : String → Option (String × String)) : Prop :=
  ∀ generation, console.generations report.usageGenerationId = some generation →
    ∀ row ∈ report.counters, otherDomainOwner generation row.label = owner row.label
      ∧ (owner row.label).isSome = true

/-- Nothing is left of the epoch from reports of the first version. -/
def NoLegacy (tables : DetailTables) (epoch : String) : Prop :=
  ∀ key, key.1 = epoch → tables.heads.get? key = none

/-- What is taken of a report of checkpoints. -/
structure Taken (console : DetailConsole) (tables tables' : DetailTables) (now : ℤ)
    (report : OtherDomainReport) (owner : String → Option (String × String)) : Prop where
  /-- a row is of a segment of its own -/
  counterId_ne : ∀ row ∈ report.counters, row.counterId ≠ 0
  noLegacy : NoLegacy tables' report.epoch
  /-- a head is what it was or what the report says, whichever is more -/
  headed : ∀ segment : Segment, segment.2.2.2 ≠ 0 → replayFloor now ≤ segment.1 →
    headBytes tables'.heads report.epoch segment
      = headBytes tables.heads report.epoch segment ⊔ greatest report.counters segment
  /-- an hour gains what its segments grew -/
  gained : ∀ key : HourKey, replayFloor now ≤ key.1 → now - console.historyHours * 3600 ≤ key.1 →
    (tables'.hourly.get? key).getD (0, 0) = (tables.hourly.get? key).getD (0, 0)
      + ∑ segment ∈ segmentsOf owner report.counters key,
        (headBytes tables.heads report.epoch segment ⊔ greatest report.counters segment
          - headBytes tables.heads report.epoch segment)
  /-- an hour from before the window stays -/
  passed : ∀ key : HourKey, key.1 < replayFloor now → now - console.historyHours * 3600 ≤ key.1 →
    (tables'.hourly.get? key).getD (0, 0) = (tables.hourly.get? key).getD (0, 0)

theorem recordRow_owner {owner' : String → Option (String × String)}
    (h : ∀ row ∈ report.counters, owner' row.label = owner row.label) :
    report.counters.foldlM (recordRow console report floor owner' old) pending
      = report.counters.foldlM (recordRow console report floor owner old) pending := by
  have hrow : ∀ row ∈ report.counters, ∀ pending, recordRow console report floor owner' old pending row
      = recordRow console report floor owner old pending row := by
    intro row hrow pending
    unfold recordRow
    rw [h row hrow]
  generalize report.counters = rows at hrow
  induction rows generalizing pending with
  | nil => rfl
  | cons row rows ih =>
    rw [List.foldlM_cons, List.foldlM_cons, hrow row List.mem_cons_self]
    congr 1
    funext next
    exact ih fun r hr => hrow r (List.mem_cons_of_mem _ hr)

/-- **A report of checkpoints that is taken** moves every segment's head to the greatest value
and adds to the hours what the segments grew. -/
theorem recordFor_taken {tables' : DetailTables} {now : ℤ}
    (h : recordFor console tables now report = .ok tables')
    (hversion : report.version = DETAIL_CHECKPOINT_VERSION) (howner : OwnedBy console report owner)
    (hlegacy : NoLegacy tables report.epoch) (hroom : hasRoom console tables now report = true) :
    Taken console tables tables' now report owner := by
  unfold recordFor at h
  split at h
  · exact absurd h nofun
  rename_i hvalid
  rw [validateFor_iff, hversion, rowsOk_iff] at hvalid
  obtain ⟨-, hrows, -, hnodup⟩ := hvalid
  have hid : ∀ row ∈ report.counters, row.counterId ≠ 0 := by
    intro row hrow
    have hok := (hrows row hrow).1
    unfold rowOk at hok
    simp only [decide_true, cond_true, Bool.and_eq_true, decide_eq_true_eq] at hok
    exact hok.2.1
  have hbucket : ∀ row ∈ report.counters, row.bucket ≤ hourOf report.readAtUnixSecs := by
    intro row hrow
    have hok := (hrows row hrow).1
    unfold rowOk at hok
    simp only [Bool.and_eq_true, Bool.or_eq_true, decide_eq_true_eq] at hok
    rcases hok.1.1.1.2 with heq | heq
    · exact heq.le
    · omega
  by_cases hlate : hourOf report.readAtUnixSecs < replayFloor now
  · -- from before the window as a whole
    have hrefuse : refuse console tables now report = some (.ok tables) := by
      unfold refuse
      simp [hversion, hlate]
    rw [hrefuse, Except.ok.injEq] at h
    subst h
    have hnone : ∀ segment : Segment, replayFloor now ≤ segment.1 →
        ∀ row ∈ report.counters, row.segment ≠ segment := by
      rintro segment hfloor row hrow rfl
      exact absurd (hfloor.trans (hbucket row hrow)) (not_le.mpr hlate)
    refine ⟨hid, hlegacy, fun segment _ hfloor => ?_, fun key hfloor _ => ?_, fun _ _ _ => rfl⟩
    · rw [greatest_eq_zero (hnone segment hfloor), sup_eq_left.mpr (zero_le_bytes _)]
    · have hempty : segmentsOf owner report.counters key = ∅ := by
        refine Finset.eq_empty_of_forall_notMem fun segment hmem => ?_
        obtain ⟨⟨row, hrow, hseg⟩, hkey⟩ := mem_segmentsOf.mp hmem
        obtain ⟨user, -, rfl⟩ := Option.map_eq_some_iff.mp hkey
        exact hnone segment hfloor row hrow hseg
      rw [hempty, Finset.sum_empty]
      exact (add_zero _).symm
  · have hrefuse : refuse console tables now report = none := by
      unfold refuse
      simp [hversion, hlate]
    rw [hrefuse] at h
    dsimp only at h
    unfold hasRoom at hroom
    split at h
    · exact absurd h nofun
    rename_i generation hgeneration
    rw [hgeneration] at hroom
    dsimp only at hroom
    split at h
    · exact absurd h nofun
    rename_i pending hpending
    rw [hpending] at hroom
    have hfull : pending.full = false := by simpa using hroom
    have howned := howner generation hgeneration
    unfold recordRows at hpending
    dsimp only at hpending
    rw [recordRow_owner fun row hrow => (howned row hrow).1] at hpending
    have hcounted := Counted.rows (fun _ => Counted.start) hpending hversion
      (fun row hrow => (howned row hrow).2) (fun row hrow => ?_) (fun row hrow hfloor => ?_) hnodup
      hfull
    · rw [List.nil_append] at hcounted
      obtain ⟨hnone, hheads, hhours⟩ := commitRows_taken h
      refine ⟨hid, fun key hkey => ?_, fun segment hne hfloor => ?_, fun key hfloor hkept => ?_,
        fun key hfloor hkept => ?_⟩
      · refine hnone key hkey ?_
        unfold Pending.headsOver
        rw [foldl_put_absent fun write hwrite heq => ?_]
        · exact hlegacy key hkey
        · obtain ⟨row, hrow, hhead⟩ := hcounted.written write hwrite
          exact counterEpoch_ne (hid row hrow)
            ((congrArg Prod.fst (hhead.symm.trans heq)).trans hkey)
      · rw [hheads segment hne hfloor, hcounted.headed segment hfloor]
      · rw [hhours key hkept, hcounted.owed key hfloor, growth_sum hnodup]
      · rw [hhours key hkept, hcounted.passed key hfloor]
        exact add_zero _
    · unfold oldHeads
      rw [hlegacy (row.legacyKey report.epoch) rfl, ite_self]
    · unfold oldHeads
      rw [if_pos ⟨List.mem_append_left _ (List.mem_map.mpr ⟨row, hrow, rfl⟩), hfloor,
        List.mem_map_of_mem hrow⟩]

end Brocade.Detail
