/-
Which reports of checkpoints are taken.

The rows of a report come to no more than what it says of an hour, and only hours of the replay
window are written.  So a report that passes its validation, of a generation of the machine and
with every label a user's, is taken, unless an hour would outgrow its column.
-/
import Brocade.Detail.Ledger

namespace Brocade.Detail

open Usage (StoreError)

variable {rows rest : List OtherDomainCounter} {row : OtherDomainCounter} {key : HourKey}
    {owner : String → Option (String × String)} {report : OtherDomainReport}
    {console : DetailConsole} {tables : DetailTables} {pending : Pending} {floor : ℤ}
    {old : HeadKey → Option Bytes}

/-- What rows say of an hour, one after the other. -/
def said (owner : String → Option (String × String)) (rows : List OtherDomainCounter)
    (key : HourKey) : Bytes :=
  ((rows.filter fun row => decide (Segment.hourKey owner row.segment = some key)).map
    OtherDomainCounter.bytes).sum

theorem said_append (owner : String → Option (String × String)) (rows rest : List OtherDomainCounter)
    (key : HourKey) : said owner (rows ++ rest) key = said owner rows key + said owner rest key := by
  simp [said]

theorem said_eq_reported (hnodup : (rows.map OtherDomainCounter.segment).Nodup) :
    said owner rows key = reported owner rows key := by
  have hsum : ((rows.filter fun row => decide (Segment.hourKey owner row.segment = some key)).map
      (growth .empty "")).sum = _ := growth_sum hnodup
  have hzero : ∀ segment, headBytes .empty "" segment = (0, 0) := fun _ => rfl
  have hgrowth : ∀ row : OtherDomainCounter, growth .empty "" row = row.bytes := by
    intro row
    unfold growth
    rw [hzero, sup_eq_left.mpr (zero_le_bytes _)]
    rfl
  have hgreatest : ∀ segment, headBytes .empty "" segment ⊔ greatest rows segment
      - headBytes .empty "" segment = greatest rows segment := by
    intro segment
    rw [hzero, sup_eq_right.mpr (zero_le_bytes _)]
    rfl
  simp only [hgreatest] at hsum
  unfold said reported
  rw [← hsum]
  exact congrArg List.sum (List.map_congr_left fun row _ => (hgrowth row).symm)

/-! ### The rows -/

/-- What the rows so far come to is no more than they say, and of the window only. -/
structure Modest (owner : String → Option (String × String)) (floor : ℤ)
    (rows : List OtherDomainCounter) (pending : Pending) : Prop where
  bounded : ∀ key, (pending.totals.get? key).getD (0, 0) ≤ said owner rows key
  recent : ∀ key, pending.totals.contains key = true → floor ≤ key.1

theorem Modest.more (hmodest : Modest owner floor rows pending) (row : OtherDomainCounter) :
    Modest owner floor (rows ++ [row]) pending where
  bounded key := by
    rw [said_append]
    exact (hmodest.bounded key).trans ⟨Nat.le_add_right _ _, Nat.le_add_right _ _⟩
  recent := hmodest.recent

theorem Modest.addGrowth {user : String × String} {capacity : ℕ} {newHead : Bool}
    {before after : Bytes} (hmodest : Modest owner floor rows pending)
    (howner : owner row.label = some user) (hfloor : floor ≤ row.bucket)
    (hgrowth : after - before ≤ row.bytes)
    (hfits : ∀ key, said owner (rows ++ [row]) key ≤ (I64_MAX, I64_MAX)) :
    ∃ pending', addGrowth report row user capacity newHead before after pending = .ok pending'
      ∧ Modest owner floor (rows ++ [row]) pending' := by
  have hone : said owner [row] (row.bucket, user.1, user.2, row.domain) = row.bytes := by
    have hkey : Segment.hourKey owner row.segment
        = some (row.bucket, user.1, user.2, row.domain) := by
      show (owner row.label).map _ = _
      rw [howner]
      rfl
    unfold said
    rw [List.filter_cons_of_pos (by simpa using hkey)]
    exact List.sum_singleton
  have htotal : (pending.totals.get? (row.bucket, user.1, user.2, row.domain)).getD (0, 0)
      + (after - before) ≤ said owner (rows ++ [row]) (row.bucket, user.1, user.2, row.domain) := by
    rw [said_append, hone]
    exact ⟨Nat.add_le_add (hmodest.bounded _).1 hgrowth.1,
      Nat.add_le_add (hmodest.bounded _).2 hgrowth.2⟩
  unfold Detail.addGrowth
  dsimp only
  split
  · exact ⟨_, rfl, (hmodest.more row).bounded, hmodest.recent⟩
  · have hroom := htotal.trans (hfits _)
    rw [if_neg (not_or.mpr ⟨not_lt.mpr hroom.1, not_lt.mpr hroom.2⟩)]
    refine ⟨_, rfl, fun key => ?_, fun key hkey => ?_⟩
    · dsimp only
      rw [Table.get?_upsert]
      by_cases hsame : key = (row.bucket, user.1, user.2, row.domain)
      · rw [if_pos hsame, hsame]
        exact htotal
      · rw [if_neg hsame]
        exact (hmodest.more row).bounded key
    · dsimp only at hkey
      obtain ⟨bytes, hbytes⟩ := Table.contains_iff.mp hkey
      rw [Table.get?_upsert] at hbytes
      by_cases hsame : key = (row.bucket, user.1, user.2, row.domain)
      · rw [hsame]
        exact hfloor
      · rw [if_neg hsame] at hbytes
        exact hmodest.recent key (Table.contains_iff.mpr ⟨bytes, hbytes⟩)

/-- A row of a checkpoint whose label is a user's is never an error while the hours fit. -/
theorem Modest.next (hmodest : Modest owner floor rows pending)
    (hversion : report.version = DETAIL_CHECKPOINT_VERSION)
    (howner : (owner row.label).isSome = true)
    (hfits : ∀ key, said owner (rows ++ [row]) key ≤ (I64_MAX, I64_MAX)) :
    ∃ pending', recordRow console report floor owner old pending row = .ok pending'
      ∧ Modest owner floor (rows ++ [row]) pending' := by
  obtain ⟨user, huser⟩ := Option.isSome_iff_exists.mp howner
  have hkept := hmodest.more row
  unfold recordRow
  rw [huser]
  dsimp only
  split
  · exact ⟨_, rfl, hkept⟩
  · next hnot =>
    have hfloor : floor ≤ row.bucket := by simpa [hversion] using hnot
    generalize (if (decide (report.version = DETAIL_CHECKPOINT_VERSION)
      && (old (row.headKey report.epoch)).isNone && isFirstSegment report.counters row) = true then
        old (row.legacyKey report.epoch) else none) = legacy
    generalize ((old (row.headKey report.epoch)).orElse fun _ => legacy).getD (0, 0) = before
    simp only [hversion, decide_true, if_true, Bool.not_true, Bool.false_and, Bool.false_eq_true,
      if_false]
    split
    · exact ⟨_, rfl, hkept⟩
    split
    · exact ⟨_, rfl, hkept.bounded, hkept.recent⟩
    · refine hmodest.addGrowth huser hfloor ?_ hfits
      exact ⟨by simp [Prod.sup_def], by simp [Prod.sup_def]⟩

theorem Modest.all (hversion : report.version = DETAIL_CHECKPOINT_VERSION)
    (howner : ∀ row ∈ rest, (owner row.label).isSome = true)
    (hfits : ∀ key, said owner (rows ++ rest) key ≤ (I64_MAX, I64_MAX))
    (hmodest : Modest owner floor rows pending) :
    ∃ pending', rest.foldlM (recordRow console report floor owner old) pending = .ok pending'
      ∧ Modest owner floor (rows ++ rest) pending' := by
  induction rest generalizing rows pending with
  | nil => exact ⟨pending, rfl, by rwa [List.append_nil]⟩
  | cons row rest ih =>
    have happend : rows ++ row :: rest = (rows ++ [row]) ++ rest := by simp
    rw [happend] at hfits ⊢
    have hroom : ∀ key, said owner (rows ++ [row]) key ≤ (I64_MAX, I64_MAX) := by
      intro key
      have hle := hfits key
      rw [said_append] at hle
      exact le_trans ⟨Nat.le_add_right _ _, Nat.le_add_right _ _⟩ hle
    obtain ⟨next, hrow, hnext⟩ : ∃ next, recordRow console report floor owner old pending row
        = .ok next ∧ Modest owner floor (rows ++ [row]) next :=
      hmodest.next hversion (howner row List.mem_cons_self) hroom
    obtain ⟨pending', hrest, hmodest'⟩ :=
      ih (fun r hr => howner r (List.mem_cons_of_mem _ hr)) hfits hnext
    refine ⟨pending', ?_, hmodest'⟩
    rw [List.foldlM_cons, Fallible.bind_eq_ok]
    exact ⟨next, hrow, hrest⟩

/-! ### The hours -/

theorem addHourly_accepted {entries : List (HourKey × Bytes)} {hourly : Table HourKey Bytes}
    (hnodup : (entries.map Prod.fst).Nodup) (hrecent : ∀ entry ∈ entries, 0 < entry.1.1)
    (hfits : ∀ entry ∈ entries, (hourly.get? entry.1).getD (0, 0) + entry.2 ≤ (I64_MAX, I64_MAX)) :
    ∃ hourly', entries.foldlM addHourly hourly = .ok hourly' := by
  induction entries generalizing hourly with
  | nil => exact ⟨hourly, rfl⟩
  | cons entry entries ih =>
    obtain ⟨hnot, hrest⟩ := List.nodup_cons.mp hnodup
    have hroom := hfits entry List.mem_cons_self
    have hentry : addHourly hourly entry
        = .ok (hourly.upsert entry.1 fun bytes => bytes.getD (0, 0) + entry.2) := by
      unfold addHourly
      dsimp only
      rw [if_neg]
      simp only [not_or, not_le, not_lt]
      exact ⟨hrecent entry List.mem_cons_self, hroom.1, hroom.2⟩
    have hothers : ∀ e ∈ entries, ((hourly.upsert entry.1 fun bytes =>
        bytes.getD (0, 0) + entry.2).get? e.1).getD (0, 0) + e.2 ≤ (I64_MAX, I64_MAX) := by
      intro e he
      have hne : e.1 ≠ entry.1 := fun heq => hnot (heq ▸ List.mem_map_of_mem he)
      rw [Table.get?_upsert, if_neg hne]
      exact hfits e (List.mem_cons_of_mem _ he)
    obtain ⟨hourly', hhourly⟩ := ih hrest
      (fun e he => hrecent e (List.mem_cons_of_mem _ he)) hothers
    refine ⟨hourly', ?_⟩
    rw [List.foldlM_cons, Fallible.bind_eq_ok]
    exact ⟨_, hentry, hhourly⟩

/-- No hour outgrows its column by what a report says of it. -/
def Fits (tables : DetailTables) (report : OtherDomainReport)
    (owner : String → Option (String × String)) : Prop :=
  ∀ key, (tables.hourly.get? key).getD (0, 0) + reported owner report.counters key
    ≤ (I64_MAX, I64_MAX)

/-- **A report of checkpoints that passes its validation is taken.** -/
theorem recordFor_accepted {now : ℤ} (hversion : report.version = DETAIL_CHECKPOINT_VERSION)
    (hvalid : validateFor console.validKey report now = .ok ())
    (hgeneration : (console.generations report.usageGenerationId).isSome = true)
    (howner : OwnedBy console report owner) (hfloor : 0 < replayFloor now)
    (hfits : Fits tables report owner) : (recordFor console tables now report).isOk = true := by
  obtain ⟨generation, hgeneration⟩ := Option.isSome_iff_exists.mp hgeneration
  have howned := howner generation hgeneration
  have hnodup : (report.counters.map OtherDomainCounter.segment).Nodup :=
    (rowsOk_iff.mp (validateFor_iff.mp hvalid).2).2.2
  have hbound : ∀ key, (tables.hourly.get? key).getD (0, 0) + said owner report.counters key
      ≤ (I64_MAX, I64_MAX) := by
    intro key
    rw [said_eq_reported hnodup]
    exact hfits key
  have hsaid : ∀ key, said owner ([] ++ report.counters) key ≤ (I64_MAX, I64_MAX) := fun key =>
    le_trans ⟨Nat.le_add_left _ _, Nat.le_add_left _ _⟩ (hbound key)
  unfold recordFor
  rw [hvalid]
  dsimp only
  cases hrefuse : refuse console tables now report with
  | some result =>
    unfold refuse at hrefuse
    simp only [hversion, decide_true, Bool.not_true, Bool.false_and, Bool.and_false,
      Bool.false_eq_true, if_false] at hrefuse
    split at hrefuse
    · rw [← Option.some.inj hrefuse]
      rfl
    · cases hrefuse
  | none =>
    rw [hgeneration]
    dsimp only
    unfold recordRows
    dsimp only
    rw [recordRow_owner fun row hrow => (howned row hrow).1]
    have hstart : Modest owner (replayFloor now) [] (.start tables report) :=
      ⟨fun _ => zero_le_bytes _, fun _ hkey => absurd hkey Bool.false_ne_true⟩
    obtain ⟨pending, hrows, hmodest⟩ : ∃ pending, report.counters.foldlM
        (recordRow console report (replayFloor now) owner
          (oldHeads tables _ (replayFloor now) (report.counters.map (·.bucket))))
        (.start tables report) = .ok pending
          ∧ Modest owner (replayFloor now) ([] ++ report.counters) pending :=
      hstart.all hversion (fun row hrow => (howned row hrow).2) hsaid
    rw [hrows]
    dsimp only
    have hroom : ∀ entry ∈ pending.totals.rows,
        (tables.hourly.get? entry.1).getD (0, 0) + entry.2 ≤ (I64_MAX, I64_MAX) := by
      intro entry hentry
      have hle := hmodest.bounded entry.1
      rw [Table.get?_of_mem (v := entry.2) hentry] at hle
      exact le_trans ⟨Nat.add_le_add_left hle.1 _, Nat.add_le_add_left hle.2 _⟩ (hbound entry.1)
    obtain ⟨hourly, hhourly⟩ := addHourly_accepted pending.totals.nodup
      (fun entry hentry => hfloor.trans_le (hmodest.recent entry.1
        (Table.mem_keys.mp (List.mem_map_of_mem hentry)))) hroom
    unfold commitRows
    rw [hhourly]
    rfl

end Brocade.Detail
