/-
What a merged row says.

Every counter is read the same way, known or not, and a merged row reads the total of its samples
where each of them knows it and nothing otherwise.  A merge fails only on a total that the column
cannot store.
-/
import Brocade.Load.Rollup

namespace Brocade.Load

open Groups Fallible

variable {K : Kinds}

/-- The integer counters of a sample, the optional ones among them. -/
inductive Counter where
  | event (c : Event)
  | throttled
  | memory (c : MemoryEvent)
  | network (c : NetworkEvent)

/-- What a sample says of a counter. -/
def LoadSample.read (sample : LoadSample K) : Counter → Option ℕ
  | .event c => some (sample.events c)
  | .throttled => sample.cpuDetail.bind (·.throttledUsec)
  | .memory c => sample.memoryDetail.map fun d => d.events c
  | .network c => sample.networkDetail.bind fun d => d.events c

/-- A total is known where every part of it is. -/
def total? (values : List (Option ℕ)) : Option ℕ :=
  if values.all Option.isSome then some (values.filterMap id).sum else none

/-- The readings of one counter over a group. -/
def readings (samples : List (TimedSample K)) (k : Counter) : List (Option ℕ) :=
  samples.map fun s => s.sample.read k

/-! ### Totals -/

theorem foldlM_addChecked (values : List ℕ) : ∀ total ≤ I64_MAX,
    values.foldlM addChecked total = if total + values.sum ≤ I64_MAX then .ok (total + values.sum)
      else (.error exceedsRange : Except String ℕ) := by
  induction values with
  | nil =>
    intro total htotal
    rw [List.foldlM_nil, List.sum_nil, Nat.add_zero, if_pos htotal]
    rfl
  | cons value values ih =>
    intro total htotal
    rw [List.foldlM_cons, List.sum_cons]
    by_cases hfits : total + value ≤ I64_MAX
    · have hwide : total + value < 2 ^ 64 ∧ total + value ≤ I64_MAX := by
        refine ⟨?_, hfits⟩
        simp only [I64_MAX] at hfits
        omega
      show (if _ then Except.ok (total + value) else Except.error exceedsRange) >>= _ = _
      rw [if_pos hwide]
      show values.foldlM addChecked (total + value) = _
      rw [ih _ hfits, Nat.add_assoc]
    · have hnarrow : ¬(total + value < 2 ^ 64 ∧ total + value ≤ I64_MAX) := fun h => hfits h.2
      show (if _ then Except.ok (total + value) else Except.error exceedsRange) >>= _ = _
      rw [if_neg hnarrow, if_neg (by omega)]
      rfl

/-- **A total is exact, or does not fit.** -/
theorem sum_eq (values : List ℕ) :
    sum values = if values.sum ≤ I64_MAX then .ok values.sum else .error exceedsRange := by
  rw [sum, foldlM_addChecked values 0 (Nat.zero_le _), Nat.zero_add]

theorem optionalSum_ok {values : List (Option ℕ)} {total : Option ℕ}
    (h : optionalSum values = .ok total) : total = total? values := by
  rw [optionalSum] at h
  by_cases hall : values.all Option.isSome = true
  · rw [if_pos hall, sum_eq] at h
    rw [total?, if_pos hall]
    split_ifs at h
    · exact (Except.ok.inj h).symm
    · cases h
  · rw [if_neg hall] at h
    rw [total?, if_neg hall]
    exact (Except.ok.inj h).symm

theorem optionalSum_error {values : List (Option ℕ)} {e : String}
    (h : optionalSum values = .error e) : ∃ total, total? values = some total ∧ I64_MAX < total := by
  rw [optionalSum] at h
  by_cases hall : values.all Option.isSome = true
  · rw [if_pos hall, sum_eq] at h
    refine ⟨_, by rw [total?, if_pos hall], ?_⟩
    split_ifs at h with hfits
    · cases h
    · omega
  · rw [if_neg hall] at h
    cases h

theorem total?_some (values : List ℕ) : total? (values.map some) = some values.sum := by
  have hall : (values.map some).all Option.isSome = true := by simp
  rw [total?, if_pos hall]
  simp

section ForEach

variable {ι α : Type} {all : List ι} {f : ι → Except String α} {blank : α}

theorem forEach_ok {g : ι → α} (h : forEach all f blank = .ok g) : ∀ i ∈ all, f i = .ok (g i) := by
  intro i hi
  rw [forEach] at h
  cases hall : all.mapM f with
  | error e =>
    rw [hall] at h
    cases h
  | ok values =>
    rw [hall] at h
    obtain ⟨a, ha⟩ := mapM_ok_of_mem hall hi
    rw [← Except.ok.inj h]
    simp only [ha]

theorem forEach_error {e : String} (h : forEach all f blank = .error e) :
    ∃ i ∈ all, ∃ e', f i = .error e' := by
  rw [forEach] at h
  cases hall : all.mapM f with
  | error e' =>
          obtain ⟨i, hi, herror⟩ := mapM_eq_error hall
          exact ⟨i, hi, e', herror⟩
  | ok values =>
    rw [hall] at h
    cases h

end ForEach

theorem Event.mem_all (c : Event) : c ∈ Event.all := by cases c <;> simp [Event.all]

theorem MemoryEvent.mem_all (c : MemoryEvent) : c ∈ MemoryEvent.all := by
  cases c <;> simp [MemoryEvent.all]

theorem NetworkEvent.mem_all (c : NetworkEvent) : c ∈ NetworkEvent.all := by
  cases c <;> simp [NetworkEvent.all]

/-! ### Merged rows -/

section Details

variable {samples : List (TimedSample K)} {avg : Averaging K}

theorem total?_none {values : List (Option ℕ)} (h : none ∈ values) : total? values = none := by
  rw [total?, if_neg]
  intro hall
  exact absurd (List.all_eq_true.mp hall none h) (by simp)

theorem complete_cases {α : Type} (detail : LoadSample K → Option α) (last : LoadSample K)
    (samples : List (TimedSample K)) :
    (complete samples detail last = none ∧ ∃ s ∈ samples, detail s.sample = none) ∨
      (complete samples detail last = detail last ∧ ∀ s ∈ samples, (detail s.sample).isSome = true) := by
  rw [complete]
  by_cases hsome : (samples.any fun s => (detail s.sample).isNone) = true
  · rw [if_pos hsome]
    obtain ⟨s, hs, hnone⟩ := List.any_eq_true.mp hsome
    exact .inl ⟨rfl, s, hs, Option.isNone_iff_eq_none.mp hnone⟩
  · rw [if_neg hsome]
    refine .inr ⟨rfl, ?_⟩
    intro s hs
    by_contra hnone
    exact hsome (List.any_eq_true.mpr ⟨s, hs, by simpa using hnone⟩)

variable {lastSample : TimedSample K}

/-- What holds of a detail that is left out, and of one that is merged, holds of the result. -/
theorem mergeDetail_cases {α : Type} {detail : LoadSample K → Option α} {f : α → Except String α}
    {P : Option α → Prop} {Q : Prop} (hlast : lastSample ∈ samples)
    (hnone : (∃ s ∈ samples, detail s.sample = none) → P none)
    (hok : (∀ s ∈ samples, (detail s.sample).isSome = true) → ∀ d d', f d = .ok d' → P (some d'))
    (herror : (∀ s ∈ samples, (detail s.sample).isSome = true) → ∀ d e, f d = .error e → Q) :
    (∀ d, mergeDetail f (complete samples detail lastSample.sample) = .ok d → P d) ∧
      ∀ e, mergeDetail f (complete samples detail lastSample.sample) = .error e → Q := by
  obtain ⟨hcomplete, hmissing⟩ | ⟨hcomplete, hall⟩ := complete_cases detail lastSample.sample samples
  · rw [hcomplete]
    refine ⟨fun d hd => ?_, fun e he => by cases he⟩
    rw [← Except.ok.inj hd]
    exact hnone hmissing
  · rw [hcomplete]
    obtain ⟨d, hd⟩ := Option.isSome_iff_exists.mp (hall lastSample hlast)
    rw [hd]
    cases hf : f d with
    | error e =>
      refine ⟨fun d' hd' => ?_, fun e' _ => herror hall d e hf⟩
      simp [mergeDetail, hf, Except.map] at hd'
    | ok merged =>
      refine ⟨fun d' hd' => ?_, fun e' he' => ?_⟩
      · have hsame : some merged = d' := by simpa [mergeDetail, hf, Except.map] using hd'
        exact hsame ▸ hok hall d merged hf
      · simp [mergeDetail, hf, Except.map] at he'

/-- A total of the group that the column cannot store. -/
def Overflows (samples : List (TimedSample K)) : Prop :=
  ∃ k total, total? (readings samples k) = some total ∧ I64_MAX < total

theorem mem_readings_none {k : Counter} (h : ∃ s ∈ samples, s.sample.read k = none) :
    none ∈ readings samples k := by
  obtain ⟨s, hs, hnone⟩ := h
  exact List.mem_map.mpr ⟨s, hs, hnone⟩

theorem mergeCpu_read (hlast : lastSample ∈ samples) : (∀ d, mergeDetail (mergeCpu avg samples)
        (complete samples (·.cpuDetail) lastSample.sample) = .ok d →
      d.bind (·.throttledUsec) = total? (readings samples .throttled)) ∧
    ∀ e, mergeDetail (mergeCpu avg samples)
      (complete samples (·.cpuDetail) lastSample.sample) = .error e → Overflows samples := by
  apply mergeDetail_cases hlast
  · intro hmissing
    obtain ⟨s, hs, hnone⟩ := hmissing
    rw [total?_none (mem_readings_none ⟨s, hs, by rw [LoadSample.read, hnone]; rfl⟩)]
    rfl
  · intro _ d d' hmerge
    obtain ⟨throttled, hthrottled, hd⟩ := bind_eq_ok.mp hmerge
    rw [← Except.ok.inj hd]
    exact optionalSum_ok hthrottled
  · intro _ d e hmerge
    rw [mergeCpu] at hmerge
    cases hsum : optionalSum (samples.map fun s => s.sample.cpuDetail.bind (·.throttledUsec)) with
    | error e' =>
      obtain ⟨total, htotal, hover⟩ := optionalSum_error hsum
      exact ⟨.throttled, total, htotal, hover⟩
    | ok throttled =>
      rw [hsum] at hmerge
      cases hmerge

theorem memory_readings (h : ∀ s ∈ samples, s.sample.memoryDetail.isSome = true)
    (c : MemoryEvent) : readings samples (.memory c) =
      ((samples.filterMap fun s => s.sample.memoryDetail).map fun d => d.events c).map some := by
  induction samples with
  | nil => rfl
  | cons s samples ih =>
    obtain ⟨d, hd⟩ := Option.isSome_iff_exists.mp (h s List.mem_cons_self)
    have hrest := ih fun s' hs' => h s' (List.mem_cons_of_mem _ hs')
    rw [readings, List.map_cons, List.filterMap_cons, hd, List.map_cons, List.map_cons, ← hrest,
      LoadSample.read, hd]
    rfl

theorem mergeMemory_read (hlast : lastSample ∈ samples) :
    (∀ d, mergeDetail (mergeMemory avg samples)
        (complete samples (·.memoryDetail) lastSample.sample) = .ok d →
      ∀ c, d.map (fun m => m.events c) = total? (readings samples (.memory c))) ∧
    ∀ e, mergeDetail (mergeMemory avg samples)
      (complete samples (·.memoryDetail) lastSample.sample) = .error e → Overflows samples := by
  apply mergeDetail_cases hlast
  · intro hmissing c
    obtain ⟨s, hs, hnone⟩ := hmissing
    rw [total?_none (mem_readings_none ⟨s, hs, by rw [LoadSample.read, hnone]; rfl⟩)]
    rfl
  · intro hall d d' hmerge c
    obtain ⟨events, hevents, hd⟩ := bind_eq_ok.mp hmerge
    have hsum := forEach_ok hevents c (MemoryEvent.mem_all c)
    rw [sum_eq] at hsum
    rw [← Except.ok.inj hd, memory_readings hall, total?_some]
    split_ifs at hsum
    exact congrArg some (Except.ok.inj hsum).symm
  · intro hall d e hmerge
    rw [mergeMemory] at hmerge
    cases hevents : forEach MemoryEvent.all (fun c =>
        sum ((samples.filterMap fun s => s.sample.memoryDetail).map fun d => d.events c)) 0 with
    | error e' =>
      obtain ⟨c, -, e'', herror⟩ := forEach_error hevents
      refine ⟨.memory c, _, by rw [memory_readings hall, total?_some], ?_⟩
      rw [sum_eq] at herror
      split_ifs at herror with hfits
      omega
    | ok events =>
      rw [hevents] at hmerge
      cases hmerge

theorem mergeNetwork_read (hlast : lastSample ∈ samples) : (∀ d, mergeDetail (mergeNetwork samples)
        (complete samples (·.networkDetail) lastSample.sample) = .ok d →
      ∀ c, d.bind (fun n => n.events c) = total? (readings samples (.network c))) ∧
    ∀ e, mergeDetail (mergeNetwork samples)
      (complete samples (·.networkDetail) lastSample.sample) = .error e → Overflows samples := by
  apply mergeDetail_cases hlast
  · intro hmissing c
    obtain ⟨s, hs, hnone⟩ := hmissing
    rw [total?_none (mem_readings_none ⟨s, hs, by rw [LoadSample.read, hnone]; rfl⟩)]
    rfl
  · intro _ d d' hmerge c
    obtain ⟨events, hevents, hd⟩ := bind_eq_ok.mp hmerge
    rw [← Except.ok.inj hd]
    exact optionalSum_ok (forEach_ok hevents c (NetworkEvent.mem_all c))
  · intro _ d e hmerge
    rw [mergeNetwork] at hmerge
    cases hevents : forEach NetworkEvent.all (fun c => optionalSum
        (samples.map fun s => s.sample.networkDetail.bind fun d => d.events c)) none with
    | error e' =>
      obtain ⟨c, -, e'', herror⟩ := forEach_error hevents
      obtain ⟨total, htotal, hover⟩ := optionalSum_error herror
      exact ⟨.network c, total, htotal, hover⟩
    | ok events =>
      rw [hevents] at hmerge
      cases hmerge

end Details

/-- **A merged row**: its window spans the group, its counters are the group's totals, and what is
a snapshot is that of the last sample. -/
structure IsMerged (samples : List (TimedSample K)) (row : TimedSample K) : Prop where
  read : ∀ k, row.sample.read k = total? (readings samples k)
  start : ∃ first, samples.head? = some first ∧
    row.sample.windowStartUnixSecs = first.sample.windowStartUnixSecs
  last : ∃ last, samples.getLast? = some last ∧ row.btime = last.btime ∧
    row.sample.windowEndUnixSecs = last.sample.windowEndUnixSecs ∧
    row.sample.hasGap = last.sample.hasGap ∧ row.sample.snapshot = last.sample.snapshot ∧
    (∀ d ∈ row.sample.cpuDetail, ∃ d' ∈ last.sample.cpuDetail, d.snapshot = d'.snapshot) ∧
    (∀ d ∈ row.sample.memoryDetail, ∃ d' ∈ last.sample.memoryDetail, d.snapshot = d'.snapshot) ∧
    (∀ d ∈ row.sample.diskDetail, ∃ d' ∈ last.sample.diskDetail, d.snapshot = d'.snapshot) ∧
    ∀ d ∈ row.sample.networkDetail, ∃ d' ∈ last.sample.networkDetail, d.snapshot = d'.snapshot

section Merge

variable {samples : List (TimedSample K)} {avg : Averaging K}

theorem total?_singleton (value : Option ℕ) : total? [value] = value := by
  cases value with
  | none => rfl
  | some n => simp [total?]

theorem isMerged_singleton (only : TimedSample K) : IsMerged [only] only where
  read k := by rw [readings, List.map_singleton, total?_singleton]
  start := ⟨only, rfl, rfl⟩
  last := ⟨only, rfl, rfl, rfl, rfl, rfl, fun d hd => ⟨d, hd, rfl⟩, fun d hd => ⟨d, hd, rfl⟩,
    fun d hd => ⟨d, hd, rfl⟩, fun d hd => ⟨d, hd, rfl⟩⟩

theorem mergeDetail_last {α σ : Type} {detail : LoadSample K → Option α} {f : α → Except String α}
    (snapshot : α → σ) (hf : ∀ d d', f d = .ok d' → snapshot d' = snapshot d) {last : LoadSample K}
    {result : Option α} (h : mergeDetail f (complete samples detail last) = .ok result) :
    ∀ d ∈ result, ∃ d' ∈ detail last, snapshot d = snapshot d' := by
  intro d hd
  rw [Option.mem_def] at hd
  subst hd
  obtain ⟨hcomplete, -⟩ | ⟨hcomplete, -⟩ := complete_cases detail last samples
  · rw [hcomplete] at h
    cases h
  · rw [hcomplete] at h
    cases hlast : detail last with
    | none =>
      rw [hlast] at h
      cases h
    | some d' =>
      rw [hlast, mergeDetail] at h
      cases hmerge : f d' with
      | error e => simp [hmerge, Except.map] at h
      | ok merged =>
        have hsame : merged = d := by simpa [hmerge, Except.map] using h
        exact ⟨d', rfl, hsame ▸ hf d' merged hmerge⟩

/-- **A merge gives the totals of its group.** -/
theorem merged_ok (hne : samples ≠ []) {row : TimedSample K}
    (hrow : merged avg samples = .ok row) : IsMerged samples row := by
  match samples, hne with
  | [only], _ =>
    rw [← Except.ok.inj hrow]
    exact isMerged_singleton only
  | first :: second :: rest, _ =>
    have hlast := List.getLast?_eq_some_getLast (List.cons_ne_nil first (second :: rest))
    generalize (first :: second :: rest).getLast (List.cons_ne_nil _ _) = last at hlast
    have hmem : last ∈ first :: second :: rest := List.mem_of_getLast? hlast
    rw [merged, merge, hlast, Option.map_some, Option.getD_some] at hrow
    obtain ⟨events, hevents, hrow⟩ := bind_eq_ok.mp hrow
    obtain ⟨cpu, hcpu, hrow⟩ := bind_eq_ok.mp hrow
    obtain ⟨memory, hmemory, hrow⟩ := bind_eq_ok.mp hrow
    obtain ⟨network, hnetwork, hrow⟩ := bind_eq_ok.mp hrow
    rw [← Except.ok.inj hrow]
    refine ⟨?_, ⟨first, rfl, rfl⟩, ⟨last, hlast, rfl, rfl, rfl, rfl, ?_, ?_, ?_, ?_⟩⟩
    · intro k
      cases k with
      | event c =>
        have hsum := forEach_ok hevents c (Event.mem_all c)
        rw [sum_eq] at hsum
        split_ifs at hsum
        show some (events c) = _
        rw [← Except.ok.inj hsum, ← total?_some, List.map_map]
        rfl
      | throttled => exact (mergeCpu_read hmem).1 cpu hcpu
      | memory c => exact (mergeMemory_read hmem).1 memory hmemory c
      | network c => exact (mergeNetwork_read hmem).1 network hnetwork c
    · refine mergeDetail_last (fun d => d.snapshot) ?_ hcpu
      intro d d' hd
      obtain ⟨_, -, hd⟩ := bind_eq_ok.mp hd
      rw [← Except.ok.inj hd]
    · refine mergeDetail_last (fun d => d.snapshot) ?_ hmemory
      intro d d' hd
      obtain ⟨_, -, hd⟩ := bind_eq_ok.mp hd
      rw [← Except.ok.inj hd]
    · intro d hd
      obtain ⟨d', hd', rfl⟩ := Option.mem_map.mp hd
      obtain ⟨hcomplete, -⟩ | ⟨hcomplete, -⟩ :=
        complete_cases (fun sample => sample.diskDetail) last.sample (first :: second :: rest)
      · rw [hcomplete] at hd'
        cases hd'
      · rw [hcomplete] at hd'
        exact ⟨d', hd', rfl⟩
    · refine mergeDetail_last (fun d => d.snapshot) ?_ hnetwork
      intro d d' hd
      obtain ⟨_, -, hd⟩ := bind_eq_ok.mp hd
      rw [← Except.ok.inj hd]

/-- **A merge fails only on a total that does not fit.** -/
theorem merged_error (hne : samples ≠ []) {e : String} (he : merged avg samples = .error e) :
    2 ≤ samples.length ∧ Overflows samples := by
  match samples, hne with
  | [only], _ => cases he
  | first :: second :: rest, _ =>
    refine ⟨by simp, ?_⟩
    have hlast := List.getLast?_eq_some_getLast (List.cons_ne_nil first (second :: rest))
    generalize (first :: second :: rest).getLast (List.cons_ne_nil _ _) = last at hlast
    have hmem : last ∈ first :: second :: rest := List.mem_of_getLast? hlast
    rw [merged, merge, hlast, Option.map_some, Option.getD_some] at he
    rcases bind_eq_error.mp he with hevents | ⟨events, -, he⟩
    · obtain ⟨c, -, e', herror⟩ := forEach_error hevents
      refine ⟨.event c, ((first :: second :: rest).map fun s => s.sample.events c).sum, ?_, ?_⟩
      · rw [← total?_some, List.map_map]
        rfl
      · rw [sum_eq] at herror
        split_ifs at herror with hfits
        omega
    rcases bind_eq_error.mp he with hcpu | ⟨cpu, -, he⟩
    · exact (mergeCpu_read hmem).2 e hcpu
    rcases bind_eq_error.mp he with hmemory | ⟨memory, -, he⟩
    · exact (mergeMemory_read hmem).2 e hmemory
    rcases bind_eq_error.mp he with hnetwork | ⟨network, -, he⟩
    · exact (mergeNetwork_read hmem).2 e hnetwork
    cases he

end Merge

end Brocade.Load
