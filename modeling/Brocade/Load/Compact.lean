/-
The maintenance pass over the load samples.

A machine's raw rows that ended before the cutoff are taken in batches, cut behind a whole minute,
aggregated, and replaced by their minutes in one transaction; the newest window is left as it is.
A pass that fails leaves the machine's rows as they were.  What a pass takes out of the table is
what it aggregated, and what it puts there reads the totals of it.
-/
import Brocade.Load.Segments

namespace Brocade.Load

open Groups Fallible

variable {K : Kinds}

/-- A row as it is stored. -/
structure StoredRow (K : Kinds) where
  row : TimedSample K
  isRollup : Bool

def StoredRow.start (r : StoredRow K) : ℤ := r.row.sample.windowStartUnixSecs

def TimedSample.start (s : TimedSample K) : ℤ := s.sample.windowStartUnixSecs

/-- The rows of one machine. -/
structure NodeLoad (K : Kinds) where
  rows : List (StoredRow K)
  sealedThrough : ℤ

/-- What the columns take: clamped numbers, or an error, and details that pass their checks. -/
structure Columns (K : Kinds) where
  averages : K.Averages → Except String K.Averages
  snapshot : K.Snapshot → Except String K.Snapshot
  validCpu : CpuDetailSample K → Bool
  validMemory : MemoryDetailSample K → Bool
  validDisk : DiskDetailSample K → Bool

/-- The field of an event. -/
def Event.field : Event → String
  | .oomKills => "oom_kills"
  | .nicRxDrop => "nic_rx_drop"
  | .nicTxDrop => "nic_tx_drop"
  | .nicErr => "nic_err"

def u64ToI64 (field : String) (value : ℕ) : Except String Unit :=
  if value ≤ I64_MAX then .ok () else .error s!"{field} is out of range"

/-- A row as the table holds it; a detail that fails its checks is left out. -/
def stored (columns : Columns K) (s : TimedSample K) : Except String (TimedSample K) := do
  let averages ← columns.averages s.sample.averages
  let snapshot ← columns.snapshot s.sample.snapshot
  Event.all.forM fun c => u64ToI64 c.field (s.sample.events c)
  .ok { s with sample := { s.sample with
    averages := averages
    snapshot := snapshot
    cpuDetail := s.sample.cpuDetail.filter columns.validCpu
    memoryDetail := s.sample.memoryDetail.filter columns.validMemory
    diskDetail := s.sample.diskDetail.filter columns.validDisk } }

/-- Whether a row was inserted; one that starts with a stored window is not. -/
def insertLoadSample (columns : Columns K) (rows : List (StoredRow K)) (s : TimedSample K)
    (isRollup : Bool) : Except String (Bool × List (StoredRow K)) := do
  let row ← stored columns s
  if rows.any fun r => r.start == s.start then .ok (false, rows)
  else .ok (true, rows ++ [⟨row, isRollup⟩])

/-- A rolled row comes in. -/
def insertRolled (columns : Columns K) (rows : List (StoredRow K)) (s : TimedSample K) :
    Except String (List (StoredRow K)) := do
  let (inserted, rows) ← insertLoadSample columns rows s true
  if inserted then .ok rows
  else .error "load rollup unexpectedly conflicts with another window"

/-- The raw rows to roll up, without the newest window. -/
def candidates (cutoff : ℤ) (rows : List (StoredRow K)) : List (TimedSample K) :=
  (rows.filter fun r => !r.isRollup && decide (r.row.sample.windowEndUnixSecs ≤ cutoff)
    && rows.any fun other => decide (r.start < other.start)).map StoredRow.row

/-- `ORDER BY window_end, window_start`. -/
def byEnd (a b : TimedSample K) : Prop :=
  a.sample.windowEndUnixSecs < b.sample.windowEndUnixSecs ∨
    (a.sample.windowEndUnixSecs = b.sample.windowEndUnixSecs ∧ a.start ≤ b.start)

instance : DecidableRel (byEnd (K := K)) := fun a b => by unfold byEnd; infer_instance

/-- The order of windows. -/
def byStart (a b : TimedSample K) : Prop := a.start ≤ b.start

instance : DecidableRel (byStart (K := K)) := fun a b => by unfold byStart; infer_instance

/-- A full batch is cut behind its last whole minute; what it is sealed through goes with it. -/
def cutBatch (cutoff : ℤ) (limit : ℕ) (samples : List (TimedSample K)) :
    Except String (List (TimedSample K) × ℤ) :=
  if samples.length ≤ limit then .ok (samples, cutoff)
  else
    match samples.getLast? with
    | none => .error "full batch"
    | some last =>
      let kept := samples.rdropWhile fun s => decide (bucketEnd last.sample ≤ bucketEnd s.sample)
      match kept.getLast? with
      | none => .error "load rollup batch contains too many overlapping windows"
      | some behind => .ok (kept, bucketEnd behind.sample)

/-- One machine's transaction: its rows after it, and how many raw rows it sealed. -/
def compactNode (columns : Columns K) (avg : Averaging K) (cutoff : ℤ) (limit : ℕ)
    (node : NodeLoad K) : Except String (NodeLoad K × ℕ) :=
  if cutoff ≤ node.sealedThrough then .ok (node, 0)
  else do
    let ordered := (candidates cutoff node.rows).insertionSort byEnd
    let (samples, watermark) ← cutBatch cutoff limit (ordered.take (limit + 1))
    let starts := samples.map TimedSample.start
    let rolled ← aggregate avg (samples.insertionSort byStart)
    let remaining := node.rows.filter fun r => decide (r.start ∉ starts)
    let rows ← rolled.foldlM (insertRolled columns) remaining
    .ok (⟨rows, max node.sealedThrough watermark⟩, starts.length)

/-- A pass over the machines that are due; an error ends it, with the machines before it done. -/
def compact (columns : Columns K) (avg : Averaging K) (cutoff : ℤ) (limit : ℕ) :
    List String → (String → NodeLoad K) → ℕ → (String → NodeLoad K) × Except String ℕ
  | [], store, processed => (store, .ok processed)
  | node :: nodes, store, processed =>
    match compactNode columns avg cutoff limit (store node) with
    | .error e => (store, .error e)
    | .ok (load, count) =>
      compact columns avg cutoff limit nodes (Function.update store node load)
        (processed + count)

/-! ### What a transaction takes and puts -/

/-- The windows of a machine start apart: the key of the table. -/
def Keyed (node : NodeLoad K) : Prop := (node.rows.map StoredRow.start).Nodup

/-- A transaction took `batch` out of the raw rows and put the stored `rolled` behind the others. -/
structure Compacted (columns : Columns K) (avg : Averaging K) (node node' : NodeLoad K)
    (batch rolled : List (TimedSample K)) : Prop where
  raw : ∀ s ∈ batch, ⟨s, false⟩ ∈ node.rows
  apart : (batch.map TimedSample.start).Nodup
  aggregated : aggregate avg batch = .ok rolled
  rows : ∃ put, List.Forall₂ (fun r s => stored columns r = .ok s) rolled put ∧
    node'.rows = (node.rows.filter fun r => decide (r.start ∉ batch.map TimedSample.start))
      ++ put.map fun s => ⟨s, true⟩

section Node

variable {columns : Columns K} {avg : Averaging K} {cutoff : ℤ} {limit : ℕ}
  {node node' : NodeLoad K}

theorem compacted_nothing (node : NodeLoad K) (sealed' : ℤ) :
    Compacted columns avg node { node with sealedThrough := sealed' } [] [] where
  raw := by simp
  apart := List.nodup_nil
  aggregated := rfl
  rows := ⟨[], .nil, by simp⟩

theorem insertRolled_ok {rows rows' : List (StoredRow K)} {s : TimedSample K}
    (h : insertRolled columns rows s = .ok rows') :
    ∃ row, stored columns s = .ok row ∧ rows' = rows ++ [⟨row, true⟩] := by
  obtain ⟨⟨inserted, after⟩, hinsert, h⟩ := bind_eq_ok.mp h
  obtain ⟨row, hrow, hinsert⟩ := bind_eq_ok.mp hinsert
  refine ⟨row, hrow, ?_⟩
  by_cases hthere : (rows.any fun r => r.start == s.start) = true
  · rw [if_pos hthere] at hinsert
    obtain ⟨rfl, rfl⟩ := Prod.mk.inj (Except.ok.inj hinsert)
    cases h
  · rw [if_neg hthere] at hinsert
    obtain ⟨rfl, rfl⟩ := Prod.mk.inj (Except.ok.inj hinsert)
    exact (Except.ok.inj h).symm

theorem insertRolled_all {rolled : List (TimedSample K)} : ∀ {rows rows' : List (StoredRow K)},
    rolled.foldlM (insertRolled columns) rows = .ok rows' →
      ∃ put, List.Forall₂ (fun r s => stored columns r = .ok s) rolled put ∧
        rows' = rows ++ put.map fun s => ⟨s, true⟩ := by
  induction rolled with
  | nil =>
    intro rows rows' h
    rw [List.foldlM_nil, pure_eq_ok] at h
    exact ⟨[], .nil, by simp [h]⟩
  | cons s rolled ih =>
    intro rows rows' h
    rw [List.foldlM_cons, bind_eq_ok] at h
    obtain ⟨between, hfirst, h⟩ := h
    obtain ⟨row, hrow, rfl⟩ := insertRolled_ok hfirst
    obtain ⟨put, hput, rfl⟩ := ih h
    exact ⟨row :: put, .cons hrow hput, by simp⟩

theorem cutBatch_sublist {samples kept : List (TimedSample K)} {watermark : ℤ}
    (h : cutBatch cutoff limit samples = .ok (kept, watermark)) : kept.Sublist samples := by
  rw [cutBatch] at h
  by_cases hcomplete : samples.length ≤ limit
  · rw [if_pos hcomplete] at h
    obtain ⟨rfl, -⟩ := Prod.mk.inj (Except.ok.inj h)
    exact List.Sublist.refl _
  · rw [if_neg hcomplete] at h
    cases hlast : samples.getLast? with
    | none =>
      rw [hlast] at h
      cases h
    | some last =>
      rw [hlast] at h
      dsimp only at h
      cases hbehind : (samples.rdropWhile fun s =>
          decide (bucketEnd last.sample ≤ bucketEnd s.sample)).getLast? with
      | none =>
        rw [hbehind] at h
        cases h
      | some behind =>
        rw [hbehind] at h
        obtain ⟨rfl, -⟩ := Prod.mk.inj (Except.ok.inj h)
        exact (List.rdropWhile_prefix _ _).sublist

/-- **A transaction takes what it aggregates and nothing else.** -/
theorem compactNode_spec (hkeyed : Keyed node) {count : ℕ}
    (h : compactNode columns avg cutoff limit node = .ok (node', count)) :
    ∃ batch rolled, Compacted columns avg node node' batch rolled := by
  rw [compactNode] at h
  by_cases hsealed : cutoff ≤ node.sealedThrough
  · rw [if_pos hsealed] at h
    obtain ⟨rfl, -⟩ := Prod.mk.inj (Except.ok.inj h)
    exact ⟨[], [], compacted_nothing node node.sealedThrough⟩
  rw [if_neg hsealed] at h
  obtain ⟨⟨samples, watermark⟩, hcut, h⟩ := bind_eq_ok.mp h
  obtain ⟨rolled, hrolled, h⟩ := bind_eq_ok.mp h
  obtain ⟨rows, hrows, h⟩ := bind_eq_ok.mp h
  obtain ⟨rfl, -⟩ := Prod.mk.inj (Except.ok.inj h)
  obtain ⟨put, hput, rfl⟩ := insertRolled_all hrows
  have hsub : samples.Subperm (candidates cutoff node.rows) :=
    ((cutBatch_sublist hcut).trans (List.take_sublist _ _)).subperm.trans
      (List.perm_insertionSort byEnd _).subperm
  have hsorted := List.perm_insertionSort byStart samples
  refine ⟨samples.insertionSort byStart, rolled, ?_, ?_, hrolled, put, hput, ?_⟩
  · intro s hs
    have hcandidate := hsub.subset (hsorted.mem_iff.mp hs)
    obtain ⟨r, hr, rfl⟩ := List.mem_map.mp hcandidate
    obtain ⟨hin, hpass⟩ := List.mem_filter.mp hr
    have hraw : r.isRollup = false := by
      simp only [Bool.and_eq_true, Bool.not_eq_true'] at hpass
      exact hpass.1.1
    rw [← hraw]
    exact hin
  · have hstarts : ((candidates cutoff node.rows).map TimedSample.start).Nodup := by
      rw [candidates, List.map_map]
      exact hkeyed.sublist (List.filter_sublist.map _)
    obtain ⟨part, hpart, hpartSub⟩ := hsub
    rw [(hsorted.map TimedSample.start).nodup_iff, ← (hpart.map TimedSample.start).nodup_iff]
    exact hstarts.sublist (hpartSub.map TimedSample.start)
  · have hsame : (node.rows.filter fun r => decide (r.start ∉ samples.map TimedSample.start))
        = node.rows.filter fun r =>
          decide (r.start ∉ (samples.insertionSort byStart).map TimedSample.start) := by
      apply List.filter_congr
      intro r _
      rw [decide_eq_decide, (hsorted.map TimedSample.start).mem_iff]
    rw [← hsame]

end Node

/-! ### Totals -/

/-- The total of the known readings of a counter. -/
def known (k : Counter) (rows : List (StoredRow K)) : ℕ :=
  (rows.map fun r => (r.row.sample.read k).getD 0).sum

def knownIn (k : Counter) (samples : List (TimedSample K)) : ℕ :=
  (samples.map fun s => (s.sample.read k).getD 0).sum

/-- A counter is kept where no segment knows it only in part, and no check drops its detail. -/
structure Kept (columns : Columns K) (batch rolled : List (TimedSample K)) (k : Counter) : Prop where
  whole : ∀ segment ∈ segments batch, (∀ s ∈ segment, (s.sample.read k).isSome = true) ∨
    ∀ s ∈ segment, s.sample.read k = none
  valid : ∀ r ∈ rolled, ∀ s, stored columns r = .ok s → s.sample.read k = r.sample.read k

section Totals

variable {columns : Columns K} {avg : Averaging K} {node node' : NodeLoad K}
  {batch rolled : List (TimedSample K)} {k : Counter}

theorem knownIn_append (xs ys : List (TimedSample K)) :
    knownIn k (xs ++ ys) = knownIn k xs + knownIn k ys := by
  rw [knownIn, List.map_append, List.sum_append, knownIn, knownIn]

theorem knownIn_cons (s : TimedSample K) (xs : List (TimedSample K)) :
    knownIn k (s :: xs) = (s.sample.read k).getD 0 + knownIn k xs := by
  rw [knownIn, List.map_cons, List.sum_cons, knownIn]

theorem stored_event {r s : TimedSample K} (h : stored columns r = .ok s) (c : Event) :
    s.sample.read (.event c) = r.sample.read (.event c) := by
  obtain ⟨_, -, h⟩ := bind_eq_ok.mp h
  obtain ⟨_, -, h⟩ := bind_eq_ok.mp h
  obtain ⟨_, -, h⟩ := bind_eq_ok.mp h
  rw [← Except.ok.inj h]
  rfl

theorem kept_event (c : Event) : Kept columns batch rolled (.event c) where
  whole _ _ := .inl fun _ _ => rfl
  valid _ _ _ hs := stored_event hs c

theorem total?_getD {segment : List (TimedSample K)}
    (h : (∀ s ∈ segment, (s.sample.read k).isSome = true) ∨ ∀ s ∈ segment, s.sample.read k = none) :
    (total? (readings segment k)).getD 0 = knownIn k segment := by
  rcases h with hall | hnone
  · have hvalues : readings segment k
        = (segment.map fun s => (s.sample.read k).getD 0).map some := by
      rw [readings, List.map_map]
      apply List.map_congr_left
      intro s hs
      obtain ⟨value, hvalue⟩ := Option.isSome_iff_exists.mp (hall s hs)
      simp [hvalue]
    rw [hvalues, total?_some]
    rfl
  · have hzero : knownIn k segment = 0 := by
      rw [knownIn, List.map_congr_left (g := fun _ => 0) fun s hs => by rw [hnone s hs]; rfl]
      simp
    rw [hzero]
    cases segment with
    | nil => rfl
    | cons s segment =>
      have hread : (s.sample.read k) = none := hnone s List.mem_cons_self
      rw [total?_none (mem_readings_none ⟨s, List.mem_cons_self, hread⟩)]
      rfl

theorem knownIn_rows {groups : List (List (TimedSample K))} {rows : List (TimedSample K)}
    (hall : List.Forall₂ IsMerged groups rows)
    (hwhole : ∀ segment ∈ groups, (∀ s ∈ segment, (s.sample.read k).isSome = true) ∨
      ∀ s ∈ segment, s.sample.read k = none) : knownIn k rows = knownIn k groups.flatten := by
  induction hall with
  | nil => rfl
  | @cons group row groups rows hrow _ ih =>
    rw [List.flatten_cons, knownIn_append, ← ih fun g hg => hwhole g (List.mem_cons_of_mem _ hg),
      ← total?_getD (hwhole group List.mem_cons_self), ← hrow.read k, knownIn_cons]

theorem known_put {put : List (TimedSample K)}
    (hput : List.Forall₂ (fun r s => stored columns r = .ok s) rolled put)
    (hvalid : ∀ r ∈ rolled, ∀ s, stored columns r = .ok s → s.sample.read k = r.sample.read k) :
    knownIn k put = knownIn k rolled := by
  induction hput with
  | nil => rfl
  | @cons r s rolled put hstored _ ih =>
    have hsame := hvalid r List.mem_cons_self s hstored
    have hrest := ih fun r' hr' => hvalid r' (List.mem_cons_of_mem _ hr')
    rw [knownIn_cons, knownIn_cons, hrest, hsame]

theorem Compacted.taken (h : Compacted columns avg node node' batch rolled) (hkeyed : Keyed node) :
    (node.rows.filter fun r => decide (r.start ∈ batch.map TimedSample.start)).Perm
      (batch.map fun s => ⟨s, false⟩) := by
  have hrows : node.rows.Nodup := List.Nodup.of_map _ hkeyed
  have hbatch : (batch.map fun s => (⟨s, false⟩ : StoredRow K)).Nodup := by
    apply List.Nodup.of_map StoredRow.start
    rw [List.map_map]
    exact h.apart
  rw [List.perm_ext_iff_of_nodup (hrows.filter _) hbatch]
  intro r
  rw [List.mem_filter, decide_eq_true_eq]
  constructor
  · intro hr
    obtain ⟨s, hs, hstart⟩ := List.mem_map.mp hr.2
    have hsame := List.inj_on_of_nodup_map hkeyed (h.raw s hs) hr.1 hstart
    exact List.mem_map.mpr ⟨s, hs, hsame⟩
  · intro hr
    obtain ⟨s, hs, rfl⟩ := List.mem_map.mp hr
    exact ⟨h.raw s hs, List.mem_map.mpr ⟨s, hs, rfl⟩⟩

/-- **A transaction takes no row but those it aggregated.** -/
theorem Compacted.untouched (h : Compacted columns avg node node' batch rolled)
    (hkeyed : Keyed node) : ∀ r ∈ node.rows, r ∈ node'.rows ∨ ∃ s ∈ batch, r = ⟨s, false⟩ := by
  intro r hr
  obtain ⟨put, -, hrows⟩ := h.rows
  by_cases hstart : r.start ∈ batch.map TimedSample.start
  · right
    have hin := (h.taken hkeyed).mem_iff.mp (List.mem_filter.mpr ⟨hr, by simpa using hstart⟩)
    obtain ⟨s, hs, heq⟩ := List.mem_map.mp hin
    exact ⟨s, hs, heq.symm⟩
  · left
    rw [hrows]
    exact List.mem_append_left _ (List.mem_filter.mpr ⟨hr, by simpa using hstart⟩)

/-- **A transaction leaves the total of a kept counter as it was.** -/
theorem Compacted.conserves (h : Compacted columns avg node node' batch rolled)
    (hkeyed : Keyed node) (hkept : Kept columns batch rolled k) :
    known k node'.rows = known k node.rows := by
  obtain ⟨put, hput, hrows⟩ := h.rows
  have hrolled := h.aggregated
  rw [aggregate_eq] at hrolled
  have hmerged := merged_rows (fun group hin => (segments_spec batch group hin).1) hrolled
  have hputTotal : knownIn k put = knownIn k batch := by
    rw [known_put hput hkept.valid, knownIn_rows hmerged hkept.whole, segments, flatten_groups]
  have hsplit := List.filter_append_perm
    (fun r => decide (r.start ∈ batch.map TimedSample.start)) node.rows
  have hbefore : known k node.rows = knownIn k batch +
      known k (node.rows.filter fun r => decide (r.start ∉ batch.map TimedSample.start)) := by
    have htaken := ((h.taken hkeyed).map fun r => (r.row.sample.read k).getD 0).sum_nat
    have hall := (hsplit.map fun r => (r.row.sample.read k).getD 0).sum_nat
    rw [List.map_append, List.sum_append, htaken, List.map_map] at hall
    simp only [← decide_not] at hall
    exact hall.symm
  rw [hbefore, ← hputTotal, hrows, known, List.map_append, List.sum_append, List.map_map]
  exact Nat.add_comm _ _

end Totals

/-! ### A pass -/

section Pass

variable {columns : Columns K} {avg : Averaging K} {cutoff : ℤ} {limit : ℕ}

theorem compact_other {name : String} (nodes : List String) (hname : name ∉ nodes) :
    ∀ (store : String → NodeLoad K) (processed : ℕ),
      (compact columns avg cutoff limit nodes store processed).1 name = store name := by
  induction nodes with
  | nil => intro store processed; rfl
  | cons node nodes ih =>
    intro store processed
    rw [List.mem_cons, not_or] at hname
    rw [compact]
    cases hnode : compactNode columns avg cutoff limit (store node) with
    | error e => rfl
    | ok result =>
      show (compact columns avg cutoff limit nodes (Function.update store node result.1)
        (processed + result.2)).1 name = store name
      rw [ih hname.2, Function.update_of_ne hname.1]

variable (columns avg cutoff limit) in
theorem compact_cases (name : String) (nodes : List String) (hnodes : nodes.Nodup) :
    ∀ (store : String → NodeLoad K) (processed : ℕ),
      (compact columns avg cutoff limit nodes store processed).1 name = store name ∨
      ∃ count, compactNode columns avg cutoff limit (store name)
        = .ok ((compact columns avg cutoff limit nodes store processed).1 name, count) := by
  induction nodes with
  | nil => intro store processed; exact .inl rfl
  | cons node nodes ih =>
    intro store processed
    obtain ⟨hfresh, hnodes⟩ := List.nodup_cons.mp hnodes
    rw [compact]
    cases hnode : compactNode columns avg cutoff limit (store node) with
    | error e => exact .inl rfl
    | ok result =>
      show (compact columns avg cutoff limit nodes (Function.update store node result.1)
        (processed + result.2)).1 name = store name ∨ ∃ count, _ = Except.ok
          ((compact columns avg cutoff limit nodes (Function.update store node result.1)
            (processed + result.2)).1 name, count)
      by_cases hname : name = node
      · subst hname
        rw [compact_other nodes hfresh, Function.update_self]
        exact .inr ⟨result.2, hnode⟩
      · have hrest := ih hnodes (Function.update store node result.1) (processed + result.2)
        rwa [Function.update_of_ne hname] at hrest

variable (columns avg cutoff limit) in
theorem compact_spec {nodes : List String} (hnodes : nodes.Nodup) {store : String → NodeLoad K}
    {name : String} (hkeyed : Keyed (store name)) : ∃ batch rolled,
      Compacted columns avg (store name)
        ((compact columns avg cutoff limit nodes store 0).1 name) batch rolled := by
  rcases compact_cases columns avg cutoff limit name nodes hnodes store 0 with hsame | ⟨count, hnode⟩
  · rw [hsame]
    exact ⟨[], [], compacted_nothing (store name) (store name).sealedThrough⟩
  · exact compactNode_spec hkeyed hnode

end Pass

/-- **Minute rollup keeps what it counts and bridges no boundary.** -/
theorem rollup_conserves (columns : Columns K) (avg : Averaging K) :
    (∀ samples : List (TimedSample K),
      (∀ s ∈ samples, s.sample.windowStartUnixSecs < s.sample.windowEndUnixSecs) →
      (∃ e, aggregate avg samples = .error e ∧
        ∃ segment ∈ segments samples, 2 ≤ segment.length ∧ Overflows segment) ∨
      ∃ rows, aggregate avg samples = .ok rows ∧ (segments samples).flatten = samples ∧
        (∀ segment ∈ segments samples, segment ≠ [] ∧ Segment segment) ∧
        List.Forall₂ IsMerged (segments samples) rows ∧ aggregate avg rows = .ok rows) ∧
    ∀ (cutoff : ℤ) (limit : ℕ) (nodes : List String) (store : String → NodeLoad K),
      nodes.Nodup → ∀ name, Keyed (store name) → ∃ batch rolled, Compacted columns avg (store name)
          ((compact columns avg cutoff limit nodes store 0).1 name) batch rolled ∧
        (∀ r ∈ (store name).rows,
          r ∈ ((compact columns avg cutoff limit nodes store 0).1 name).rows ∨
            ∃ s ∈ batch, r = ⟨s, false⟩) ∧
        (∀ c, known (.event c) ((compact columns avg cutoff limit nodes store 0).1 name).rows
          = known (.event c) (store name).rows) ∧
        ∀ k, Kept columns batch rolled k →
          known k ((compact columns avg cutoff limit nodes store 0).1 name).rows
            = known k (store name).rows := by
  refine ⟨?_, ?_⟩
  · intro samples hpositive
    have hspec := segments_spec samples
    cases haggregate : aggregate avg samples with
    | error e =>
      have herror := haggregate
      rw [aggregate_eq] at herror
      obtain ⟨segment, hin, hfailed⟩ := mapM_eq_error herror
      exact .inl ⟨e, rfl, segment, hin, merged_error (hspec segment hin).1 hfailed⟩
    | ok rows =>
      have hok := haggregate
      rw [aggregate_eq] at hok
      exact .inr ⟨rows, rfl, flatten_groups _ samples, hspec,
        merged_rows (fun group hin => (hspec group hin).1) hok,
        aggregate_again hpositive haggregate⟩
  · intro cutoff limit nodes store hnodes name hkeyed
    obtain ⟨batch, rolled, hcompacted⟩ := compact_spec columns avg cutoff limit hnodes hkeyed
    exact ⟨batch, rolled, hcompacted, hcompacted.untouched hkeyed,
      fun c => hcompacted.conserves hkeyed (kept_event c),
      fun k hkept => hcompacted.conserves hkeyed hkept⟩

/-- Samples with counters only. -/
def bareKinds : Kinds := ⟨Unit, Unit, Unit, Unit, Unit, Unit, Unit, Unit, Unit⟩

def bareAveraging : Averaging bareKinds := ⟨fun _ => (), fun _ => (), fun _ => (), fun _ => ()⟩

def bareColumns : Columns bareKinds :=
  ⟨.ok, .ok, fun _ => true, fun _ => true, fun _ => true⟩

/-- A sample of half a minute. -/
def bareSample (start : ℤ) (network : Option (NetworkDetailSample bareKinds)) :
    TimedSample bareKinds where
  btime := 1
  sample := ⟨start, start + 30, false, (), (), fun _ => 1, none, none, none, network⟩

/-- Two raw windows of one minute, of which the second lacks the network counters, and a newer
one. -/
def partlyKnown (_ : String) : NodeLoad bareKinds where
  rows := [⟨bareSample 0 (some ⟨(), fun _ => some 2⟩), false⟩, ⟨bareSample 30 none, false⟩,
    ⟨bareSample 60 none, false⟩]
  sealedThrough := 0

theorem rollup_conserves_partly : ["n"].Nodup ∧ Keyed (partlyKnown "n") ∧ known (.event .oomKills)
        ((compact bareColumns bareAveraging 3600 240 ["n"] partlyKnown 0).1 "n").rows
      = known (.event .oomKills) (partlyKnown "n").rows := by
  have hkeyed : Keyed (partlyKnown "n") := by
    show [(0 : ℤ), 30, 60].Nodup
    decide
  obtain ⟨_, _, -, -, hevents, -⟩ := (rollup_conserves bareColumns bareAveraging).2 3600 240 ["n"]
    partlyKnown (by decide) "n" hkeyed
  exact ⟨by decide, hkeyed, hevents .oomKills⟩

/-- A counter known in part of a minute is unknown in its row, and what was known of it is gone. -/
theorem partly_known_dropped : ¬ ∀ (columns : Columns bareKinds) (avg : Averaging bareKinds)
    (cutoff : ℤ) (limit : ℕ) (nodes : List String) (store : String → NodeLoad bareKinds),
    nodes.Nodup → ∀ name, Keyed (store name) → ∀ k,
      known k ((compact columns avg cutoff limit nodes store 0).1 name).rows
        = known k (store name).rows := by
  intro h
  have hkeyed : Keyed (partlyKnown "n") := by
    show [(0 : ℤ), 30, 60].Nodup
    decide
  have hsame := h bareColumns bareAveraging 3600 240 ["n"] partlyKnown (by decide) "n" hkeyed
    (.network .tcpRetransSegs)
  have hbefore : known (.network .tcpRetransSegs) (partlyKnown "n").rows = 2 := by decide +kernel
  have hafter : known (.network .tcpRetransSegs)
      ((compact bareColumns bareAveraging 3600 240 ["n"] partlyKnown 0).1 "n").rows = 0 := by
    decide +kernel
  rw [hbefore, hafter] at hsame
  cases hsame

end Brocade.Load
