/-
Reports of detail usage, and the agent's merge of two of them.

A report counts bytes of domains, or of targets no domain was recognised for.  What it
counts is kept in segments: a counter is admitted under a new id each time, and within a
segment it only grows, so that a checkpoint of a segment says all that an earlier one did.
The agent merges a checkpoint into the one before it by the greatest value of each segment
and direction.  The merged report says of every segment what the two said together
(`merge_atMost`), and it is a report the control plane takes if both were
(`merge_valid`).
-/
import Mathlib.Data.Prod.Lex
import Brocade.Usage.Record

namespace Brocade.Detail

/-- Up and down. -/
abbrev Bytes := ℕ × ℕ

def DETAIL_CHECKPOINT_VERSION : ℕ := 2
def OTHER_DOMAIN_VERSION : ℕ := 1
def OTHER_DOMAIN_MAX_ROWS : ℕ := 8192
def I64_MAX : ℕ := 2 ^ 63 - 1

/-- The bytes of one domain in one hour. -/
structure OtherDomainCounter where
  /-- a new one on every admission, zero in reports of the first version -/
  counterId : ℕ
  bucket : ℤ
  (label domain : String)
  (uplinkBytes downlinkBytes : ℕ)
deriving DecidableEq

/-- An agent's report of other domains. -/
structure OtherDomainReport where
  version : ℕ
  epoch : String
  (activationUnixSecs readAtUnixSecs usageGenerationId : ℤ)
  limited : Bool
  counters : List OtherDomainCounter
deriving DecidableEq

def OtherDomainCounter.bytes (row : OtherDomainCounter) : Bytes :=
  (row.uplinkBytes, row.downlinkBytes)

/-- What a counter counts, in the order the agent keeps counters in. -/
abbrev Segment := ℤ ×ₗ String ×ₗ String ×ₗ ℕ

/-- What a row speaks of. -/
def OtherDomainCounter.segment (row : OtherDomainCounter) : Segment :=
  toLex (row.bucket, toLex (row.label, toLex (row.domain, row.counterId)))

/-- The row of a segment. -/
def counterOf (segment : Segment) (bytes : Bytes) : OtherDomainCounter where
  counterId := segment.2.2.2
  bucket := segment.1
  label := segment.2.1
  domain := segment.2.2.1
  uplinkBytes := bytes.1
  downlinkBytes := bytes.2

@[simp] theorem counterOf_segment (segment : Segment) (bytes : Bytes) :
    (counterOf segment bytes).segment = segment := rfl

@[simp] theorem counterOf_bytes (segment : Segment) (bytes : Bytes) :
    (counterOf segment bytes).bytes = bytes := rfl

/-! ### The agent's merge -/

/-- The greatest value of each segment and direction. -/
def mergeCounters (rows : List OtherDomainCounter) : OrdMap Segment Bytes :=
  rows.foldl (fun counters row => counters.insert row.segment
    ((counters.get? row.segment).getD (0, 0) ⊔ row.bytes)) .empty

/-- Only checkpoints of one lifetime, generation and hour are merged. -/
def mergeDetailCheckpoint (old next : OtherDomainReport) : Option OtherDomainReport :=
  if old.version ≠ DETAIL_CHECKPOINT_VERSION ∨ next.version ≠ DETAIL_CHECKPOINT_VERSION
      ∨ old.epoch ≠ next.epoch ∨ old.activationUnixSecs ≠ next.activationUnixSecs
      ∨ old.usageGenerationId ≠ next.usageGenerationId
      ∨ old.readAtUnixSecs.tdiv 3600 ≠ next.readAtUnixSecs.tdiv 3600 then none
  else
    let counters := mergeCounters (old.counters ++ next.counters)
    if OTHER_DOMAIN_MAX_ROWS < counters.entries.length then none
    else some { next with
      readAtUnixSecs := max next.readAtUnixSecs old.readAtUnixSecs
      limited := next.limited || old.limited
      counters := counters.entries.map fun entry => counterOf entry.1 entry.2 }

/-! ### What a merge says

`AtMost` bounds what rows say of a segment; the least bound is the greatest value. -/

/-- No row of the segment says more than the bound. -/
def AtMost (rows : List OtherDomainCounter) (segment : Segment) (bound : Bytes) : Prop :=
  ∀ row ∈ rows, row.segment = segment → row.bytes ≤ bound

theorem atMost_append {rows rows' : List OtherDomainCounter} {segment : Segment} {bound : Bytes} :
    AtMost (rows ++ rows') segment bound
      ↔ AtMost rows segment bound ∧ AtMost rows' segment bound := by
  constructor
  · intro h
    exact ⟨fun row hrow => h row (List.mem_append_left _ hrow),
      fun row hrow => h row (List.mem_append_right _ hrow)⟩
  · rintro ⟨h, h'⟩ row hrow
    rcases List.mem_append.mp hrow with hrow | hrow
    · exact h row hrow
    · exact h' row hrow

theorem mergeCounters_fold (rows : List OtherDomainCounter) (counters : OrdMap Segment Bytes)
    (segment : Segment) : (∀ bound, ((rows.foldl (fun counters row => counters.insert row.segment
          ((counters.get? row.segment).getD (0, 0) ⊔ row.bytes)) counters).get? segment).getD (0, 0)
            ≤ bound
        ↔ (counters.get? segment).getD (0, 0) ≤ bound ∧ AtMost rows segment bound)
      ∧ ((rows.foldl (fun counters row => counters.insert row.segment
          ((counters.get? row.segment).getD (0, 0) ⊔ row.bytes)) counters).contains segment = true
        ↔ counters.contains segment = true ∨ ∃ row ∈ rows, row.segment = segment) := by
  induction rows generalizing counters with
  | nil =>
    refine ⟨fun bound => ?_, ?_⟩
    · exact ⟨fun h => ⟨h, fun row hrow => absurd hrow List.not_mem_nil⟩, fun h => h.1⟩
    · exact ⟨.inl, fun h => h.elim id fun ⟨row, hrow, _⟩ => absurd hrow List.not_mem_nil⟩
  | cons row rows ih =>
    rw [List.foldl_cons]
    obtain ⟨hbound, hcontains⟩ := ih (counters.insert row.segment
      ((counters.get? row.segment).getD (0, 0) ⊔ row.bytes))
    refine ⟨fun bound => ?_, ?_⟩
    · rw [hbound, OrdMap.get?_insert]
      by_cases hsame : segment = row.segment
      · subst hsame
        rw [if_pos rfl, Option.getD_some, sup_le_iff, and_assoc]
        refine and_congr_right fun _ => ?_
        constructor
        · rintro ⟨hrow, hrows⟩ r hr hseg
          rcases List.mem_cons.mp hr with rfl | hr
          · exact hrow
          · exact hrows r hr hseg
        · intro h
          exact ⟨h row List.mem_cons_self rfl, fun r hr => h r (List.mem_cons_of_mem _ hr)⟩
      · rw [if_neg hsame]
        refine and_congr_right fun _ => ?_
        constructor
        · intro hrows r hr hseg
          rcases List.mem_cons.mp hr with rfl | hr
          · exact absurd hseg.symm hsame
          · exact hrows r hr hseg
        · intro h r hr
          exact h r (List.mem_cons_of_mem _ hr)
    · rw [hcontains, OrdMap.contains_iff, OrdMap.contains_iff, OrdMap.get?_insert]
      by_cases hsame : segment = row.segment
      · simp [hsame]
      · have hne : ¬ row.segment = segment := fun h => hsame h.symm
        simp [hsame, hne]

/-- **The merged counters hold the least bounds of the rows.** -/
theorem mergeCounters_spec (rows : List OtherDomainCounter) (segment : Segment) :
    (∀ bound, ((mergeCounters rows).get? segment).getD (0, 0) ≤ bound ↔ AtMost rows segment bound)
      ∧ ((mergeCounters rows).contains segment = true ↔ ∃ row ∈ rows, row.segment = segment) := by
  obtain ⟨hbound, hcontains⟩ := mergeCounters_fold rows .empty segment
  refine ⟨fun bound => ?_, ?_⟩
  · rw [mergeCounters, hbound]
    exact ⟨fun h => h.2, fun h => ⟨⟨Nat.zero_le _, Nat.zero_le _⟩, h⟩⟩
  · rw [mergeCounters, hcontains]
    exact ⟨fun h => h.elim (fun h => absurd h Bool.false_ne_true) id, .inr⟩

variable {old next merged : OtherDomainReport} {validKey : String → Bool} {checkpointed : Bool}
    {hour : ℤ}

theorem mergeDetailCheckpoint_some (h : mergeDetailCheckpoint old next = some merged) :
    (old.version = DETAIL_CHECKPOINT_VERSION ∧ next.version = DETAIL_CHECKPOINT_VERSION
        ∧ old.epoch = next.epoch ∧ old.activationUnixSecs = next.activationUnixSecs
        ∧ old.usageGenerationId = next.usageGenerationId
        ∧ old.readAtUnixSecs.tdiv 3600 = next.readAtUnixSecs.tdiv 3600)
      ∧ (mergeCounters (old.counters ++ next.counters)).entries.length ≤ OTHER_DOMAIN_MAX_ROWS
      ∧ merged = { next with
          readAtUnixSecs := max next.readAtUnixSecs old.readAtUnixSecs
          limited := next.limited || old.limited
          counters := (mergeCounters (old.counters ++ next.counters)).entries.map fun entry =>
            counterOf entry.1 entry.2 } := by
  unfold mergeDetailCheckpoint at h
  split at h
  · exact absurd h nofun
  rename_i hsame
  simp only at h
  split at h
  · exact absurd h nofun
  rename_i hrows
  rw [Option.some.injEq] at h
  exact ⟨by tauto, by omega, h.symm⟩

theorem merge_rows (h : mergeDetailCheckpoint old next = some merged) :
    (∀ segment, (∃ row ∈ merged.counters, row.segment = segment)
        ↔ ∃ row ∈ old.counters ++ next.counters, row.segment = segment)
      ∧ (merged.counters.map OtherDomainCounter.segment).Nodup := by
  obtain ⟨-, -, rfl⟩ := mergeDetailCheckpoint_some h
  have hmap : (((mergeCounters (old.counters ++ next.counters)).entries.map fun entry =>
      counterOf entry.1 entry.2).map OtherDomainCounter.segment)
        = (mergeCounters (old.counters ++ next.counters)).keys := by
    rw [List.map_map]
    rfl
  refine ⟨fun segment => ?_, hmap ▸ OrdMap.nodup_keys _⟩
  rw [← (mergeCounters_spec (old.counters ++ next.counters) segment).2, ← OrdMap.mem_keys, ← hmap,
    List.mem_map]

/-- **A merge says of every segment what the two reports said together.** -/
theorem merge_atMost (h : mergeDetailCheckpoint old next = some merged) (segment : Segment)
    (bound : Bytes) : AtMost merged.counters segment bound
      ↔ AtMost old.counters segment bound ∧ AtMost next.counters segment bound := by
  obtain ⟨-, -, rfl⟩ := mergeDetailCheckpoint_some h
  rw [← atMost_append, ← (mergeCounters_spec (old.counters ++ next.counters) segment).1]
  constructor
  · intro hrows
    cases hget : (mergeCounters (old.counters ++ next.counters)).get? segment with
    | none => exact ⟨Nat.zero_le _, Nat.zero_le _⟩
    | some bytes =>
      exact hrows (counterOf segment bytes)
        (List.mem_map.mpr ⟨(segment, bytes), OrdMap.mem_entries.mpr hget, rfl⟩) rfl
  · intro hbound row hrow hseg
    obtain ⟨⟨s, bytes⟩, hentry, rfl⟩ := List.mem_map.mp hrow
    have hseg : s = segment := hseg
    subst hseg
    rw [OrdMap.mem_entries.mp hentry] at hbound
    exact hbound

/-! ### What the control plane accepts -/

/-- A decimal octet as an address has it: no leading zero, at most 255. -/
def isOctet (part : String) : Bool :=
  part ≠ "" && part.toList.length ≤ 3 && part.toList.all (·.isDigit)
    && (part.toList.length = 1 || part.toList.head? ≠ some '0')
    && part.toList.foldl (fun n c => 10 * n + (c.toNat - '0'.toNat)) 0 ≤ 255

/-- An IPv4 address.  An IPv6 address has a colon, which no part of a domain may have. -/
def isIpv4 (value : String) : Bool :=
  let parts := Text.split value '.'
  parts.length = 4 && parts.all isOctet

/-- Canonical ASCII names only. -/
def validDomain (domain : String) : Bool :=
  domain ≠ "" && domain.utf8ByteSize ≤ 253 && !isIpv4 domain
    && (Text.split domain '.').all fun part =>
      part ≠ "" && part.utf8ByteSize ≤ 63 && part.toList.head? ≠ some '-'
        && part.toList.getLast? ≠ some '-'
        && part.toList.all fun c => ('a' ≤ c && c ≤ 'z') || c.isDigit || c == '-'

/-- The hour of a reading. -/
def hourOf (readAt : ℤ) : ℤ := readAt.tdiv 3600 * 3600

def isHexDigit (c : Char) : Bool := c.isDigit || ('a' ≤ c && c ≤ 'f') || ('A' ≤ c && c ≤ 'F')

/-- A row on its own. -/
def rowOk (validKey : String → Bool) (checkpointed : Bool) (hour : ℤ) (row : OtherDomainCounter) :
    Bool :=
  row.label ≠ "" && row.label.utf8ByteSize ≤ 256 && validKey row.domain
    && (row.bucket = hour || row.bucket = hour - 3600)
    && row.uplinkBytes ≤ I64_MAX && row.downlinkBytes ≤ I64_MAX
    && (bif checkpointed then row.counterId ≠ 0 && row.counterId ≤ I64_MAX else row.counterId = 0)

/-- The rows, and that no counter and no segment occurs twice. -/
def rowsOk (validKey : String → Bool) (checkpointed : Bool) (hour : ℤ) :
    List ℕ → List Segment → List OtherDomainCounter → Bool
  | _, _, [] => true
  | ids, seen, row :: rest =>
    rowOk validKey checkpointed hour row
      && !(checkpointed && row.counterId ∈ ids) && row.segment ∉ seen
      && rowsOk validKey checkpointed hour (row.counterId :: ids) (row.segment :: seen) rest

/-- What is around the rows. -/
def envelopeOk (report : OtherDomainReport) (now : ℤ) : Bool :=
  (report.version = OTHER_DOMAIN_VERSION || report.version = DETAIL_CHECKPOINT_VERSION)
    && report.epoch.toList.length = 32 && report.epoch.toList.all isHexDigit
    && report.counters.length ≤ OTHER_DOMAIN_MAX_ROWS
    && report.readAtUnixSecs ≤ now + 60
    && (report.version = DETAIL_CHECKPOINT_VERSION || now - 600 ≤ report.readAtUnixSecs)
    && 0 < report.activationUnixSecs && report.activationUnixSecs ≤ report.readAtUnixSecs
    && 0 < report.usageGenerationId

/-- Whether a report is taken at all. -/
def validateFor (validKey : String → Bool) (report : OtherDomainReport) (now : ℤ) :
    Except Usage.StoreError Unit :=
  if !envelopeOk report now then .error (.invalidData "invalid domain observation envelope")
  else if !rowsOk validKey (report.version = DETAIL_CHECKPOINT_VERSION)
      (hourOf report.readAtUnixSecs) [] [] report.counters then
    .error (.invalidData "invalid or duplicate domain observation row")
  else .ok ()

/-! ### A merge of reports the control plane accepts -/

theorem rowsOk_iff {rows : List OtherDomainCounter} {ids : List ℕ} {seen : List Segment} :
    rowsOk validKey checkpointed hour ids seen rows = true
      ↔ (∀ row ∈ rows, rowOk validKey checkpointed hour row = true
          ∧ (checkpointed = true → row.counterId ∉ ids) ∧ row.segment ∉ seen)
        ∧ (checkpointed = true → (rows.map (·.counterId)).Nodup)
        ∧ (rows.map OtherDomainCounter.segment).Nodup := by
  induction rows generalizing ids seen with
  | nil => simp [rowsOk]
  | cons row rest ih =>
    unfold rowsOk
    simp only [Bool.and_eq_true, Bool.not_eq_true', Bool.and_eq_false_iff, decide_eq_true_eq,
      decide_eq_false_iff_not, ih, List.mem_cons, not_or, List.map_cons, List.nodup_cons,
      List.mem_map, not_exists, not_and]
    constructor
    · rintro ⟨⟨⟨hrow, hid⟩, hseg⟩, hrest, hids, hsegs⟩
      refine ⟨?_, fun hc => ⟨?_, hids hc⟩, ?_, hsegs⟩
      · rintro r (rfl | hr)
        · exact ⟨hrow, fun hc => hid.resolve_left (by simp [hc]), hseg⟩
        · exact ⟨(hrest r hr).1, fun hc => ((hrest r hr).2.1 hc).2, (hrest r hr).2.2.2⟩
      · intro r hr heq
        exact ((hrest r hr).2.1 hc).1 heq
      · intro r hr heq
        exact (hrest r hr).2.2.1 heq
    · rintro ⟨hall, hids, hnot, hsegs⟩
      obtain ⟨hrow, hid, hseg⟩ := hall row (.inl rfl)
      refine ⟨⟨⟨hrow, ?_⟩, hseg⟩, fun r hr => ?_, fun hc => (hids hc).2, hsegs⟩
      · cases checkpointed with
        | false => exact .inl rfl
        | true => exact .inr (hid rfl)
      · obtain ⟨hr₁, hr₂, hr₃⟩ := hall r (.inr hr)
        exact ⟨hr₁, fun hc => ⟨fun heq => (hids hc).1 r hr heq, hr₂ hc⟩,
          fun heq => hnot r hr heq, hr₃⟩

theorem validateFor_iff {report : OtherDomainReport} {now : ℤ} :
    validateFor validKey report now = .ok () ↔ envelopeOk report now = true
        ∧ rowsOk validKey (report.version = DETAIL_CHECKPOINT_VERSION)
          (hourOf report.readAtUnixSecs) [] [] report.counters = true := by
  unfold validateFor
  by_cases henvelope : envelopeOk report now = true
  · by_cases hrows : rowsOk validKey (report.version = DETAIL_CHECKPOINT_VERSION)
        (hourOf report.readAtUnixSecs) [] [] report.counters = true
    · simp [henvelope, hrows]
    · simp [henvelope, hrows]
  · simp [henvelope]

theorem rowOk_counterOf {row : OtherDomainCounter} {bytes : Bytes}
    (h : rowOk validKey checkpointed hour row = true) (hbytes : bytes ≤ (I64_MAX, I64_MAX)) :
    rowOk validKey checkpointed hour (counterOf row.segment bytes) = true := by
  unfold rowOk at h ⊢
  simp only [Bool.and_eq_true, decide_eq_true_eq] at h ⊢
  obtain ⟨⟨⟨⟨hlabel, hbucket⟩, _⟩, _⟩, hid⟩ := h
  exact ⟨⟨⟨⟨hlabel, hbucket⟩, hbytes.1⟩, hbytes.2⟩, hid⟩

theorem rowOk_bytes {row : OtherDomainCounter} (h : rowOk validKey checkpointed hour row = true) :
    row.bytes ≤ (I64_MAX, I64_MAX) := by
  unfold rowOk at h
  simp only [Bool.and_eq_true, decide_eq_true_eq] at h
  exact ⟨h.1.1.2, h.1.2⟩

/-- **A merge of two reports the control plane takes is one it takes**, where a counter's id
belongs to one segment. -/
theorem merge_valid {now : ℤ} (hold : validateFor validKey old now = .ok ())
    (hnext : validateFor validKey next now = .ok ())
    (hids : ∀ a ∈ old.counters ++ next.counters, ∀ b ∈ old.counters ++ next.counters,
      a.counterId = b.counterId → a.segment = b.segment)
    (h : mergeDetailCheckpoint old next = some merged) :
    validateFor validKey merged now = .ok () := by
  obtain ⟨hseg, hnodup⟩ := merge_rows h
  obtain ⟨⟨hversion, hversion', hepoch, hactivation, hgeneration, hhour⟩, hlength, hmerged⟩ :=
    mergeDetailCheckpoint_some h
  rw [validateFor_iff] at hold hnext ⊢
  obtain ⟨henvelope, hrows⟩ := hold
  obtain ⟨henvelope', hrows'⟩ := hnext
  rw [hversion, rowsOk_iff] at hrows
  rw [hversion', rowsOk_iff] at hrows'
  have hmax : hourOf (max next.readAtUnixSecs old.readAtUnixSecs) = hourOf next.readAtUnixSecs := by
    unfold hourOf
    rcases le_total next.readAtUnixSecs old.readAtUnixSecs with hle | hle
    · rw [max_eq_right hle, hhour]
    · rw [max_eq_left hle]
  -- every row of either report is one of the merged report's hour
  have hall : ∀ row ∈ old.counters ++ next.counters,
      rowOk validKey true (hourOf next.readAtUnixSecs) row = true := by
    intro row hrow
    rcases List.mem_append.mp hrow with hrow | hrow
    · have hok := (hrows.1 row hrow).1
      unfold hourOf at hok ⊢
      rw [hhour] at hok
      exact hok
    · exact (hrows'.1 row hrow).1
  have hbytes : ∀ row ∈ merged.counters, row.bytes ≤ (I64_MAX, I64_MAX) := by
    intro row hrow
    refine (merge_atMost h row.segment _).mpr ⟨?_, ?_⟩ row hrow rfl
    · intro r hr _
      exact rowOk_bytes (hall r (List.mem_append_left _ hr))
    · intro r hr _
      exact rowOk_bytes (hall r (List.mem_append_right _ hr))
  refine ⟨?_, ?_⟩
  · subst hmerged
    unfold envelopeOk at henvelope henvelope' ⊢
    simp only [Bool.and_eq_true, decide_eq_true_eq, Bool.or_eq_true, List.length_map] at henvelope henvelope' ⊢
    obtain ⟨⟨⟨⟨⟨⟨⟨⟨-, -⟩, -⟩, -⟩, hread⟩, -⟩, -⟩, -⟩, -⟩ := henvelope
    obtain ⟨⟨⟨⟨⟨⟨⟨⟨hv, he⟩, he'⟩, -⟩, hread'⟩, -⟩, ha⟩, ha'⟩, hg⟩ := henvelope'
    exact ⟨⟨⟨⟨⟨⟨⟨⟨hv, he⟩, he'⟩, hlength⟩, max_le hread' hread⟩, .inl hversion'⟩, ha⟩,
      ha'.trans (le_max_left _ _)⟩, hg⟩
  · have hver : merged.version = DETAIL_CHECKPOINT_VERSION := by rw [hmerged]; exact hversion'
    have hread : hourOf merged.readAtUnixSecs = hourOf next.readAtUnixSecs := by
      rw [hmerged]
      exact hmax
    rw [hver, hread, rowsOk_iff]
    refine ⟨fun row hrow => ⟨?_, fun _ => List.not_mem_nil, List.not_mem_nil⟩, fun _ => ?_, hnodup⟩
    · obtain ⟨r, hr, hsame⟩ := (hseg row.segment).mp ⟨row, hrow, rfl⟩
      have hok := rowOk_counterOf (hall r hr) (hbytes row hrow)
      rw [hsame] at hok
      exact hok
    · -- two rows of one id are of one segment, so they are one row
      refine List.Nodup.map_on (fun x hx y hy hid => ?_) hnodup.of_map
      obtain ⟨a, ha, hax⟩ := (hseg x.segment).mp ⟨x, hx, rfl⟩
      obtain ⟨b, hb, hby⟩ := (hseg y.segment).mp ⟨y, hy, rfl⟩
      have hida : a.counterId = x.counterId := congrArg (fun s : Segment => s.2.2.2) hax
      have hidb : b.counterId = y.counterId := congrArg (fun s : Segment => s.2.2.2) hby
      have hsame : a.segment = b.segment := hids a ha b hb (by rw [hida, hidb, hid])
      exact List.inj_on_of_nodup_map hnodup hx hy (by rw [← hax, ← hby, hsame])

end Brocade.Detail
