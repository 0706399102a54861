/-
The accounting journal changes hands.

The header of the journal names its writer by process id, start ticks and boot id; what it counts
is under a namespace of its own.  When a candidate takes over, its start ticks and boot id are
written and synced first and its process id after them.  A crash between the two leaves the old
process id with the candidate's ticks, which is neither of the two identities that a second
attempt knows (`promotion_recovers_iff`).
-/
import Brocade.Lib.Text
import Mathlib.Algebra.GroupWithZero.Nat

namespace Brocade.Accounting

/-! ### Bytes -/

/-- Little endian, in `k` bytes. -/
def toLe : ℕ → ℕ → List UInt8
  | 0, _ => []
  | k + 1, n => UInt8.ofNat n :: toLe k (n / 256)

def fromLe (bytes : List UInt8) : ℕ := bytes.foldr (fun b n => b.toNat + 256 * n) 0

@[simp] theorem toLe_length (k n : ℕ) : (toLe k n).length = k := by
  induction k generalizing n with
  | zero => rfl
  | succ k ih => rw [toLe, List.length_cons, ih]

theorem fromLe_toLe {k n : ℕ} (h : n < 256 ^ k) : fromLe (toLe k n) = n := by
  induction k generalizing n with
  | zero =>
    rw [Nat.pow_zero, Nat.lt_one_iff] at h
    rw [h]
    rfl
  | succ k ih =>
    have hrest : n / 256 < 256 ^ k := by
      rw [Nat.pow_succ] at h
      exact Nat.div_lt_of_lt_mul (by omega)
    show (UInt8.ofNat n).toNat + 256 * fromLe (toLe k (n / 256)) = n
    rw [ih hrest, UInt8.toNat_ofNat']
    exact Nat.mod_add_div n 256

def HEADER_SIZE : ℕ := 64

def RECORD_SIZE : ℕ := 512

def CAPACITY : ℕ := 16384

def JOURNAL_SIZE : ℕ := HEADER_SIZE + RECORD_SIZE * CAPACITY

/-- A file, byte by byte; the offsets from `size` on are not in it. -/
structure JournalFile where
  size : ℕ
  content : ℕ → UInt8
  regular : Bool
  mode : ℕ

def JournalFile.slice (file : JournalFile) (offset length : ℕ) : List UInt8 :=
  (List.range length).map fun i => file.content (offset + i)

/-- Bytes written at an offset. -/
structure Write where
  offset : ℕ
  bytes : List UInt8

/-- The file behind a write. -/
def Write.apply (write : Write) (file : JournalFile) : JournalFile :=
  { file with
    content := fun i =>
      if write.offset ≤ i ∧ i < write.offset + write.bytes.length then
        write.bytes.getD (i - write.offset) 0
      else file.content i }

theorem slice_apply_part (file : JournalFile) (offset : ℕ) (before part behind : List UInt8) :
    ((⟨offset, before ++ part ++ behind⟩ : Write).apply file).slice (offset + before.length)
      part.length = part := by
  unfold JournalFile.slice
  refine List.ext_getElem (by rw [List.length_map, List.length_range]) fun i hi hpart => ?_
  rw [List.getElem_map, List.getElem_range]
  show (if offset ≤ offset + before.length + i
      ∧ offset + before.length + i < offset + (before ++ part ++ behind).length
    then (before ++ part ++ behind).getD (offset + before.length + i - offset) 0 else _) = _
  rw [if_pos, List.getD_eq_getElem?_getD,
    List.getElem?_append_left (by rw [List.length_append]; omega),
    List.getElem?_append_right (by omega),
    show offset + before.length + i - offset - before.length = i by omega,
    List.getElem?_eq_getElem hpart]
  · rfl
  · rw [List.length_append, List.length_append]
    omega

theorem content_apply_other {write : Write} {i : ℕ} (file : JournalFile)
    (h : i < write.offset ∨ write.offset + write.bytes.length ≤ i) :
    (write.apply file).content i = file.content i := if_neg (by omega)

theorem slice_apply_other {write : Write} {offset length : ℕ} (file : JournalFile)
    (h : offset + length ≤ write.offset ∨ write.offset + write.bytes.length ≤ offset) :
    (write.apply file).slice offset length = file.slice offset length := by
  refine List.map_congr_left fun i hi => content_apply_other file ?_
  have := List.mem_range.mp hi
  omega

/-! ### The header -/

/-- A process as the agent knows it. -/
structure ProcessRef where
  pid : Int32
  startTicks : UInt64

/-- The process id as the header has it. -/
def ProcessRef.writer (process : ProcessRef) : ℕ := process.pid.toUInt32.toNat

def ProcessRef.ticks (process : ProcessRef) : ℕ := process.startTicks.toNat

def JournalFile.writer (file : JournalFile) : ℕ := fromLe (file.slice 28 4)

def JournalFile.ticks (file : JournalFile) : ℕ := fromLe (file.slice 32 8)

def JournalFile.boot (file : JournalFile) : List UInt8 := file.slice 40 16

/-- The header names the process. -/
def JournalFile.OwnedBy (file : JournalFile) (process : ProcessRef) : Prop :=
  file.writer = process.writer ∧ file.ticks = process.ticks

instance (file : JournalFile) (process : ProcessRef) : Decidable (file.OwnedBy process) :=
  inferInstanceAs (Decidable (_ ∧ _))

/-- `BRACCT02` -/
def JOURNAL_MAGIC : List UInt8 := [66, 82, 65, 67, 67, 84, 48, 50]

/-- Size and format are right. -/
def JournalFile.Readable (file : JournalFile) : Prop :=
  file.size = JOURNAL_SIZE ∧ file.slice 0 8 = JOURNAL_MAGIC

/-- The journal, if its size is right. -/
def headerAt (journal : Option JournalFile) : Except String (Option JournalFile) :=
  match journal with
  | none => .ok none
  | some file =>
    if file.size ≠ JOURNAL_SIZE then .error "invalid accounting journal size"
    else if file.slice 0 8 ≠ JOURNAL_MAGIC then .error "invalid accounting journal format"
    else .ok (some file)

theorem headerAt_readable {file : JournalFile} (h : file.Readable) :
    headerAt (some file) = .ok (some file) := by
  unfold headerAt
  simp only
  rw [if_neg (not_not.mpr h.1), if_neg (not_not.mpr h.2)]

/-! ### The boot id -/

/-- A digit of a boot id. -/
def hexDigit (c : Char) : Option ℕ :=
  if '0' ≤ c ∧ c ≤ '9' then some (c.toNat - 48)
  else if 'a' ≤ c ∧ c ≤ 'f' then some (c.toNat - 87)
  else if 'A' ≤ c ∧ c ≤ 'F' then some (c.toNat - 55)
  else none

/-- Two characters read as a number to the base 16; a plus sign may stand first. -/
def fromStrRadix16 (a b : Char) : Option UInt8 :=
  if a = '+' then (hexDigit b).map UInt8.ofNat
  else do
    let high ← hexDigit a
    let low ← hexDigit b
    some (UInt8.ofNat (16 * high + low))

/-- Two digits are a byte. -/
def hexPairs : List Char → Option (List UInt8)
  | [] => some []
  | [_] => none
  | a :: b :: rest => do
      let byte ← fromStrRadix16 a b
      let bytes ← hexPairs rest
      some (byte :: bytes)

/-- `bootId` is what the kernel says, if it can be read. -/
def bootBytes (bootId : Option String) : Except String (List UInt8) :=
  match bootId with
  | none => .error "read boot id"
  | some text =>
    let compact := (Text.trim text).toList.filter fun c => c != '-'
    if (compact.map Char.utf8Size).sum ≠ 32 then
      .error "invalid boot id while promoting accounting"
    else
      match hexPairs compact with
      | some bytes => .ok bytes
      | none => .error "invalid boot id while promoting accounting"

theorem hexDigit_ascii {c : Char} {n : ℕ} (h : hexDigit c = some n) : c.utf8Size = 1 := by
  have hle : c.val ≤ 127 := by
    unfold hexDigit at h
    split at h
    · rename_i hrange
      have hbound : c.val ≤ ('9' : Char).val := hrange.2
      exact UInt32.le_trans hbound (by decide)
    · split at h
      · rename_i hrange
        have hbound : c.val ≤ ('f' : Char).val := hrange.2
        exact UInt32.le_trans hbound (by decide)
      · split at h
        · rename_i hrange
          have hbound : c.val ≤ ('F' : Char).val := hrange.2
          exact UInt32.le_trans hbound (by decide)
        · cases h
  unfold Char.utf8Size
  exact if_pos hle

theorem hexPairs_length {chars : List Char} {bytes : List UInt8} (h : hexPairs chars = some bytes) :
    (chars.map Char.utf8Size).sum = 2 * bytes.length := by
  induction chars using hexPairs.induct generalizing bytes with
  | case1 =>
    cases h
    rfl
  | case2 => cases h
  | case3 a b rest ih =>
    unfold hexPairs at h
    simp only [Option.bind_eq_bind, Option.bind_eq_some_iff] at h
    obtain ⟨byte, hpair, more, hmore, h⟩ := h
    cases h
    have hboth : a.utf8Size = 1 ∧ b.utf8Size = 1 := by
      unfold fromStrRadix16 at hpair
      by_cases hplus : a = '+'
      · rw [if_pos hplus, Option.map_eq_some_iff] at hpair
        obtain ⟨low, hlow, -⟩ := hpair
        exact ⟨hplus ▸ rfl, hexDigit_ascii hlow⟩
      · rw [if_neg hplus] at hpair
        simp only [Option.bind_eq_bind, Option.bind_eq_some_iff] at hpair
        obtain ⟨high, hhigh, low, hlow, -⟩ := hpair
        exact ⟨hexDigit_ascii hhigh, hexDigit_ascii hlow⟩
    rw [List.map_cons, List.map_cons, List.sum_cons, List.sum_cons, hboth.1, hboth.2, ih hmore,
      List.length_cons]
    omega

theorem bootBytes_length {bootId : Option String} {boot : List UInt8}
    (h : bootBytes bootId = .ok boot) : boot.length = 16 := by
  unfold bootBytes at h
  cases bootId with
  | none => cases h
  | some text =>
    simp only at h
    split at h
    · cases h
    · rename_i hlength
      split at h
      · rename_i bytes hpairs
        cases h
        have := hexPairs_length hpairs
        omega
      · cases h

/-! ### The promotion -/

/-- The journal and the kernel's boot id. -/
structure Host where
  journal : Option JournalFile
  bootId : Option String

/-- The writes reach the file. -/
def Host.write (host : Host) (writes : List Write) : Host :=
  { host with journal := host.journal.map fun file =>
      writes.foldl (fun file write => write.apply file) file }

/-- The durable writes of a promotion in their order, each synced before the next; none if the
candidate is there already. -/
def promotion (host : Host) (old candidate : ProcessRef) : Except String (List Write) := do
  match ← headerAt host.journal with
  | none => .error "managed accounting journal is absent"
  | some file =>
    if file.OwnedBy candidate then .ok []
    else if ¬file.OwnedBy old then .error "accounting writer changed before promotion"
    else do
      let boot ← bootBytes host.bootId
      if file.regular = false ∨ file.size ≠ JOURNAL_SIZE ∨ file.mode &&& 0o077 ≠ 0 then
        .error "accounting journal is unsafe for promotion"
      else .ok [⟨32, toLe 8 candidate.ticks ++ boot⟩, ⟨28, toLe 4 candidate.writer⟩]

/-- The header is read again. -/
def promoted (host : Host) (candidate : ProcessRef) : Except String Unit := do
  match ← headerAt host.journal with
  | none => .error "accounting journal vanished after promotion"
  | some file =>
    if file.OwnedBy candidate then .ok () else .error "accounting writer promotion did not persist"

/-- One call, on the host. -/
def promoteJournal (host : Host) (old candidate : ProcessRef) : Except String Unit × Host :=
  match promotion host old candidate with
  | .error e => (.error e, host)
  | .ok [] => (.ok (), host)
  | .ok writes => (promoted (host.write writes) candidate, host.write writes)

/-- What a crash leaves after the first `k` durable writes. -/
def crashed (host : Host) (old candidate : ProcessRef) (k : ℕ) : Host :=
  match promotion host old candidate with
  | .error _ => host
  | .ok writes => host.write (writes.take k)

/-! ### What is promised -/

/-- The header has the candidate's identity, and every other byte is as it was: format,
namespace, count, launch time and records. -/
structure Promoted (host : Host) (file : JournalFile) (after : Host) (candidate : ProcessRef)
    (file' : JournalFile) : Prop where
  journal : after.journal = some file'
  owned : file'.OwnedBy candidate
  boot : bootBytes host.bootId = .ok file'.boot
  size : file'.size = file.size
  others : ∀ i, i < 28 ∨ 56 ≤ i → file'.content i = file.content i

/-- The candidate's identity can be made out, and the file is private. -/
structure Safe (host : Host) (file : JournalFile) : Prop where
  boot : ∃ boot, bootBytes host.bootId = .ok boot
  regular : file.regular = true
  mode : file.mode &&& 0o077 = 0

/-- A candidate that is not the old writer is recovered unless the crash came between its two
writes and both its process id and its start ticks are new. -/
def Recoverable (host : Host) (file : JournalFile) (old candidate : ProcessRef) (k : ℕ) : Prop :=
  if old.writer = candidate.writer ∧ old.ticks = candidate.ticks then
    bootBytes host.bootId = .ok file.boot
  else
    Safe host file ∧ (k = 1 → old.writer = candidate.writer ∨ old.ticks = candidate.ticks)

section Steps

variable {host : Host} {file : JournalFile} {old candidate : ProcessRef}

theorem writer_lt (process : ProcessRef) : process.writer < 256 ^ 4 :=
  UInt32.toNat_lt process.pid.toUInt32

theorem ticks_lt (process : ProcessRef) : process.ticks < 256 ^ 8 :=
  UInt64.toNat_lt process.startTicks

/-- The first write, of ticks and boot id. -/
def identityWrite (candidate : ProcessRef) (boot : List UInt8) : Write :=
  ⟨32, toLe 8 candidate.ticks ++ boot⟩

/-- The second write, of the process id. -/
def writerWrite (candidate : ProcessRef) : Write := ⟨28, toLe 4 candidate.writer⟩

theorem identityWrite_length (candidate : ProcessRef) {boot : List UInt8} (h : boot.length = 16) :
    (identityWrite candidate boot).bytes.length = 24 := by
  show (toLe 8 _ ++ boot).length = 24
  rw [List.length_append, toLe_length, h]

theorem writerWrite_length (candidate : ProcessRef) : (writerWrite candidate).bytes.length = 4 := toLe_length 4 _

theorem ticks_identityWrite (candidate : ProcessRef) (boot : List UInt8) (file : JournalFile) :
    ((identityWrite candidate boot).apply file).ticks = candidate.ticks := by
  have hpart := slice_apply_part file 32 [] (toLe 8 candidate.ticks) boot
  rw [toLe_length] at hpart
  exact (congrArg fromLe hpart).trans (fromLe_toLe (ticks_lt candidate))

theorem boot_identityWrite {boot : List UInt8} (h : boot.length = 16) (file : JournalFile) :
    ((identityWrite candidate boot).apply file).boot = boot := by
  have hpart := slice_apply_part file 32 (toLe 8 candidate.ticks) boot []
  rw [toLe_length, h, List.append_nil] at hpart
  exact hpart

theorem writer_writerWrite (file : JournalFile) :
    ((writerWrite candidate).apply file).writer = candidate.writer := by
  have hpart := slice_apply_part file 28 [] (toLe 4 candidate.writer) []
  rw [toLe_length, List.append_nil] at hpart
  exact (congrArg fromLe hpart).trans (fromLe_toLe (writer_lt candidate))

theorem identityWrite_others (candidate : ProcessRef) {boot : List UInt8} (h : boot.length = 16) (file : JournalFile) :
    (∀ i, i < 32 ∨ 56 ≤ i → ((identityWrite candidate boot).apply file).content i = file.content i)
      ∧ ((identityWrite candidate boot).apply file).writer = file.writer
      ∧ (file.Readable → ((identityWrite candidate boot).apply file).Readable) := by
  have hlength := identityWrite_length candidate h
  refine ⟨fun i hi => content_apply_other file ?_, congrArg fromLe (slice_apply_other file (.inl ?_)),
    fun hreadable => ⟨hreadable.1, (slice_apply_other file (.inl ?_)).trans hreadable.2⟩⟩
  · show i < 32 ∨ 32 + _ ≤ i
    omega
  · show 28 + 4 ≤ 32
    omega
  · show 0 + 8 ≤ 32
    omega

theorem writerWrite_others (candidate : ProcessRef) (file : JournalFile) :
    (∀ i, i < 28 ∨ 32 ≤ i → ((writerWrite candidate).apply file).content i = file.content i)
      ∧ ((writerWrite candidate).apply file).ticks = file.ticks
      ∧ ((writerWrite candidate).apply file).boot = file.boot
      ∧ (file.Readable → ((writerWrite candidate).apply file).Readable) := by
  have hlength := writerWrite_length candidate
  refine ⟨fun i hi => content_apply_other file ?_, congrArg fromLe (slice_apply_other file (.inr ?_)),
    slice_apply_other file (.inr ?_),
    fun hreadable => ⟨hreadable.1, (slice_apply_other file (.inl ?_)).trans hreadable.2⟩⟩
  · show i < 28 ∨ 28 + _ ≤ i
    omega
  · show 28 + _ ≤ 32
    omega
  · show 28 + _ ≤ 40
    omega
  · show 0 + 8 ≤ 28
    omega

/-- A journal with both writes. -/
def replaced (candidate : ProcessRef) (boot : List UInt8) (file : JournalFile) : JournalFile :=
  (writerWrite candidate).apply ((identityWrite candidate boot).apply file)

theorem replaced_readable {boot : List UInt8} (h : boot.length = 16) (hreadable : file.Readable) :
    (replaced candidate boot file).Readable :=
  (writerWrite_others candidate _).2.2.2 ((identityWrite_others candidate h file).2.2 hreadable)

theorem replaced_owned (boot : List UInt8) (file : JournalFile) :
    (replaced candidate boot file).OwnedBy candidate :=
  ⟨writer_writerWrite _, (writerWrite_others candidate _).2.1.trans (ticks_identityWrite candidate boot file)⟩

/-- **Both writes make exactly the candidate's header.** -/
theorem replaced_promoted {after : Host} {boot : List UInt8}
    (hboot : bootBytes host.bootId = .ok boot)
    (hafter : after.journal = some (replaced candidate boot file)) :
    Promoted host file after candidate (replaced candidate boot file) where
  journal := hafter
  owned := replaced_owned boot file
  boot := by
    rw [hboot, replaced, (writerWrite_others candidate _).2.2.1,
      boot_identityWrite (bootBytes_length hboot)]
  size := rfl
  others i hi := by
    rw [replaced, (writerWrite_others candidate _).1 i (by omega),
      (identityWrite_others candidate (bootBytes_length hboot) file).1 i (by omega)]

/-! ### What a call does -/

theorem promotion_done (hjournal : host.journal = some file) (hreadable : file.Readable)
    (howned : file.OwnedBy candidate) : promotion host old candidate = .ok [] := by
  unfold promotion
  rw [hjournal, headerAt_readable hreadable]
  exact if_pos howned

theorem promotion_foreign (hjournal : host.journal = some file) (hreadable : file.Readable)
    (hcandidate : ¬file.OwnedBy candidate) (hold : ¬file.OwnedBy old) :
    promotion host old candidate = .error "accounting writer changed before promotion" := by
  unfold promotion
  rw [hjournal, headerAt_readable hreadable]
  exact (if_neg hcandidate).trans (if_pos hold)

theorem promotion_safe (hjournal : host.journal = some file) (hreadable : file.Readable)
    (hcandidate : ¬file.OwnedBy candidate) (hold : file.OwnedBy old) (hsafe : Safe host file)
    {boot : List UInt8} (hboot : bootBytes host.bootId = .ok boot) :
    promotion host old candidate = .ok [identityWrite candidate boot, writerWrite candidate] := by
  have hchecks : ¬(file.regular = false ∨ file.size ≠ JOURNAL_SIZE ∨ file.mode &&& 0o077 ≠ 0) := by
    rw [hsafe.regular, hsafe.mode]
    simp [hreadable.1]
  unfold promotion
  rw [hjournal, headerAt_readable hreadable]
  refine (if_neg hcandidate).trans ((if_neg (not_not.mpr hold)).trans ?_)
  rw [hboot]
  exact if_neg hchecks

theorem promotion_unsafe (candidate : ProcessRef) (hjournal : host.journal = some file) (hreadable : file.Readable)
    (hcandidate : ¬file.OwnedBy candidate) (hold : file.OwnedBy old) (hsafe : ¬Safe host file) :
    ∃ e, promotion host old candidate = .error e := by
  unfold promotion
  rw [hjournal, headerAt_readable hreadable]
  cases hboot : bootBytes host.bootId with
  | error e => exact ⟨e, (if_neg hcandidate).trans (if_neg (not_not.mpr hold))⟩
  | ok boot =>
    refine ⟨_, (if_neg hcandidate).trans ((if_neg (not_not.mpr hold)).trans (if_pos ?_))⟩
    by_contra hchecks
    rw [not_or, not_or, not_not, not_not, Bool.not_eq_false] at hchecks
    exact hsafe ⟨⟨boot, hboot⟩, hchecks.1, hchecks.2.2⟩

/-- **A call that finds the old writer leaves exactly the candidate.** -/
theorem promoteJournal_full (candidate : ProcessRef) (hjournal : host.journal = some file) (hreadable : file.Readable)
    (hcandidate : ¬file.OwnedBy candidate) (hold : file.OwnedBy old) (hsafe : Safe host file) :
    (promoteJournal host old candidate).1 = .ok ()
      ∧ ∃ file', Promoted host file (promoteJournal host old candidate).2 candidate file' := by
  obtain ⟨boot, hboot⟩ := hsafe.boot
  have hlength := bootBytes_length hboot
  have hplan : promotion host old candidate
      = .ok [identityWrite candidate boot, writerWrite candidate] :=
    promotion_safe hjournal hreadable hcandidate hold hsafe hboot
  have hafter : (host.write [identityWrite candidate boot, writerWrite candidate]).journal
      = some (replaced candidate boot file) := by
    unfold Host.write
    rw [hjournal]
    rfl
  have hpromoted : promoted (host.write [identityWrite candidate boot, writerWrite candidate])
      candidate = .ok () := by
    unfold promoted
    rw [hafter, headerAt_readable (replaced_readable (bootBytes_length hboot) hreadable)]
    exact if_pos (replaced_owned boot file)
  unfold promoteJournal
  rw [hplan]
  exact ⟨hpromoted, _, replaced_promoted hboot hafter⟩

theorem promoteJournal_done (old : ProcessRef) (hjournal : host.journal = some file) (hreadable : file.Readable)
    (howned : file.OwnedBy candidate) : promoteJournal host old candidate = (.ok (), host) := by
  unfold promoteJournal
  rw [promotion_done hjournal hreadable howned]

theorem promoteJournal_error {e : String} (h : promotion host old candidate = .error e) :
    promoteJournal host old candidate = (.error e, host) := by
  unfold promoteJournal
  rw [h]

theorem write_nil (host : Host) : host.write [] = host := by
  unfold Host.write
  cases host with
  | mk journal bootId => cases journal <;> rfl

theorem promoteJournal_foreign (hjournal : host.journal = some file)
    (hcandidate : ¬file.OwnedBy candidate) (hold : ¬file.OwnedBy old) :
    (promoteJournal host old candidate).2 = host := by
  by_cases hreadable : file.Readable
  · rw [promoteJournal_error (promotion_foreign hjournal hreadable hcandidate hold)]
  · obtain ⟨e, herror⟩ : ∃ e, promotion host old candidate = .error e := by
      unfold promotion headerAt
      rw [hjournal]
      simp only
      by_cases hsize : file.size = JOURNAL_SIZE
      · rw [if_neg (not_not.mpr hsize), if_pos fun hmagic => hreadable ⟨hsize, hmagic⟩]
        exact ⟨_, rfl⟩
      · rw [if_pos hsize]
        exact ⟨_, rfl⟩
    rw [promoteJournal_error herror]

/-! ### A second call after a crash -/

/-- The second call has done what was promised. -/
def Recovered (host : Host) (file : JournalFile) (old candidate : ProcessRef) (k : ℕ) : Prop :=
  (promoteJournal (crashed host old candidate k) old candidate).1 = .ok ()
    ∧ ∃ file', Promoted host file (promoteJournal (crashed host old candidate k) old candidate).2
      candidate file'

theorem recovered_iff_boot (hjournal : host.journal = some file) (hreadable : file.Readable)
    (howned : file.OwnedBy candidate) (k : ℕ) :
    Recovered host file old candidate k ↔ bootBytes host.bootId = .ok file.boot := by
  have hcrashed : crashed host old candidate k = host := by
    unfold crashed
    rw [promotion_done hjournal hreadable howned]
    simp only [List.take_nil]
    exact write_nil host
  unfold Recovered
  rw [hcrashed, promoteJournal_done old hjournal hreadable howned]
  refine ⟨?_, fun hboot => ⟨rfl, file, hjournal, howned, hboot, rfl, fun _ _ => rfl⟩⟩
  rintro ⟨-, file', hpromoted⟩
  have hsame : file' = file := Option.some.inj (hpromoted.journal.symm.trans hjournal)
  rw [← hsame]
  exact hpromoted.boot

theorem recovered_between (hjournal : host.journal = some file) (hreadable : file.Readable)
    (hcandidate : ¬file.OwnedBy candidate) (hold : file.OwnedBy old) (hsafe : Safe host file) :
    Recovered host file old candidate 1
      ↔ old.writer = candidate.writer ∨ old.ticks = candidate.ticks := by
  obtain ⟨boot, hboot⟩ := hsafe.boot
  have hlength := bootBytes_length hboot
  obtain ⟨hothers, hwriter, hreadable'⟩ := identityWrite_others candidate hlength file
  have hplan : promotion host old candidate
      = .ok [identityWrite candidate boot, writerWrite candidate] :=
    promotion_safe hjournal hreadable hcandidate hold hsafe hboot
  have hcrashed : crashed host old candidate 1 = host.write [identityWrite candidate boot] := by
    unfold crashed
    rw [hplan]
    rfl
  have hbetween : (host.write [identityWrite candidate boot]).journal
      = some ((identityWrite candidate boot).apply file) := by
    unfold Host.write
    rw [hjournal]
    rfl
  have hticks := ticks_identityWrite candidate boot file
  have hfresh := hreadable' hreadable
  unfold Recovered
  rw [hcrashed]
  by_cases hpid : old.writer = candidate.writer
  · -- the header is the candidate's already
    have howned : ((identityWrite candidate boot).apply file).OwnedBy candidate :=
      ⟨hwriter.trans (hold.1.trans hpid), hticks⟩
    rw [promoteJournal_done old hbetween hfresh howned]
    refine ⟨fun _ => .inl hpid, fun _ => ⟨rfl, _, hbetween, howned, ?_, rfl, fun i hi => ?_⟩⟩
    · rw [boot_identityWrite hlength]
      exact hboot
    · exact hothers i (by omega)
  · have hnot : ¬((identityWrite candidate boot).apply file).OwnedBy candidate := fun howned =>
      hpid (hold.1.symm.trans (hwriter.symm.trans howned.1))
    by_cases hsame : old.ticks = candidate.ticks
    · -- the header is still the old writer's
      have hstill : ((identityWrite candidate boot).apply file).OwnedBy old :=
        ⟨hwriter.trans hold.1, hticks.trans hsame.symm⟩
      obtain ⟨hok, file', hpromoted⟩ := promoteJournal_full candidate hbetween hfresh
        hnot hstill ⟨⟨boot, hboot⟩, hsafe.regular, hsafe.mode⟩
      refine ⟨fun _ => .inr hsame, fun _ => ⟨hok, file', hpromoted.journal, hpromoted.owned,
        hpromoted.boot, hpromoted.size, fun i hi => ?_⟩⟩
      exact (hpromoted.others i hi).trans (hothers i (by omega))
    · have hforeign : ¬((identityWrite candidate boot).apply file).OwnedBy old := fun howned =>
        hsame (howned.2.symm.trans hticks)
      rw [promoteJournal_error (promotion_foreign hbetween hfresh hnot hforeign)]
      exact ⟨fun h => absurd h.1 nofun, fun h => absurd h (not_or.mpr ⟨hpid, hsame⟩)⟩

/-- **A second call after a crash recovers exactly in these cases.** -/
theorem recovered_iff (hjournal : host.journal = some file) (hreadable : file.Readable)
    (hold : file.OwnedBy old) (k : ℕ) :
    Recovered host file old candidate k ↔ Recoverable host file old candidate k := by
  unfold Recoverable
  by_cases hsame : old.writer = candidate.writer ∧ old.ticks = candidate.ticks
  · rw [if_pos hsame]
    exact recovered_iff_boot hjournal hreadable
      ⟨hold.1.trans hsame.1, hold.2.trans hsame.2⟩ k
  · rw [if_neg hsame]
    have hcandidate : ¬file.OwnedBy candidate := fun howned =>
      hsame ⟨hold.1.symm.trans howned.1, hold.2.symm.trans howned.2⟩
    by_cases hsafe : Safe host file
    · obtain ⟨boot, hboot⟩ := hsafe.boot
      have hplan : promotion host old candidate
          = .ok [identityWrite candidate boot, writerWrite candidate] :=
        promotion_safe hjournal hreadable hcandidate hold hsafe hboot
      match k with
      | 0 =>
        have hcrashed : crashed host old candidate 0 = host := by
          unfold crashed
          rw [hplan]
          exact write_nil host
        unfold Recovered
        rw [hcrashed]
        exact ⟨fun _ => ⟨hsafe, nofun⟩, fun _ =>
          promoteJournal_full candidate hjournal hreadable hcandidate hold hsafe⟩
      | 1 =>
        rw [recovered_between hjournal hreadable hcandidate hold hsafe]
        exact ⟨fun h => ⟨hsafe, fun _ => h⟩, fun h => h.2 rfl⟩
      | k + 2 =>
        have hafter : (crashed host old candidate (k + 2)).journal
            = some (replaced candidate boot file) := by
          have hall : [identityWrite candidate boot, writerWrite candidate].take (k + 2)
              = [identityWrite candidate boot, writerWrite candidate] :=
            List.take_of_length_le (by simp)
          unfold crashed
          rw [hplan]
          simp only [hall]
          unfold Host.write
          rw [hjournal]
          rfl
        have hdone := promoteJournal_done old hafter
          (replaced_readable (bootBytes_length hboot) hreadable) (replaced_owned boot file)
        unfold Recovered
        rw [hdone]
        exact ⟨fun _ => ⟨hsafe, by omega⟩, fun _ => ⟨rfl, _, replaced_promoted hboot hafter⟩⟩
    · obtain ⟨e, herror⟩ := promotion_unsafe candidate hjournal hreadable hcandidate
        hold hsafe
      have hcrashed : crashed host old candidate k = host := by
        unfold crashed
        rw [herror]
      unfold Recovered
      rw [hcrashed, promoteJournal_error herror]
      exact ⟨fun h => absurd h.1 nofun, fun h => absurd h.1 hsafe⟩

end Steps

/-- **When a promotion is recovered.**  A header of the old writer ends as the candidate's after a
crash and a second call exactly in the recoverable cases; a header of neither is never changed. -/
theorem promotion_recovers_iff (host : Host) (file : JournalFile) (old candidate : ProcessRef)
    (hjournal : host.journal = some file) : (file.Readable → file.OwnedBy old → ∀ k,
        (Recovered host file old candidate k ↔ Recoverable host file old candidate k))
      ∧ (¬file.OwnedBy candidate → ¬file.OwnedBy old →
        (promoteJournal host old candidate).2 = host) :=
  ⟨fun hreadable hold k => recovered_iff hjournal hreadable hold k, promoteJournal_foreign hjournal⟩

/-! ### Two processes -/

def sampleOld : ProcessRef := ⟨100, 1000⟩

def sampleCandidate : ProcessRef := ⟨200, 2000⟩

/-- A fresh journal of the old writer. -/
def sampleFile : JournalFile where
  size := JOURNAL_SIZE
  content i := (JOURNAL_MAGIC ++ List.replicate 20 7 ++ toLe 4 sampleOld.writer
    ++ toLe 8 sampleOld.ticks ++ List.replicate 24 9).getD i 0
  regular := true
  mode := 0o600

def sampleHost : Host := ⟨some sampleFile, some "01234567-89ab-cdef-0123-456789abcdef\n"⟩

theorem sampleFile_readable : sampleFile.Readable := ⟨rfl, by decide +kernel⟩

theorem sample_recoverable : Recoverable sampleHost sampleFile sampleOld sampleCandidate 2 := by
  unfold Recoverable
  rw [if_neg (by decide)]
  refine ⟨⟨⟨[1, 35, 69, 103, 137, 171, 205, 239, 1, 35, 69, 103, 137, 171, 205, 239], ?_⟩, rfl, rfl⟩,
    nofun⟩
  decide +kernel

/-- A crash after both writes. -/
theorem promotion_recovers_sample : Recovered sampleHost sampleFile sampleOld sampleCandidate 2 :=
  ((promotion_recovers_iff sampleHost sampleFile sampleOld sampleCandidate rfl).1
    sampleFile_readable (by decide +kernel) 2).mpr sample_recoverable

/-- A crash between the two writes: the second call finds a header of neither, and fails. -/
theorem promotion_stuck : sampleFile.Readable ∧ sampleFile.OwnedBy sampleOld
      ∧ (promoteJournal (crashed sampleHost sampleOld sampleCandidate 1) sampleOld
          sampleCandidate).1 = .error "accounting writer changed before promotion" := by
  refine ⟨sampleFile_readable, by decide +kernel, by decide +kernel⟩

end Brocade.Accounting
