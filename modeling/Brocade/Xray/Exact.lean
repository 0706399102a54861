/-
The codec is total and exact.

Totality is one fact about the cursor, carried from the reads up to the loops.  Exactness is one
fact about a read at the place where something was written, whatever stands before and behind it.
-/
import Brocade.Xray.Wire

namespace Brocade.Xray

variable {data : Bytes}

/-! ### The cursor -/

/-- A read that starts inside stays inside, goes on only, and gets somewhere where it succeeds. -/
structure Advances {α : Type} (data : Bytes) (cursor : ℕ) (read : Read α) : Prop where
  le : cursor ≤ read.2
  inside : read.2 ≤ data.length

theorem readVarintFrom_advances : ∀ (left shift value cursor : ℕ), cursor ≤ data.length →
    Advances data cursor (readVarintFrom data left shift value cursor) ∧
      ∀ v, (readVarintFrom data left shift value cursor).1 = .ok v →
        cursor < (readVarintFrom data left shift value cursor).2 := by
  intro left
  induction left with
  | zero =>
    intro shift value cursor hcursor
    exact ⟨⟨Nat.le_refl _, hcursor⟩, fun v hv => by cases hv⟩
  | succ left ih =>
    intro shift value cursor hcursor
    rw [readVarintFrom]
    cases hbyte : data[cursor]? with
    | none => exact ⟨⟨Nat.le_refl _, hcursor⟩, fun v hv => by cases hv⟩
    | some byte =>
      have hlt : cursor < data.length := (List.getElem?_eq_some_iff.mp hbyte).1
      dsimp only
      by_cases hlast : byte.toNat < 128
      · rw [if_pos hlast]
        exact ⟨⟨Nat.le_succ _, hlt⟩, fun _ _ => Nat.lt_succ_self _⟩
      · rw [if_neg hlast]
        obtain ⟨hrest, hok⟩ := ih (shift + 7)
          (value ||| (byte.toNat % 128) <<< shift % 2 ^ 64) (cursor + 1) hlt
        refine ⟨⟨Nat.le_of_succ_le hrest.le, hrest.inside⟩, fun v hv => ?_⟩
        exact Nat.lt_of_succ_le hrest.le

theorem readVarint_advances {cursor : ℕ} (hcursor : cursor ≤ data.length) :
    Advances data cursor (readVarint data cursor) ∧
      ∀ v, (readVarint data cursor).1 = .ok v → cursor < (readVarint data cursor).2 :=
  readVarintFrom_advances 10 0 0 cursor hcursor

theorem take_advances {cursor : ℕ} (hcursor : cursor ≤ data.length) (length : ℕ) :
    Advances data cursor (take data cursor length) := by
  rw [take]
  by_cases hfits : cursor + length ≤ data.length
  · rw [if_pos hfits]
    exact ⟨Nat.le_add_right _ _, hfits⟩
  · rw [if_neg hfits]
    exact ⟨Nat.le_refl _, hcursor⟩

theorem readValue_advances {cursor : ℕ} (hcursor : cursor ≤ data.length) (wireType : ℕ) :
    Advances data cursor (readValue data wireType cursor) := by
  have hvarint := (readVarint_advances hcursor).1
  have htake := take_advances hcursor
  rw [readValue]
  by_cases h0 : wireType = 0
  · rw [if_pos h0]
    generalize readVarint data cursor = read at hvarint ⊢
    obtain ⟨result, cursor'⟩ := read
    cases result with
    | error e => exact ⟨hvarint.le, hvarint.inside⟩
    | ok value => exact ⟨hvarint.le, hvarint.inside⟩
  rw [if_neg h0]
  by_cases h1 : wireType = 1
  · rw [if_pos h1]
    have hfixed := htake 8
    generalize take data cursor 8 = read at hfixed ⊢
    obtain ⟨result, cursor'⟩ := read
    cases result with
    | error e => exact ⟨hfixed.le, hfixed.inside⟩
    | ok value => exact ⟨hfixed.le, hfixed.inside⟩
  rw [if_neg h1]
  by_cases h2 : wireType = 2
  · rw [if_pos h2]
    generalize readVarint data cursor = read at hvarint ⊢
    obtain ⟨result, cursor'⟩ := read
    cases result with
    | error e => exact ⟨hvarint.le, hvarint.inside⟩
    | ok length =>
      have hbytes := take_advances hvarint.inside length
      dsimp only
      generalize take data cursor' length = read at hbytes ⊢
      obtain ⟨result, cursor''⟩ := read
      cases result with
      | error e => exact ⟨Nat.le_trans hvarint.le hbytes.le, hbytes.inside⟩
      | ok value => exact ⟨Nat.le_trans hvarint.le hbytes.le, hbytes.inside⟩
  rw [if_neg h2]
  by_cases h5 : wireType = 5
  · rw [if_pos h5]
    have hfixed := htake 4
    generalize take data cursor 4 = read at hfixed ⊢
    obtain ⟨result, cursor'⟩ := read
    cases result with
    | error e => exact ⟨hfixed.le, hfixed.inside⟩
    | ok value => exact ⟨hfixed.le, hfixed.inside⟩
  · rw [if_neg h5]
    exact ⟨Nat.le_refl _, hcursor⟩

/-- **A call fails, ends, or moves the cursor on; the cursor never leaves the message.** -/
theorem nextField_advances {cursor : ℕ} (hcursor : cursor ≤ data.length) :
    (nextField data cursor).2 ≤ data.length ∧ ((∃ e, (nextField data cursor).1 = .error e) ∨
        ((nextField data cursor).1 = .ok none ∧ cursor = data.length) ∨
        ∃ field, (nextField data cursor).1 = .ok (some field) ∧
          cursor < (nextField data cursor).2) := by
  rw [nextField]
  by_cases hend : data.length ≤ cursor
  · rw [if_pos hend]
    exact ⟨hcursor, .inr (.inl ⟨rfl, by omega⟩)⟩
  rw [if_neg hend]
  obtain ⟨hkey, hmoved⟩ := readVarint_advances hcursor
  generalize readVarint data cursor = read at hkey hmoved ⊢
  obtain ⟨result, behindKey⟩ := read
  cases result with
  | error e => exact ⟨hkey.inside, .inl ⟨e, rfl⟩⟩
  | ok key =>
    dsimp only
    by_cases hlarge : 2 ^ 32 ≤ key / 8
    · rw [if_pos hlarge]
      exact ⟨hkey.inside, .inl ⟨_, rfl⟩⟩
    rw [if_neg hlarge]
    have hvalue := readValue_advances hkey.inside (key % 8)
    have hlt := hmoved key rfl
    generalize readValue data (key % 8) behindKey = read at hvalue ⊢
    obtain ⟨result, behindValue⟩ := read
    cases result with
    | error e => exact ⟨hvalue.inside, .inl ⟨e, rfl⟩⟩
    | ok value =>
      exact ⟨hvalue.inside, .inr (.inr ⟨(key / 8, value), rfl, Nat.lt_of_lt_of_le hlt hvalue.le⟩)⟩

section Loops

variable {σ ρ : Type} {loop : Loop σ ρ}

/-- **A loop over a message comes to its end**, whatever its steps do with the fields. -/
theorem Loop.from_ends (hstep : ∀ s number field, loop.step s number field ≠ .error .running)
    (hfinish : ∀ s, loop.finish s ≠ .error .running) : ∀ (fuel cursor : ℕ) (s : σ),
      cursor ≤ data.length → data.length < cursor + fuel →
      loop.from data fuel cursor s ≠ .error .running := by
  intro fuel
  induction fuel with
  | zero => intro cursor s hcursor hfuel; omega
  | succ fuel ih =>
    intro cursor s hcursor hfuel
    obtain ⟨hinside, hcases⟩ := nextField_advances hcursor
    rw [Loop.from]
    generalize nextField data cursor = read at hinside hcases ⊢
    obtain ⟨result, cursor'⟩ := read
    obtain ⟨e, he⟩ | ⟨hnone, -⟩ | ⟨⟨number, field⟩, hfield, hmoved⟩ := hcases
    · rw [show result = .error e from he]
      intro h
      cases h
    · rw [show result = .ok none from hnone]
      exact hfinish s
    · rw [show result = .ok (some (number, field)) from hfield]
      dsimp only
      have hnext := hstep s number field
      cases hresult : loop.step s number field with
      | error e =>
        rw [hresult] at hnext
        intro h
        exact hnext (congrArg Except.error (Except.error.inj h))
      | ok next =>
        cases next with
        | inl s' => exact ih cursor' s' hinside (by dsimp only at hmoved; omega)
        | inr r =>
          intro h
          cases h

theorem Loop.run_ends (hstep : ∀ s number field, loop.step s number field ≠ .error .running)
    (hfinish : ∀ s, loop.finish s ≠ .error .running) (s : σ) (data : Bytes) :
    loop.run s data ≠ .error .running :=
  Loop.from_ends hstep hfinish (data.length + 1) 0 s (Nat.zero_le _) (by omega)

end Loops

/-! ### Reading what was written -/

theorem or_shifted {value x shift : ℕ} (hvalue : value < 2 ^ shift)
    (hx : x * 2 ^ shift < 2 ^ 64) : value ||| x <<< shift % 2 ^ 64 = value + x * 2 ^ shift := by
  rw [Nat.shiftLeft_eq, Nat.mod_eq_of_lt hx, Nat.or_comm, Nat.mul_comm x,
    ← Nat.two_pow_add_eq_or_of_lt hvalue x, Nat.add_comm]

theorem readVarintFrom_varint (v : ℕ) : ∀ (before behind : Bytes) (left shift value : ℕ),
    data = before ++ varint v ++ behind → value < 2 ^ shift → v * 2 ^ shift < 2 ^ 64 →
      v < 2 ^ (7 * left) → 0 < left →
      readVarintFrom data left shift value before.length
        = (.ok (value + v * 2 ^ shift), before.length + (varint v).length) := by
  induction v using varint.induct with
  | case1 v hsmall =>
    intro before behind left shift value hdata hvalue hfits _ hleft
    obtain ⟨left, rfl⟩ := Nat.exists_eq_succ_of_ne_zero (Nat.pos_iff_ne_zero.mp hleft)
    rw [varint, if_pos hsmall] at hdata ⊢
    have hbyte : data[before.length]? = some (UInt8.ofNat v) := by
      rw [hdata]
      simp
    have hv : (UInt8.ofNat v).toNat = v := by
      rw [UInt8.toNat_ofNat']
      omega
    rw [readVarintFrom, hbyte]
    dsimp only
    rw [hv, if_pos hsmall, Nat.mod_eq_of_lt hsmall, or_shifted hvalue hfits]
    rfl
  | case2 v hlarge ih =>
    intro before behind left shift value hdata hvalue hfits hleft hpos
    obtain ⟨left, rfl⟩ := Nat.exists_eq_succ_of_ne_zero (Nat.pos_iff_ne_zero.mp hpos)
    rw [varint, if_neg hlarge] at hdata ⊢
    have hbyte : data[before.length]? = some (UInt8.ofNat (v % 128 + 128)) := by
      rw [hdata]
      simp
    have hv : (UInt8.ofNat (v % 128 + 128)).toNat = v % 128 + 128 := by
      rw [UInt8.toNat_ofNat']
      omega
    have hlow : v % 128 * 2 ^ shift < 2 ^ 64 :=
      Nat.lt_of_le_of_lt (Nat.mul_le_mul_right _ (Nat.mod_le _ _)) hfits
    have hparts : v * 2 ^ shift = v % 128 * 2 ^ shift + v / 128 * 2 ^ (shift + 7) := by
      have hdiv := Nat.mod_add_div v 128
      rw [Nat.pow_add, Nat.mul_comm (2 ^ shift), ← Nat.mul_assoc, ← Nat.add_mul]
      congr 1
      omega
    rw [readVarintFrom, hbyte]
    dsimp only
    rw [hv, if_neg (by omega), Nat.add_mod_right, Nat.mod_mod, or_shifted hvalue hlow]
    have hnext : value + v % 128 * 2 ^ shift < 2 ^ (shift + 7) := by
      have hmod : v % 128 ≤ 127 := by omega
      have hle := Nat.mul_le_mul_right (2 ^ shift) hmod
      rw [Nat.pow_add]
      omega
    have hleft' : v / 128 < 2 ^ (7 * left) := by
      rw [Nat.mul_succ, Nat.pow_add] at hleft
      omega
    have hsome : 0 < left := by
      by_contra hnone
      have hzero : left = 0 := by omega
      subst hzero
      simp at hleft'
      omega
    have hrest := ih (before ++ [UInt8.ofNat (v % 128 + 128)]) behind left (shift + 7)
      (value + v % 128 * 2 ^ shift) (by rw [hdata]; simp) hnext (by omega) hleft' hsome
    rw [List.length_append, List.length_singleton] at hrest
    rw [hrest, List.length_cons, Prod.mk.injEq]
    exact ⟨congrArg Except.ok (by omega), by omega⟩

/-- **A number is read as it was written.** -/
theorem readVarint_written {v : ℕ} (hv : v < 2 ^ 64) (data before behind : Bytes)
    (hdata : data = before ++ varint v ++ behind) :
    readVarint data before.length = (.ok v, before.length + (varint v).length) := by
  have hread := readVarintFrom_varint v before behind 10 0 0 hdata (by simp) (by simpa using hv)
    (Nat.lt_trans hv (by decide)) (by decide)
  rw [readVarint, hread]
  simp

theorem take_written (data before value behind : Bytes) (hdata : data = before ++ value ++ behind) :
    take data before.length value.length = (.ok value, before.length + value.length) := by
  rw [take, if_pos (by rw [hdata]; simp), hdata]
  simp

/-- A field that can be written: its number, and the sizes that the machine's words hold. -/
def Writable : ℕ × Field → Prop
  | (number, .varint value) => number < 2 ^ 29 ∧ value < 2 ^ 64
  | (number, .bytes value) => number < 2 ^ 29 ∧ value.length < 2 ^ 64
  | (_, .fixed) => False

/-- A field, as written. -/
def writeField : ℕ × Field → Bytes
  | (number, .varint value) => varintField number value
  | (number, .bytes value) => bytesField number value
  | (_, .fixed) => []

def writeFields (fields : List (ℕ × Field)) : Bytes := fields.flatMap writeField

theorem varint_ne_nil (v : ℕ) : varint v ≠ [] := by
  rw [varint]
  by_cases hsmall : v < 128
  · simp [hsmall]
  · simp [hsmall]

theorem varint_length_pos (v : ℕ) : 0 < (varint v).length :=
  List.length_pos_iff.mpr (varint_ne_nil v)

/-- **A field is read as it was written**, wherever it stands. -/
theorem nextField_written {field : ℕ × Field} (hfield : Writable field) (data before behind : Bytes)
    (hdata : data = before ++ writeField field ++ behind) :
    nextField data before.length = (.ok (some field), before.length + (writeField field).length) := by
  obtain ⟨number, field⟩ := field
  cases field with
  | fixed => exact hfield.elim
  | varint value =>
    obtain ⟨hnumber, hvalue⟩ := hfield
    rw [writeField, varintField] at hdata ⊢
    have hword : number * 8 < 2 ^ 64 := by omega
    have hkey := readVarint_written hword data before (varint value ++ behind) (by rw [hdata]; simp)
    have hread := readVarint_written hvalue data (before ++ varint (number * 8)) behind
      (by rw [hdata]; simp)
    rw [List.length_append] at hread
    have hinside : ¬ data.length ≤ before.length := by
      have hpos := varint_length_pos (number * 8)
      rw [hdata]
      simp only [List.length_append]
      omega
    have hdiv : number * 8 / 8 = number := by omega
    have hmod : number * 8 % 8 = 0 := by omega
    rw [nextField, if_neg hinside, hkey]
    dsimp only
    rw [hdiv, hmod, if_neg (by omega), readValue, if_pos rfl, hread]
    simp [Nat.add_assoc]
  | bytes value =>
    obtain ⟨hnumber, hvalue⟩ := hfield
    rw [writeField, bytesField] at hdata ⊢
    have hword : number * 8 + 2 < 2 ^ 64 := by omega
    have hkey := readVarint_written hword data before (varint value.length ++ value ++ behind)
      (by rw [hdata]; simp)
    have hread := readVarint_written hvalue data (before ++ varint (number * 8 + 2))
      (value ++ behind) (by rw [hdata]; simp)
    have htake := take_written data (before ++ varint (number * 8 + 2) ++ varint value.length)
      value behind (by rw [hdata]; simp)
    rw [List.length_append] at hread
    rw [List.length_append, List.length_append] at htake
    have hinside : ¬ data.length ≤ before.length := by
      have hpos := varint_length_pos (number * 8 + 2)
      rw [hdata]
      simp only [List.length_append]
      omega
    have hdiv : (number * 8 + 2) / 8 = number := by omega
    have hmod : (number * 8 + 2) % 8 = 2 := by omega
    rw [nextField, if_neg hinside, hkey]
    dsimp only
    rw [hdiv, hmod, if_neg (by omega), readValue, if_neg (by decide), if_neg (by decide),
      if_pos rfl, hread]
    dsimp only
    rw [htake]
    simp [Nat.add_assoc]

section Written

variable {σ ρ : Type}

/-- A loop over a list of fields. -/
def Loop.over (loop : Loop σ ρ) : List (ℕ × Field) → σ → Except Stop ρ
  | [], s => loop.finish s
  | (number, field) :: fields, s =>
    match loop.step s number field with
    | .error e => .error e
    | .ok (.inr r) => .ok r
    | .ok (.inl s) => Loop.over loop fields s

theorem Loop.from_written (loop : Loop σ ρ) (fields : List (ℕ × Field)) :
    ∀ (before : Bytes) (fuel : ℕ) (s : σ), (∀ field ∈ fields, Writable field) →
      data = before ++ writeFields fields → fields.length < fuel →
      loop.from data fuel before.length s = loop.over fields s := by
  induction fields with
  | nil =>
    intro before fuel s _ hdata hfuel
    obtain ⟨fuel, rfl⟩ := Nat.exists_eq_succ_of_ne_zero (Nat.ne_of_gt hfuel)
    have hend : data.length ≤ before.length := by rw [hdata]; simp [writeFields]
    rw [Loop.from, nextField, if_pos hend]
    rfl
  | cons field fields ih =>
    intro before fuel s hwritable hdata hfuel
    obtain ⟨fuel, rfl⟩ := Nat.exists_eq_succ_of_ne_zero (Nat.ne_of_gt (Nat.zero_lt_of_lt hfuel))
    have hnext := nextField_written (hwritable field List.mem_cons_self) data before
      (writeFields fields) (by rw [hdata]; simp [writeFields])
    obtain ⟨number, value⟩ := field
    rw [Loop.from, hnext, Loop.over]
    dsimp only
    cases loop.step s number value with
    | error e => rfl
    | ok next =>
      cases next with
      | inr r => rfl
      | inl s' =>
        have hrest := ih (before ++ writeField (number, value)) fuel s'
          (fun f hf => hwritable f (List.mem_cons_of_mem _ hf))
          (by rw [hdata]; simp [writeFields]) (by simpa using hfuel)
        rw [List.length_append] at hrest
        exact hrest

theorem writeField_pos {field : ℕ × Field} (h : Writable field) : 0 < (writeField field).length := by
  obtain ⟨number, field⟩ := field
  cases field with
  | fixed => exact h.elim
  | varint value =>
    rw [writeField, varintField, List.length_append]
    exact Nat.add_pos_left (varint_length_pos _) _
  | bytes value =>
    rw [writeField, bytesField, List.length_append, List.length_append, Nat.add_assoc]
    exact Nat.add_pos_left (varint_length_pos _) _

theorem length_le_writeFields {fields : List (ℕ × Field)} (h : ∀ field ∈ fields, Writable field) :
    fields.length ≤ (writeFields fields).length := by
  induction fields with
  | nil => exact Nat.le_refl _
  | cons field fields ih =>
    have hfirst := writeField_pos (h field List.mem_cons_self)
    have hrest := ih fun f hf => h f (List.mem_cons_of_mem _ hf)
    rw [writeFields] at hrest ⊢
    rw [List.flatMap_cons, List.length_append, List.length_cons]
    omega

/-- **A loop over a written message sees the fields that were written.** -/
theorem Loop.run_written (loop : Loop σ ρ) {fields : List (ℕ × Field)}
    (h : ∀ field ∈ fields, Writable field) (s : σ) :
    loop.run s (writeFields fields) = loop.over fields s :=
  Loop.from_written loop fields [] _ s h rfl (Nat.lt_succ_of_le (length_le_writeFields h))

/-- The fields of a message. -/
def collect : Loop (List (ℕ × Field)) (List (ℕ × Field)) where
  step s number field := .ok (.inl (s ++ [(number, field)]))
  finish s := .ok s

theorem collect_over (fields : List (ℕ × Field)) : ∀ s, collect.over fields s = .ok (s ++ fields) := by
  induction fields with
  | nil => intro s; simp [Loop.over, collect]
  | cons field fields ih =>
    intro s
    have hrest := ih (s ++ [field])
    rw [List.append_assoc, List.singleton_append] at hrest
    exact hrest

theorem collect_written {fields : List (ℕ × Field)} (h : ∀ field ∈ fields, Writable field) :
    collect.run [] (writeFields fields) = .ok fields := by
  rw [Loop.run_written collect h, collect_over, List.nil_append]

end Written

end Brocade.Xray
