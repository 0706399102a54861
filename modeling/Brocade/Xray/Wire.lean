/-
The agent's protobuf codec.

A message is a sequence of fields, each a key with a number and a wire type and then a value.  The
reader keeps a cursor: it fails, is at the end, or moves it forward, never behind the end of the
message.  So every loop over the fields of a message comes to its end, whatever the bytes are, and
what was written field by field is read back.
-/
import Mathlib.Data.Nat.Bitwise
import Mathlib.Data.List.Basic

namespace Brocade.Xray

abbrev Bytes := List UInt8

/-! ### Writing -/

/-- Seven bits a byte, the lowest first; all bytes but the last have their top bit set. -/
def varint (value : ℕ) : Bytes :=
  if value < 128 then [UInt8.ofNat value]
  else UInt8.ofNat (value % 128 + 128) :: varint (value / 128)

def varintField (field value : ℕ) : Bytes := varint (field * 8) ++ varint value

def bytesField (field : ℕ) (value : Bytes) : Bytes :=
  varint (field * 8 + 2) ++ varint value.length ++ value

def messageField (field : ℕ) (value : Bytes) : Bytes := bytesField field value

def utf8Bytes (s : String) : Bytes := s.toByteArray.data.toList

def typedMessage (typeName : String) (value : Bytes) : Bytes :=
  bytesField 1 (utf8Bytes typeName) ++ bytesField 2 value

/-! ### Reading -/

/-- Fixed-width values are stepped over. -/
inductive Field where
  | varint (value : ℕ)
  | bytes (value : Bytes)
  | fixed

/-- What a read gives, with the cursor behind what it has consumed. -/
abbrev Read (α : Type) := Except String α × ℕ

/-- At most `left` bytes more, the next one to be shifted by `shift`. -/
def readVarintFrom (data : Bytes) : ℕ → ℕ → ℕ → ℕ → Read ℕ
  | 0, _, _, cursor => (.error "protobuf varint is longer than 10 bytes", cursor)
  | left + 1, shift, value, cursor =>
    match data[cursor]? with
    | none => (.error "protobuf varint ends mid-value", cursor)
    | some byte =>
      let value := value ||| (byte.toNat % 128) <<< shift % 2 ^ 64
      if byte.toNat < 128 then (.ok value, cursor + 1)
      else readVarintFrom data left (shift + 7) value (cursor + 1)

def readVarint (data : Bytes) (cursor : ℕ) : Read ℕ := readVarintFrom data 10 0 0 cursor

/-- Bytes are read. -/
def take (data : Bytes) (cursor length : ℕ) : Read Bytes :=
  if cursor + length ≤ data.length then (.ok ((data.drop cursor).take length), cursor + length)
  else (.error "protobuf message ends mid-field", cursor)

/-- The value behind a key. -/
def readValue (data : Bytes) (wireType cursor : ℕ) : Read Field :=
  if wireType = 0 then
    match readVarint data cursor with
    | (.error e, cursor) => (.error e, cursor)
    | (.ok value, cursor) => (.ok (.varint value), cursor)
  else if wireType = 1 then
    match take data cursor 8 with
    | (.error e, cursor) => (.error e, cursor)
    | (.ok _, cursor) => (.ok .fixed, cursor)
  else if wireType = 2 then
    match readVarint data cursor with
    | (.error e, cursor) => (.error e, cursor)
    | (.ok length, cursor) =>
      match take data cursor length with
      | (.error e, cursor) => (.error e, cursor)
      | (.ok value, cursor) => (.ok (.bytes value), cursor)
  else if wireType = 5 then
    match take data cursor 4 with
    | (.error e, cursor) => (.error e, cursor)
    | (.ok _, cursor) => (.ok .fixed, cursor)
  else (.error s!"unsupported protobuf wire type {wireType}", cursor)

/-- One field; `none` at the end of the message. -/
def nextField (data : Bytes) (cursor : ℕ) : Read (Option (ℕ × Field)) :=
  if data.length ≤ cursor then (.ok none, cursor)
  else
    match readVarint data cursor with
    | (.error e, cursor) => (.error e, cursor)
    | (.ok key, cursor) =>
      if 2 ^ 32 ≤ key / 8 then (.error "protobuf field number too large", cursor)
      else
        match readValue data (key % 8) cursor with
        | (.error e, cursor) => (.error e, cursor)
        | (.ok value, cursor) => (.ok (some (key / 8, value)), cursor)

/-! ### Loops over a message -/

/-- How a loop stops without a result: it failed, or it is still running. -/
inductive Stop where
  | failed (message : String)
  | running

/-- A loop over the fields of a message: each step goes on with a state or returns. -/
structure Loop (σ ρ : Type) where
  step : σ → ℕ → Field → Except Stop (σ ⊕ ρ)
  finish : σ → Except Stop ρ

variable {σ ρ : Type}

/-- A loop goes on. -/
def Loop.from (loop : Loop σ ρ) (data : Bytes) : ℕ → ℕ → σ → Except Stop ρ
  | 0, _, _ => .error .running
  | fuel + 1, cursor, s =>
    match nextField data cursor with
    | (.error e, _) => .error (.failed e)
    | (.ok none, _) => loop.finish s
    | (.ok (some (number, field)), cursor) =>
      match loop.step s number field with
      | .error e => .error e
      | .ok (.inr r) => .ok r
      | .ok (.inl s) => Loop.from loop data fuel cursor s

/-- The loop on a message; each of its fields takes at least a byte. -/
def Loop.run (loop : Loop σ ρ) (s : σ) (data : Bytes) : Except Stop ρ :=
  loop.from data (data.length + 1) 0 s

end Brocade.Xray
