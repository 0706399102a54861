/-
The agent's durable queues.

A spool is a file of lines, one serialized fact each.  A producer appends a line, or merges
a checkpoint of detail usage into the last one; a reporter reads the file, sends the lines in
order without holding the file, and removes what was answered from its head.  A file is
replaced as a whole, by a rename.

A line carries two numbers nothing reads: the push that began it and the last push in it.
-/
import Brocade.Detail.Report

namespace Brocade.Queue

open Detail (OtherDomainReport mergeDetailCheckpoint)

/-- What kind of line is dropped. -/
inductive DroppedKind where
  | usage
  | observation
  | load
  | detail
deriving DecidableEq

/-- One queue's file and limits. -/
structure Spool where
  (file endpoint : String)
  max : ℕ
  what : String
  droppedKind : DroppedKind
  terminalStatuses : List ℕ
deriving DecidableEq

/-- The queue of usage reports. -/
def USAGE_SPOOL : Spool where
  file := "usage.spool.jsonl"
  endpoint := "/agent/v1/usage"
  max := 720
  what := "usage"
  droppedKind := .usage
  terminalStatuses := []

/-- The queue of forwarding usage. -/
def FORWARDING_USAGE_SPOOL : Spool where
  file := "forwarding-usage.spool.jsonl"
  endpoint := "/agent/v1/forwarding/usage"
  max := 720
  what := "forwarding usage"
  droppedKind := .usage
  terminalStatuses := []

/-- The queue of other domains. -/
def DOMAIN_DETAIL_SPOOL : Spool where
  file := "other-domain.spool.jsonl"
  endpoint := "/agent/v1/other-domain-usage"
  max := 720
  what := "other-domain"
  droppedKind := .detail
  terminalStatuses := []

/-- The queue of failed targets. -/
def FAILED_DETAIL_SPOOL : Spool :=
  { DOMAIN_DETAIL_SPOOL with
    file := "sniffing-failed.spool.jsonl"
    endpoint := "/agent/v1/sniffing-failed-usage"
    what := "sniffing-failed" }

/-- The queue of observations. -/
def OBSERVATION_SPOOL : Spool where
  file := "observation.spool.jsonl"
  endpoint := "/agent/v1/observation"
  max := 64
  what := "observation"
  droppedKind := .observation
  terminalStatuses := [400, 404, 409, 410, 422]

/-- The queue of load samples. -/
def LOAD_SPOOL : Spool where
  file := "load.spool.jsonl"
  endpoint := "/agent/v1/load"
  max := 120
  what := "load"
  droppedKind := .load
  terminalStatuses := [400, 404, 410, 422]

def DETAIL_SPOOL_MAX_BYTES : ℕ := 32 * 1024 * 1024

/-- The queues that never let go of a fact. -/
def accountingSpools : List Spool :=
  [USAGE_SPOOL, FORWARDING_USAGE_SPOOL, DOMAIN_DETAIL_SPOOL, FAILED_DETAIL_SPOOL]

/-- The serializer of checkpoints, which reads back what it wrote. -/
structure Codec where
  encode : OtherDomainReport → Option String
  decode : String → Option OtherDomainReport
  decode_encode : ∀ {report text}, encode report = some text → decode text = some report

/-- A line and the pushes in it. -/
structure Line where
  /-- the push that began the line -/
  id : ℕ
  /-- the last push in it -/
  last : ℕ
  text : String
deriving DecidableEq

/-! ### A push -/

/-- What is said of a line that cannot be read. -/
def decodeError (spool : Spool) : String :=
  if spool.file = FAILED_DETAIL_SPOOL.file then "cannot decode failed-target checkpoint"
  else "cannot decode domain checkpoint"

/-- The merge of two serialized checkpoints; `none` where they are kept apart. -/
def mergeLines (spool : Spool) (codec : Codec) (previous incoming : String) :
    Except String (Option String) :=
  match codec.decode previous, codec.decode incoming with
  | some old, some next =>
    match mergeDetailCheckpoint old next with
    | none => .ok none
    | some merged =>
      match codec.encode merged with
      | none => .error "cannot encode merged detail checkpoint"
      | some text => .ok (some text)
  | _, _ => .error (decodeError spool)

/-- The merge into the last line, of detail checkpoints only. -/
def mergeTail (spool : Spool) (codec : Codec) (lines : List Line) (text : String) :
    Except String (Option String) :=
  if spool.droppedKind = .detail then
    match lines.getLast? with
    | none => .ok none
    | some previous => mergeLines spool codec previous.text text
  else .ok none

/-- What a push comes to. -/
inductive Pushed where
  /-- the very line is there already -/
  | known (line : Line)
  /-- the file as it is to be, the line the fact is in, and how many lines were let go -/
  | file (lines : List Line) (line : Line) (dropped : ℕ)

def byteLength (lines : List Line) : ℕ := (lines.map fun line => line.text.utf8ByteSize + 1).sum

/-- The lines and the line the fact is in: the last one merged, or a new one. -/
def extend (lines : List Line) (number : ℕ) (text : String) : Option String → List Line × Line
  | some merged =>
    let line : Line := ⟨(lines.getLast?.map (·.id)).getD number, number, merged⟩
    (lines.dropLast ++ [line], line)
  | none => (lines ++ [⟨number, number, text⟩], ⟨number, number, text⟩)

/-- Hold a queue to its length. -/
def bounded (spool : Spool) (lines : List Line) (line : Line) : Except String Pushed :=
  if spool.droppedKind = .detail ∧ DETAIL_SPOOL_MAX_BYTES < byteLength lines then
    .error s!"{spool.what}: detail queue byte limit reached; preserved all checkpoints"
  else if lines.length ≤ spool.max then .ok (.file lines line 0)
  else if spool.droppedKind = .usage ∨ spool.droppedKind = .detail then
    .error s!"{spool.what}: accounting queue is full ({spool.max}); preserved all checkpoints"
  else .ok (.file (lines.drop (lines.length - spool.max)) line (lines.length - spool.max))

/-- A push, on the lines of the file. -/
def pushLines (spool : Spool) (codec : Codec) (lines : List Line) (number : ℕ) (unique : Bool)
    (text : String) : Except String Pushed :=
  match lines.find? fun line => unique && decide (line.text = text) with
  | some line => .ok (.known line)
  | none =>
    match mergeTail spool codec lines text with
    | .error e => .error e
    | .ok merged =>
      bounded spool (extend lines number text merged).1 (extend lines number text merged).2

end Brocade.Queue
