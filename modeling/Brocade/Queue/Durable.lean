/-
The accounting queues lose nothing and keep order.

Every line a push has put into the file is there until a body that says as much is answered
with success, whatever the producers do while a drain is on the network, whichever answers
are lost, and wherever the process dies (`spools_durable`).  A drain works from a copy of
the file; producers only let the lines of the copy grow, so what it removes from the head of
the file is what it sent, and what has grown in the meantime stays.
-/
import Brocade.Queue.Cover

namespace Brocade.Queue

open Detail (OtherDomainCounter OtherDomainReport)

variable {spool : Spool} {codec : Codec}

/-- The body of a line that says all the line said then. -/
def Contains (spool : Spool) (codec : Codec) (body line : Line) : Prop :=
  body.id = line.id ∧ Covers spool codec body.text line.text

/-- What holds of a drain's copy of the file. -/
structure DrainOk (spool : Spool) (codec : Codec) (s : State) (d : Drain) : Prop where
  ordered : d.lines.Pairwise fun a b => a.last < b.id
  written : ∀ l ∈ d.lines, l ∈ s.written
  /-- the file has the lines of the copy at its head, perhaps grown -/
  head : ∀ (i : ℕ) (l : Line), d.lines[i]? = some l → ∃ l', s.file[i]? = some l' ∧ l.Within l'
  answered : ∀ l ∈ d.lines.take d.sent, l ∈ s.acked
  /-- what the copy does not have was answered -/
  whole : ∀ v ∈ s.written, ∀ l ∈ d.lines, v.last ≤ l.last →
    (∃ b ∈ s.acked, Contains spool codec b v) ∨ ∃ l ∈ d.lines, v.Within l

/-- What holds of a queue at any time. -/
structure Inv (spool : Spool) (codec : Codec) (s : State) : Prop where
  ordered : s.file.Pairwise fun a b => a.last < b.id
  fileWritten : ∀ l ∈ s.file, l ∈ s.written
  begun : ∀ v ∈ s.written, v.id ≤ v.last ∧ v.last < s.next
  /-- nothing was written behind the last line of the file -/
  tail : ∀ l, s.file.getLast? = some l → ∀ v ∈ s.written, v.last ≤ l.last
  /-- a line of the file is the latest state of itself -/
  latest : ∀ l ∈ s.file, ∀ v ∈ s.written, v.id = l.id → v.last ≤ l.last
  apart : ∀ v ∈ s.written, ∀ w ∈ s.written, v.id = w.id ∨ v.last < w.id ∨ w.last < v.id
  /-- a line only grows -/
  grows : ∀ v ∈ s.written, ∀ w ∈ s.written, v.Within w → Covers spool codec w.text v.text
  accepted : ∀ a ∈ s.accepted, a.line ∈ s.written ∧ Covers spool codec a.line.text a.text
    ∧ a.line.last ≤ a.number
  sentWritten : ∀ b ∈ s.sent, b ∈ s.written
  receivedSent : ∀ b ∈ s.received, b ∈ s.sent
  ackedReceived : ∀ b ∈ s.acked, b ∈ s.received
  kept : ∀ v ∈ s.written, (∃ l ∈ s.file, v.Within l) ∨ ∃ b ∈ s.acked, Contains spool codec b v
  /-- what is sent comes behind all that was written before it -/
  inTurn : ∀ b ∈ s.sent, ∀ v ∈ s.written, v.last ≤ b.last →
    (∃ r ∈ s.received, Contains spool codec r v) ∨ Contains spool codec b v
  inOrder : ∀ before b after, s.received = before ++ b :: after → ∀ v ∈ s.written,
    v.last ≤ b.last → ∃ r ∈ before ++ [b], Contains spool codec r v
  drain : ∀ d, s.drain = some d → DrainOk spool codec s d

theorem Inv.empty : Inv spool codec .empty where
  ordered := .nil
  fileWritten _ h := absurd h List.not_mem_nil
  begun _ h := absurd h List.not_mem_nil
  tail _ h := absurd h nofun
  latest _ h := absurd h List.not_mem_nil
  apart _ h := absurd h List.not_mem_nil
  grows _ h := absurd h List.not_mem_nil
  accepted _ h := absurd h List.not_mem_nil
  sentWritten _ h := absurd h List.not_mem_nil
  receivedSent _ h := absurd h List.not_mem_nil
  ackedReceived _ h := absurd h List.not_mem_nil
  kept _ h := absurd h List.not_mem_nil
  inTurn _ h := absurd h List.not_mem_nil
  inOrder before b after h := by
    have hmem : b ∈ ([] : List Line) := by
      show b ∈ State.empty.received
      rw [h]
      simp
    exact absurd hmem List.not_mem_nil
  drain _ h := absurd h nofun

theorem Inv.contains {s : State} (h : Inv spool codec s) {v w : Line} (hv : v ∈ s.written)
    (hw : w ∈ s.written) (hwithin : v.Within w) : Contains spool codec w v :=
  ⟨hwithin.1.symm, h.grows v hv w hw hwithin⟩

/-! ### Producers -/

/-- A line that a push writes, behind all that was written before. -/
structure Behind (spool : Spool) (codec : Codec) (s : State) (file : List Line) (line : Line) :
    Prop where
  ordered : file.Pairwise fun a b => a.last < b.id
  lines : ∀ l ∈ file, l = line ∨ l ∈ s.file
  tail : file.getLast? = some line
  within : ∀ l ∈ s.file, ∃ l' ∈ file, l.Within l'
  begun : line.id ≤ s.next
  alone : ∀ l ∈ file, l ≠ line → l.id ≠ line.id
  before : ∀ v ∈ s.written, v.id = line.id ∨ v.last < line.id
  covers : ∀ v ∈ s.written, v.id = line.id → Covers spool codec line.text v.text

theorem Inv.behind {s : State} (h : Inv spool codec s) {file : List Line} {line : Line}
    (hextends : Extends spool codec s.next s.file line file) (hlast : line.last = s.next) :
    Behind spool codec s file line := by
  cases hextends with
  | append hid =>
    have hbefore : ∀ v ∈ s.written, v.last < line.id := fun v hv => hid ▸ (h.begun v hv).2
    refine ⟨?_, fun l hl => ?_, by simp, fun l hl => ⟨l, List.mem_append_left _ hl, rfl, le_rfl⟩,
      hid.le, fun l hl hne heq => ?_, fun v hv => .inr (hbefore v hv), fun v hv heq => ?_⟩
    · rw [List.pairwise_append]
      refine ⟨h.ordered, List.pairwise_singleton _ _, fun a ha b hb => ?_⟩
      rw [List.mem_singleton.mp hb]
      exact hbefore a (h.fileWritten a ha)
    · rcases List.mem_append.mp hl with hl | hl
      · exact .inr hl
      · exact .inl (List.mem_singleton.mp hl)
    · rcases List.mem_append.mp hl with hl | hl
      · have := h.begun l (h.fileWritten l hl)
        have := hbefore l (h.fileWritten l hl)
        omega
      · exact hne (List.mem_singleton.mp hl)
    · have := h.begun v hv
      have := hbefore v hv
      omega
  | @replace front tail hfile hid hcovers =>
    have htail : tail ∈ s.file := hfile ▸ List.mem_append_right _ List.mem_cons_self
    have hgetLast : s.file.getLast? = some tail := by rw [hfile, List.getLast?_concat]
    have hordered := h.ordered
    rw [hfile, List.pairwise_append] at hordered
    obtain ⟨hfront, -, hbefore⟩ := hordered
    have hbefore : ∀ l ∈ front, l.last < line.id :=
      fun l hl => hid ▸ hbefore l hl tail List.mem_cons_self
    have htailBegun := h.begun tail (h.fileWritten tail htail)
    have hmem : ∀ l ∈ front, l ∈ s.file := fun l hl => hfile ▸ List.mem_append_left _ hl
    refine ⟨?_, fun l hl => ?_, by simp, fun l hl => ?_, by omega, fun l hl hne heq => ?_,
      fun v hv => ?_, fun v hv heq => ?_⟩
    · rw [List.pairwise_append]
      refine ⟨hfront, List.pairwise_singleton _ _, fun a ha b hb => ?_⟩
      rw [List.mem_singleton.mp hb]
      exact hbefore a ha
    · rcases List.mem_append.mp hl with hl | hl
      · exact .inr (hmem l hl)
      · exact .inl (List.mem_singleton.mp hl)
    · rw [hfile] at hl
      rcases List.mem_append.mp hl with hl | hl
      · exact ⟨l, List.mem_append_left _ hl, rfl, le_rfl⟩
      · obtain rfl := List.mem_singleton.mp hl
        exact ⟨line, List.mem_append_right _ List.mem_cons_self, hid.symm, by omega⟩
    · rcases List.mem_append.mp hl with hl | hl
      · have := hbefore l hl
        have := h.begun l (h.fileWritten l (hmem l hl))
        omega
      · exact hne (List.mem_singleton.mp hl)
    · rcases h.apart v hv tail (h.fileWritten tail htail) with heq | hlt | hlt
      · exact .inl (heq.trans hid.symm)
      · exact .inr (hid ▸ hlt)
      · have := h.tail tail hgetLast v hv
        have := h.begun v hv
        omega
    · have hwithin : v.Within tail := ⟨heq.trans hid, h.tail tail hgetLast v hv⟩
      exact hcovers.trans (h.grows v hv tail (h.fileWritten tail htail) hwithin)

theorem DrainOk.write {s : State} (h : Inv spool codec s) {d : Drain} (hd : DrainOk spool codec s d)
    {file : List Line} {line : Line} {dropped : ℕ} {text : String} {fault : Fault}
    (hextends : Extends spool codec s.next s.file line file) (hlast : line.last = s.next)
    (hrenames : fault.renames = true) :
    DrainOk spool codec (s.write file line dropped text fault) d := by
  refine ⟨hd.ordered, fun l hl => ?_, fun i l hi => ?_, hd.answered, fun v hv l hl hle => ?_⟩
  · show l ∈ if fault.renames = true then line :: s.written else s.written
    rw [if_pos hrenames]
    exact List.mem_cons_of_mem _ (hd.written l hl)
  · obtain ⟨l', hi', hid, hle⟩ := hd.head i l hi
    obtain ⟨l'', hi'', hid', hle'⟩ := hextends.get hlast
      (fun l hl => (h.begun l (h.fileWritten l hl)).2) hi'
    refine ⟨l'', ?_, hid.trans hid', hle.trans hle'⟩
    show (if fault.renames = true then file else s.file)[i]? = some l''
    rw [if_pos hrenames]
    exact hi''
  · have hv : v ∈ if fault.renames = true then line :: s.written else s.written := hv
    rw [if_pos hrenames] at hv
    rcases List.mem_cons.mp hv with rfl | hv
    · have := (h.begun l (hd.written l hl)).2
      omega
    · exact hd.whole v hv l hl hle

/-- **A push that replaces the file** keeps what holds of the queue. -/
theorem Inv.write {s : State} (h : Inv spool codec s) {file : List Line} {line : Line} {dropped : ℕ}
    {text : String} {fault : Fault} (hextends : Extends spool codec s.next s.file line file)
    (hlast : line.last = s.next) (hcovers : Covers spool codec line.text text) :
    Inv spool codec (s.write file line dropped text fault) := by
  by_cases hrenames : fault.renames = true
  · have hb := h.behind hextends hlast
    have hfile : (s.write file line dropped text fault).file = file := if_pos hrenames
    have hwritten : (s.write file line dropped text fault).written = line :: s.written :=
      if_pos hrenames
    have hold : ∀ v ∈ s.written, v.last < line.last := fun v hv => hlast ▸ (h.begun v hv).2
    have hline : ∀ v ∈ line :: s.written, v = line ∨ v ∈ s.written := fun v hv => List.mem_cons.mp hv
    refine ⟨?_, ?_, ?_, ?_, ?_, ?_, ?_, ?_, ?_, h.receivedSent, h.ackedReceived, ?_, ?_, ?_, ?_⟩
    · rw [hfile]
      exact hb.ordered
    · rw [hfile, hwritten]
      intro l hl
      rcases hb.lines l hl with rfl | hl
      · exact List.mem_cons_self
      · exact List.mem_cons_of_mem _ (h.fileWritten l hl)
    · rw [hwritten]
      intro v hv
      show v.id ≤ v.last ∧ v.last < s.next + 1
      rcases hline v hv with rfl | hv
      · exact ⟨hlast ▸ hb.begun, by omega⟩
      · have := h.begun v hv
        omega
    · rw [hfile, hwritten, hb.tail]
      intro l hl v hv
      obtain rfl : line = l := Option.some.inj hl
      rcases hline v hv with rfl | hv
      · exact le_rfl
      · exact (hold v hv).le
    · rw [hfile, hwritten]
      intro l hl v hv hid
      rcases hb.lines l hl with rfl | hl'
      · rcases hline v hv with rfl | hv
        · exact le_rfl
        · exact (hold v hv).le
      · rcases hline v hv with rfl | hv
        · by_cases heq : l = v
          · exact heq ▸ le_rfl
          · exact absurd hid.symm (hb.alone l hl heq)
        · exact h.latest l hl' v hv hid
    · rw [hwritten]
      intro v hv w hw
      rcases hline v hv with rfl | hold'
      · rcases hline w hw with rfl | hw
        · exact .inl rfl
        · exact (hb.before w hw).elim (fun heq => .inl heq.symm) (fun hlt => .inr (.inr hlt))
      · rcases hline w hw with rfl | hw
        · exact (hb.before v hold').elim .inl (fun hlt => .inr (.inl hlt))
        · exact h.apart v hold' w hw
    · rw [hwritten]
      intro v hv w hw hwithin
      rcases hline w hw with rfl | hold'
      · rcases hline v hv with rfl | hv
        · exact .refl _
        · exact hb.covers v hv hwithin.1
      · rcases hline v hv with rfl | hv
        · exact absurd hwithin.2 (not_le.mpr (hold w hold'))
        · exact h.grows v hv w hold' hwithin
    · rw [hwritten]
      intro a ha
      have ha : a ∈ if fault = .nothing then ⟨s.next, line, text⟩ :: s.accepted else s.accepted := ha
      have hcase : a = ⟨s.next, line, text⟩ ∨ a ∈ s.accepted := by
        split at ha
        · exact List.mem_cons.mp ha
        · exact .inr ha
      rcases hcase with rfl | ha
      · exact ⟨List.mem_cons_self, hcovers, hlast.le⟩
      · exact ⟨List.mem_cons_of_mem _ (h.accepted a ha).1, (h.accepted a ha).2⟩
    · rw [hwritten]
      exact fun b hb => List.mem_cons_of_mem _ (h.sentWritten b hb)
    · rw [hfile, hwritten]
      intro v hv
      rcases hline v hv with rfl | hv
      · exact .inl ⟨v, List.mem_of_getLast? hb.tail, rfl, le_rfl⟩
      · rcases h.kept v hv with ⟨l, hl, hid, hle⟩ | hacked
        · obtain ⟨l', hl', hid', hle'⟩ := hb.within l hl
          exact .inl ⟨l', hl', hid.trans hid', hle.trans hle'⟩
        · exact .inr hacked
    · rw [hwritten]
      intro b hsent v hv hle
      rcases hline v hv with rfl | hv
      · exact absurd hle (not_le.mpr (hold b (h.sentWritten b hsent)))
      · exact h.inTurn b hsent v hv hle
    · rw [hwritten]
      intro before b after hsplit v hv hle
      rcases hline v hv with rfl | hv
      · have hsplit : s.received = before ++ b :: after := hsplit
        have hmem : b ∈ s.received := hsplit ▸ List.mem_append_right _ List.mem_cons_self
        exact absurd hle (not_le.mpr (hold b (h.sentWritten b (h.receivedSent b hmem))))
      · exact h.inOrder before b after hsplit v hv hle
    · intro d hd
      have hd : (if fault.answer = none then none else s.drain) = some d := hd
      split at hd
      · exact absurd hd nofun
      · exact DrainOk.write h (h.drain d hd) hextends hlast hrenames
  · have hfile : (s.write file line dropped text fault).file = s.file := if_neg hrenames
    have hwritten : (s.write file line dropped text fault).written = s.written := if_neg hrenames
    have hfault : fault ≠ .nothing := by
      rintro rfl
      exact hrenames rfl
    have haccepted : (s.write file line dropped text fault).accepted = s.accepted := if_neg hfault
    refine ⟨?_, ?_, ?_, ?_, ?_, ?_, ?_, ?_, ?_, h.receivedSent, h.ackedReceived, ?_, ?_, ?_, ?_⟩
    · rw [hfile]
      exact h.ordered
    · rw [hfile, hwritten]
      exact h.fileWritten
    · rw [hwritten]
      intro v hv
      exact ⟨(h.begun v hv).1, (h.begun v hv).2.trans (Nat.lt_succ_self _)⟩
    · rw [hfile, hwritten]
      exact h.tail
    · rw [hfile, hwritten]
      exact h.latest
    · rw [hwritten]
      exact h.apart
    · rw [hwritten]
      exact h.grows
    · rw [hwritten, haccepted]
      exact h.accepted
    · rw [hwritten]
      exact h.sentWritten
    · rw [hfile, hwritten]
      exact h.kept
    · rw [hwritten]
      exact h.inTurn
    · rw [hwritten]
      exact h.inOrder
    · intro d hd
      have hd : (if fault.answer = none then none else s.drain) = some d := hd
      split at hd
      · exact absurd hd nofun
      · obtain ⟨hordered, hdw, hhead, hanswered, hwhole⟩ := h.drain d hd
        exact ⟨hordered, hwritten ▸ hdw, hfile ▸ hhead, hanswered, hwritten ▸ hwhole⟩

theorem Inv.known {s : State} (h : Inv spool codec s) {line : Line} {text : String}
    (hline : line ∈ s.file) (htext : line.text = text) : Inv spool codec
      { s with next := s.next + 1, accepted := ⟨s.next, line, text⟩ :: s.accepted } :=
  { h with
    begun := fun v hv => ⟨(h.begun v hv).1, (h.begun v hv).2.trans (Nat.lt_succ_self _)⟩
    accepted := fun a ha => by
      rcases List.mem_cons.mp ha with rfl | ha
      · have hwritten := h.fileWritten line hline
        exact ⟨hwritten, htext ▸ .refl _, (h.begun line hwritten).2.le⟩
      · exact h.accepted a ha
    drain := fun d hd =>
      let hd := h.drain d hd
      ⟨hd.ordered, hd.written, hd.head, hd.answered, hd.whole⟩ }

theorem spoolRead_ok {file lines : List Line} {fault : Fault}
    (h : spoolRead spool file fault = .ok lines) : lines = file := by
  unfold spoolRead at h
  split at h
  · exact absurd h nofun
  split at h
  · exact absurd h nofun
  · exact (Except.ok.inj h).symm

/-- **A push** keeps what holds of the queue, however it ends. -/
theorem Inv.push {s : State} (hspool : Accounting spool) (h : Inv spool codec s) (unique : Bool)
    (item : Option String) (fault : Fault) :
    Inv spool codec (spoolPush spool codec s unique item fault).1 := by
  unfold spoolPush
  split
  · exact h
  rename_i lines hread
  obtain rfl := spoolRead_ok hread
  split
  · exact h
  rename_i text
  split
  · exact h
  · rename_i line hpush
    rcases pushLines_ok hspool hpush with ⟨l, hl, heq, htext⟩ | ⟨_, _, heq, _⟩
    · obtain rfl : line = l := Pushed.known.inj heq
      exact h.known hl htext
    · exact absurd heq nofun
  · rename_i file line dropped hpush
    rcases pushLines_ok hspool hpush with ⟨_, _, heq, _⟩ | ⟨_, _, heq, hextends, hlast, hcovers⟩
    · exact absurd heq nofun
    · obtain ⟨rfl, rfl, rfl⟩ := Pushed.file.inj heq
      exact h.write hextends hlast hcovers

/-! ### The reporter -/

theorem Inv.endDrain {s : State} (h : Inv spool codec s) :
    Inv spool codec { s with drain := none } :=
  { h with drain := fun _ hd => absurd hd nofun }

theorem Inv.startDrain {s : State} (h : Inv spool codec s) (fault : Fault) :
    Inv spool codec (startDrain spool s fault) := by
  unfold Queue.startDrain
  split
  · rename_i lines hdrain hread
    obtain rfl := spoolRead_ok hread
    split
    · exact h
    refine { h with drain := fun d hd => ?_ }
    obtain rfl : (⟨s.file, 0, false, none⟩ : Drain) = d := Option.some.inj hd
    refine ⟨h.ordered, h.fileWritten, fun i l hi => ⟨l, hi, rfl, le_rfl⟩,
      fun l hl => absurd hl (by simp), fun v hv _ _ _ => ?_⟩
    exact (h.kept v hv).symm
  · exact h

theorem body?_some {d : Drain} {body : Line} (h : d.body? = some body) :
    d.failure = none ∧ d.lines[d.sent]? = some body := by
  unfold Drain.body? at h
  split at h
  · rename_i hfailure
    exact ⟨hfailure, h⟩
  · exact absurd h nofun

theorem DrainOk.inTurn {s : State} (h : Inv spool codec s) {d : Drain} (hd : DrainOk spool codec s d)
    {body : Line} (hbody : d.lines[d.sent]? = some body) {v : Line} (hv : v ∈ s.written)
    (hle : v.last ≤ body.last) :
    (∃ r ∈ s.received, Contains spool codec r v) ∨ Contains spool codec body v := by
  have hmem : body ∈ d.lines := List.mem_of_getElem? hbody
  rcases hd.whole v hv body hmem hle with ⟨b, hb, hcontains⟩ | ⟨l, hl, hwithin⟩
  · exact .inl ⟨b, h.ackedReceived b hb, hcontains⟩
  obtain ⟨j, hj, rfl⟩ := List.getElem_of_mem hl
  obtain ⟨hsent, rfl⟩ := List.getElem?_eq_some_iff.mp hbody
  have hcontains := h.contains hv (hd.written _ hl) hwithin
  rcases lt_trichotomy j d.sent with hlt | heq | hgt
  · have htake : d.lines[j] ∈ d.lines.take d.sent :=
      List.mem_take_iff_getElem.mpr ⟨j, by omega, rfl⟩
    exact .inl ⟨_, h.ackedReceived _ (hd.answered _ htake), hcontains⟩
  · subst heq
    exact .inr hcontains
  · -- a line behind the body began behind it
    have hbehind := List.pairwise_iff_getElem.mp hd.ordered d.sent j hsent hj hgt
    have hbegun := (h.begun v hv).1
    have hid := hwithin.1
    omega

theorem Inv.request {s : State} (h : Inv spool codec s) : Inv spool codec (request s) := by
  unfold Queue.request
  split
  · rename_i d hdrain
    have hd := h.drain d hdrain
    split
    · rename_i body hbody
      split
      · exact h
      obtain ⟨-, hget⟩ := body?_some hbody
      have hmem : body ∈ s.written := hd.written body (List.mem_of_getElem? hget)
      refine { h with sentWritten := ?_, receivedSent := ?_, inTurn := ?_, drain := ?_ }
      · intro b hb
        rcases List.mem_cons.mp hb with rfl | hb
        · exact hmem
        · exact h.sentWritten b hb
      · exact fun b hb => List.mem_cons_of_mem _ (h.receivedSent b hb)
      · intro b hb v hv hle
        rcases List.mem_cons.mp hb with rfl | hb
        · exact hd.inTurn h hget hv hle
        · exact h.inTurn b hb v hv hle
      · intro d' hd'
        obtain rfl : { d with waiting := true } = d' := Option.some.inj hd'
        exact ⟨hd.ordered, hd.written, hd.head, hd.answered, hd.whole⟩
    · exact h
  · exact h

/-- **A body that arrives** comes behind all that was written before it. -/
theorem Inv.arrive {s : State} (h : Inv spool codec s) (i : ℕ) : Inv spool codec (arrive s i) := by
  unfold Queue.arrive
  split
  · rename_i body hbody
    have hsent : body ∈ s.sent := List.mem_of_getElem? hbody
    refine { h with receivedSent := ?_, ackedReceived := ?_, inTurn := ?_, inOrder := ?_, drain := ?_ }
    · intro b hb
      rcases List.mem_append.mp hb with hb | hb
      · exact h.receivedSent b hb
      · exact List.mem_singleton.mp hb ▸ hsent
    · exact fun b hb => List.mem_append_left _ (h.ackedReceived b hb)
    · intro b hb v hv hle
      refine (h.inTurn b hb v hv hle).imp_left ?_
      rintro ⟨r, hr, hcontains⟩
      exact ⟨r, List.mem_append_left _ hr, hcontains⟩
    · intro before b after hsplit v hv hle
      rcases List.eq_nil_or_concat after with rfl | ⟨after, last, rfl⟩
      · obtain ⟨rfl, hlast⟩ := List.append_inj' hsplit rfl
        obtain rfl : body = b := (List.cons.inj hlast).1
        rcases h.inTurn body hsent v hv hle with ⟨r, hr, hcontains⟩ | hcontains
        · exact ⟨r, List.mem_append_left _ hr, hcontains⟩
        · exact ⟨body, List.mem_append_right _ List.mem_cons_self, hcontains⟩
      · have hsplit : s.received ++ [body] = (before ++ b :: after) ++ [last] := by
          rw [List.append_assoc]
          simpa using hsplit
        exact h.inOrder before b after (List.append_inj' hsplit rfl).1 v hv hle
    · intro d hd
      obtain ⟨hordered, hwritten, hhead, hanswered, hwhole⟩ := h.drain d hd
      exact ⟨hordered, hwritten, hhead, hanswered, hwhole⟩
  · exact h

theorem Inv.drainNote {s : State} (h : Inv spool codec s) {d d' : Drain} (hd : s.drain = some d)
    (hlines : d'.lines = d.lines) (hsent : d'.sent = d.sent) :
    Inv spool codec { s with drain := some d' } := by
  refine { h with drain := fun e he => ?_ }
  obtain rfl : d' = e := Option.some.inj he
  obtain ⟨hordered, hwritten, hhead, hanswered, hwhole⟩ := h.drain d hd
  rw [← hlines] at hordered hwritten hhead hanswered hwhole
  rw [← hsent] at hanswered
  exact ⟨hordered, hwritten, hhead, hanswered, hwhole⟩

theorem Inv.answer {s : State} (hspool : Accounting spool) (h : Inv spool codec s) (status : ℕ) :
    Inv spool codec (answer spool s status) := by
  unfold Queue.answer
  split
  · rename_i d hdrain
    have hd := h.drain d hdrain
    split
    · rename_i body hbody
      obtain ⟨-, hget⟩ := body?_some hbody
      split
      · exact h
      split
      · split
        · rename_i hreceived
          refine { h with ackedReceived := ?_, kept := ?_, drain := ?_ }
          · intro b hb
            rcases List.mem_cons.mp hb with rfl | hb
            · exact hreceived
            · exact h.ackedReceived b hb
          · intro v hv
            refine (h.kept v hv).imp_right ?_
            rintro ⟨b, hb, hcontains⟩
            exact ⟨b, List.mem_cons_of_mem _ hb, hcontains⟩
          · intro d' hd'
            obtain rfl : { d with waiting := false, sent := d.sent + 1 } = d' := Option.some.inj hd'
            refine ⟨hd.ordered, hd.written, hd.head, fun l hl => ?_, fun v hv l hl hle => ?_⟩
            · have hl : l ∈ d.lines.take (d.sent + 1) := hl
              rw [List.take_add_one, hget] at hl
              rcases List.mem_append.mp hl with hl | hl
              · exact List.mem_cons_of_mem _ (hd.answered l hl)
              · obtain rfl : l = body := List.mem_singleton.mp hl
                exact List.mem_cons_self
            · refine (hd.whole v hv l hl hle).imp_left ?_
              rintro ⟨b, hb, hcontains⟩
              exact ⟨b, List.mem_cons_of_mem _ hb, hcontains⟩
        · exact h
      · split
        · rename_i hterminal
          rw [hspool.noTerminal] at hterminal
          exact absurd hterminal List.not_mem_nil
        · exact h.drainNote hdrain rfl rfl
    · exact h
  · exact h

theorem Inv.lost {s : State} (h : Inv spool codec s) : Inv spool codec (lost s) := by
  unfold Queue.lost
  split
  · rename_i d hdrain
    split
    · exact h.drainNote hdrain rfl rfl
    · exact h
  · exact h

theorem DrainOk.removes {s : State} (h : Inv spool codec s) {d : Drain}
    (hd : DrainOk spool codec s d) (hsame : sameHead s.file d.lines d.sent = true) {l : Line}
    (hl : l ∈ s.file.take d.sent) {v : Line} (hv : v ∈ s.written) (hwithin : v.Within l) :
    ∃ b ∈ s.acked, Contains spool codec b v := by
  unfold sameHead at hsame
  simp only [Bool.and_eq_true, decide_eq_true_eq] at hsame
  obtain ⟨i, hi, rfl⟩ := List.getElem_of_mem hl
  have htexts := congrArg (fun texts : List String => texts[i]?) hsame.2
  simp only [List.getElem?_map, List.getElem?_eq_getElem hi, Option.map_some] at htexts
  obtain ⟨b, hb, htext⟩ := Option.map_eq_some_iff.mp htexts.symm
  have hacked : b ∈ s.acked := hd.answered b (List.mem_of_getElem? hb)
  have hlt : i < d.sent := by
    have := hi
    rw [List.length_take] at this
    omega
  rw [List.getElem?_take_of_lt hlt] at hb
  obtain ⟨l', hl', hid, -⟩ := hd.head i b hb
  have hsame' : (s.file.take d.sent)[i] = l' := by
    have hget := List.getElem?_take_of_lt (l := s.file) hlt
    rw [List.getElem?_eq_getElem hi, hl'] at hget
    exact Option.some.inj hget
  rw [hsame'] at hwithin htext
  have hmem : l' ∈ s.file := List.mem_of_getElem? hl'
  refine ⟨b, hacked, hid.trans hwithin.1.symm, ?_⟩
  rw [htext]
  exact h.grows v hv l' (h.fileWritten l' hmem) hwithin

theorem Inv.finishDrain {s : State} (h : Inv spool codec s) (fault : Fault) :
    Inv spool codec (finishDrain spool s fault) := by
  unfold Queue.finishDrain
  split
  · rename_i d hdrain
    have hd := h.drain d hdrain
    split
    · exact h
    split
    · exact h.endDrain
    split
    · exact h.endDrain
    rename_i current hread
    obtain rfl := spoolRead_ok hread
    split
    · rename_i hremove
      rw [Bool.and_eq_true] at hremove
      have hdrop : ∀ l ∈ s.file.drop d.sent, l ∈ s.file := fun l hl => List.mem_of_mem_drop hl
      refine { h with ordered := ?_, fileWritten := ?_, tail := ?_, latest := ?_, kept := ?_, drain := ?_ }
      · exact h.ordered.sublist (List.drop_sublist _ _)
      · exact fun l hl => h.fileWritten l (hdrop l hl)
      · intro l hl
        refine h.tail l ?_
        have hl : (s.file.drop d.sent).getLast? = some l := hl
        rw [List.getLast?_drop] at hl
        split at hl
        · exact absurd hl nofun
        · exact hl
      · exact fun l hl => h.latest l (hdrop l hl)
      · intro v hv
        rcases h.kept v hv with ⟨l, hl, hwithin⟩ | hacked
        · rw [← List.take_append_drop d.sent s.file] at hl
          rcases List.mem_append.mp hl with hl | hl
          · exact .inr (hd.removes h hremove.1 hl hv hwithin)
          · exact .inl ⟨l, hl, hwithin⟩
        · exact .inr hacked
      · exact fun _ he => absurd he nofun
    · exact h.endDrain
  · exact h

/-! ### Runs -/

theorem Inv.step {s : State} (hspool : Accounting spool) (h : Inv spool codec s) (event : Event) :
    Inv spool codec (step spool codec s event) := by
  cases event with
  | push unique item fault => exact h.push hspool unique item fault
  | startDrain fault => exact h.startDrain fault
  | request => exact h.request
  | arrive i => exact h.arrive i
  | answer status => exact h.answer hspool status
  | lost => exact h.lost
  | finishDrain fault => exact h.finishDrain fault
  | crash => exact h.endDrain

theorem Inv.run (hspool : Accounting spool) (events : List Event) :
    Inv spool codec (run spool codec events) := by
  have hfold : ∀ (events : List Event) (s : State), Inv spool codec s →
      Inv spool codec (events.foldl (Queue.step spool codec) s) := by
    intro events
    induction events with
    | nil => exact fun s h => h
    | cons event events ih => exact fun s h => ih _ (h.step hspool event)
  exact hfold events .empty .empty

theorem Inv.ordered_deliveries {s : State} (h : Inv spool codec s) {before after : List Line}
    (hsplit : s.received = before ++ after) {v w : Line} (hv : v ∈ s.written) (hw : w ∈ s.written)
    (hlt : v.last < w.last) (hdelivered : ∃ b ∈ before, Contains spool codec b w) :
    ∃ b ∈ before, Contains spool codec b v := by
  obtain ⟨b, hb, hcontains⟩ := hdelivered
  rcases h.apart v hv w hw with hid | hbehind | hbehind
  · -- in one line, the later state says what the earlier did
    exact ⟨b, hb, hcontains.1.trans hid.symm, hcontains.2.trans (h.grows v hv w hw ⟨hid, hlt.le⟩)⟩
  · obtain ⟨front, rest, rfl⟩ := List.append_of_mem hb
    have hmem : b ∈ s.received := by
      rw [hsplit]
      exact List.mem_append_left _ hb
    have hle : v.last ≤ b.last := by
      have := h.begun b (h.sentWritten b (h.receivedSent b hmem))
      have := hcontains.1
      omega
    rw [List.append_assoc, List.cons_append] at hsplit
    obtain ⟨r, hr, hcontains'⟩ := h.inOrder front b (rest ++ after) hsplit v hv hle
    refine ⟨r, ?_, hcontains'⟩
    rcases List.mem_append.mp hr with hr | hr
    · exact List.mem_append_left _ hr
    · exact List.mem_append_right _ (List.mem_singleton.mp hr ▸ List.mem_cons_self)
  · have := h.begun v hv
    omega

/-- **A push that fails leaves the file**, unless all that failed is the sync of the directory
behind a file that is in place. -/
theorem spoolPush_error {s : State} {unique : Bool} {item : Option String} {fault : Fault}
    {e : String} (h : (spoolPush spool codec s unique item fault).2 = some (.error e)) :
    (spoolPush spool codec s unique item fault).1.file = s.file ∨ fault = .unsynced
        ∧ (spoolPush spool codec s unique item .nothing).2 = some (.ok ())
        ∧ (spoolPush spool codec s unique item fault).1.file
          = (spoolPush spool codec s unique item .nothing).1.file := by
  by_cases hfault : fault = .unsynced
  · subst hfault
    have hread : spoolRead spool s.file .unsynced = spoolRead spool s.file .nothing := rfl
    unfold spoolPush at h ⊢
    rw [hread] at h ⊢
    split
    · exact .inl rfl
    split
    · exact .inl rfl
    split
    · exact .inl rfl
    · exact .inl rfl
    · exact .inr ⟨rfl, rfl, rfl⟩
  · refine .inl ?_
    unfold spoolPush at h ⊢
    split
    · rfl
    split
    · rfl
    split
    · rfl
    · rfl
    · rename_i hread _ _ _ file line dropped hpush
      simp only [hread, hpush] at h
      show (if fault.renames = true then file else s.file) = s.file
      refine if_neg fun hrenames => ?_
      cases fault with
      | nothing => exact absurd h nofun
      | read => exact absurd hrenames nofun
      | write => exact absurd hrenames nofun
      | unsynced => exact hfault rfl
      | crashBefore => exact absurd hrenames nofun
      | crashAfter => exact absurd h nofun

/-- **The accounting queues lose nothing and keep order.**  Whatever happens: what was pushed well
is in the file until a body that contains it is answered with success; what contains a fact
covers it, and is the very fact where nothing is merged; and what arrives has before it, or in
it, everything pushed before. -/
theorem spools_durable (hspool : spool ∈ accountingSpools) (events : List Event) :
    let s := run spool codec events
    (∀ a ∈ s.accepted, (∃ l ∈ s.file, Contains spool codec l a.line)
        ∨ ∃ b ∈ s.acked, b ∈ s.received ∧ Contains spool codec b a.line)
      ∧ (∀ a ∈ s.accepted, ∀ b, Contains spool codec b a.line → Covers spool codec b.text a.text
          ∧ (spool.droppedKind ≠ .detail → b.text = a.text))
      ∧ (∀ before after, s.received = before ++ after → ∀ a ∈ s.accepted, ∀ a' ∈ s.accepted,
          a.number < a'.number → a'.line.last = a'.number →
          (∃ b ∈ before, Contains spool codec b a'.line) →
            ∃ b ∈ before, Contains spool codec b a.line)
      ∧ ∀ unique item fault e, (spoolPush spool codec s unique item fault).2 = some (.error e) →
          (spoolPush spool codec s unique item fault).1.file = s.file ∨ fault = .unsynced
              ∧ (spoolPush spool codec s unique item .nothing).2 = some (.ok ())
              ∧ (spoolPush spool codec s unique item fault).1.file
                = (spoolPush spool codec s unique item .nothing).1.file := by
  intro s
  have h : Inv spool codec s := .run (accounting hspool) events
  refine ⟨fun a ha => ?_, fun a ha b hcontains => ?_,
    fun before after hsplit a ha a' ha' hlt hwrote => ?_, fun unique item fault e => spoolPush_error⟩
  · have hwritten := (h.accepted a ha).1
    rcases h.kept a.line hwritten with ⟨l, hl, hwithin⟩ | ⟨b, hb, hcontains⟩
    · exact .inl ⟨l, hl, h.contains hwritten (h.fileWritten l hl) hwithin⟩
    · exact .inr ⟨b, hb, h.ackedReceived b hb, hcontains⟩
  · have hcovers := hcontains.2.trans (h.accepted a ha).2.1
    exact ⟨hcovers, fun hkind => hcovers.eq hkind⟩
  · have hle := (h.accepted a ha).2.2
    exact h.ordered_deliveries hsplit (h.accepted a ha).1 (h.accepted a' ha').1 (by omega)

/-! ### A checkpoint that grows while it is on the way -/

/-- A row, as serialised. -/
def counterJson (row : OtherDomainCounter) : String :=
  (if row.counterId = 0 then "\x7b" else "\x7b\"counter_id\":" ++ toString row.counterId ++ ",")
    ++ "\"bucket\":" ++ toString row.bucket ++ ",\"label\":\"" ++ row.label
    ++ "\",\"domain\":\"" ++ row.domain ++ "\",\"uplink_bytes\":" ++ toString row.uplinkBytes
    ++ ",\"downlink_bytes\":" ++ toString row.downlinkBytes ++ "\x7d"

/-- A report as it is serialized, where no character needs to be escaped. -/
def reportJson (report : OtherDomainReport) : String :=
  "\x7b\"version\":" ++ toString report.version ++ ",\"epoch\":\"" ++ report.epoch
    ++ "\",\"activation_unix_secs\":" ++ toString report.activationUnixSecs
    ++ ",\"read_at_unix_secs\":" ++ toString report.readAtUnixSecs
    ++ ",\"usage_generation_id\":" ++ toString report.usageGenerationId
    ++ ",\"limited\":" ++ toString report.limited
    ++ ",\"counters\":[" ++ ",".intercalate (report.counters.map counterJson) ++ "]\x7d"

/-- The serializer on a few reports. -/
def codecOf (reports : List OtherDomainReport) (h : (reports.map reportJson).Nodup) : Codec where
  encode report := if report ∈ reports then some (reportJson report) else none
  decode text := reports.find? fun report => decide (reportJson report = text)
  decode_encode := by
    intro report text hencode
    split at hencode
    · rename_i hmem
      obtain rfl := Option.some.inj hencode
      have hsome : (reports.find? fun r => decide (reportJson r = reportJson report)).isSome := by
        rw [List.find?_isSome]
        exact ⟨report, hmem, by simp⟩
      obtain ⟨r, hr⟩ := Option.isSome_iff_exists.mp hsome
      have hjson : reportJson r = reportJson report := by simpa using List.find?_some hr
      rw [hr, List.inj_on_of_nodup_map h (List.mem_of_find?_eq_some hr) hmem hjson]
    · exact absurd hencode nofun

/-- A report of the sample. -/
def growingReport (seconds : ℤ) (uplinkBytes : ℕ) : OtherDomainReport where
  version := 2
  epoch := "0123456789abcdef0123456789abcdef"
  activationUnixSecs := 1699992000
  readAtUnixSecs := 1699992000 + seconds
  usageGenerationId := 1
  limited := false
  counters := [⟨1, 1699992000, "u.alice", "example.com", uplinkBytes, 10⟩]

def growingReports : List OtherDomainReport := [growingReport 60 100, growingReport 90 200]

def growingCodec : Codec := codecOf growingReports (by decide +kernel)

/-- The second checkpoint is pushed while the first is on its way; the drain removes nothing, and
the next one delivers both. -/
def growingEvents : List Event :=
  [.push false (some (reportJson (growingReport 60 100))) .nothing, .startDrain .nothing, .request,
    .push false (some (reportJson (growingReport 90 200))) .nothing, .arrive 0, .answer 200,
    .finishDrain .nothing, .startDrain .nothing, .request, .arrive 0, .answer 200,
    .finishDrain .nothing]

theorem spools_durable_growing : let s := run DOMAIN_DETAIL_SPOOL growingCodec growingEvents
    s.accepted.length = 2 ∧ s.received.length = 2 ∧ s.file = []
      ∧ ∀ a ∈ s.accepted, ∃ b ∈ s.acked, b ∈ s.received
        ∧ Contains DOMAIN_DETAIL_SPOOL growingCodec b a.line := by
  intro s
  have hfile : s.file = [] := by decide +kernel
  refine ⟨by decide +kernel, by decide +kernel, hfile, fun a ha => ?_⟩
  have hspool : DOMAIN_DETAIL_SPOOL ∈ accountingSpools := by decide
  rcases (spools_durable hspool growingEvents).1 a ha with ⟨l, hl, -⟩ | hacked
  · have hl : l ∈ s.file := hl
    rw [hfile] at hl
    exact absurd hl List.not_mem_nil
  · exact hacked

/-- **A push that fails may have replaced the file**: its directory could not be synced. -/
theorem unsynced_push_fails :
    ¬ ∀ spool ∈ accountingSpools, ∀ (codec : Codec) (s : State) (unique : Bool)
        (item : Option String) (fault : Fault) (e : String),
      (spoolPush spool codec s unique item fault).2 = some (.error e) →
        (spoolPush spool codec s unique item fault).1.file = s.file := by
  intro h
  have hfile := h DOMAIN_DETAIL_SPOOL (by decide) growingCodec .empty false
    (some (reportJson (growingReport 60 100))) .unsynced "fsync directory" (by decide +kernel)
  exact absurd (congrArg List.length hfile) (by decide +kernel)

end Brocade.Queue
