/-
What a line of a spool says, and what a push does to the file.

A line covers a fact if it is the fact as it was serialized, or, of detail usage, a
checkpoint that says of every segment at least as much.  A push adds a line behind the file
or replaces its last one by a line that covers it (`Extends`).
-/
import Brocade.Queue.Drain

namespace Brocade.Queue

open Detail (OtherDomainReport mergeDetailCheckpoint AtMost)

/-! ### What a checkpoint includes -/

/-- A checkpoint of the same lifetime, generation and hour, and no less of any segment. -/
structure Includes (report earlier : OtherDomainReport) : Prop where
  version : report.version = earlier.version
  epoch : report.epoch = earlier.epoch
  activation : report.activationUnixSecs = earlier.activationUnixSecs
  generation : report.usageGenerationId = earlier.usageGenerationId
  hour : report.readAtUnixSecs.tdiv 3600 = earlier.readAtUnixSecs.tdiv 3600
  readAt : earlier.readAtUnixSecs ≤ report.readAtUnixSecs
  limited : earlier.limited = true → report.limited = true
  rows : ∀ row ∈ earlier.counters, ∃ row' ∈ report.counters,
    row'.segment = row.segment ∧ row.bytes ≤ row'.bytes

theorem Includes.trans {a b c : OtherDomainReport} (h : Includes a b) (h' : Includes b c) :
    Includes a c where
  version := h.version.trans h'.version
  epoch := h.epoch.trans h'.epoch
  activation := h.activation.trans h'.activation
  generation := h.generation.trans h'.generation
  hour := h.hour.trans h'.hour
  readAt := h'.readAt.trans h.readAt
  limited hlimited := h.limited (h'.limited hlimited)
  rows := by
    intro row hrow
    obtain ⟨row', hrow', hseg, hle⟩ := h'.rows row hrow
    obtain ⟨row'', hrow'', hseg', hle'⟩ := h.rows row' hrow'
    exact ⟨row'', hrow'', hseg'.trans hseg, hle.trans hle'⟩

/-- **A merge includes both reports.** -/
theorem merge_includes {old next merged : OtherDomainReport}
    (h : mergeDetailCheckpoint old next = some merged) :
    Includes merged old ∧ Includes merged next := by
  obtain ⟨hsegments, hnodup⟩ := Detail.merge_rows h
  -- the merged row of a segment bounds what either report says of it
  have hrows : ∀ row ∈ old.counters ++ next.counters, ∃ row' ∈ merged.counters,
      row'.segment = row.segment ∧ row.bytes ≤ row'.bytes := by
    intro row hrow
    obtain ⟨row', hrow', hseg⟩ := (hsegments row.segment).mpr ⟨row, hrow, rfl⟩
    have hbound : AtMost merged.counters row.segment row'.bytes := by
      intro r hr hsame
      rw [List.inj_on_of_nodup_map hnodup hr hrow' (hsame.trans hseg.symm)]
    have hboth := Detail.atMost_append.mpr ((Detail.merge_atMost h _ _).mp hbound)
    exact ⟨row', hrow', hseg, hboth row hrow rfl⟩
  obtain ⟨⟨hv, hv', he, ha, hg, hhour⟩, -, rfl⟩ := Detail.mergeDetailCheckpoint_some h
  have hmax : (max next.readAtUnixSecs old.readAtUnixSecs).tdiv 3600
      = next.readAtUnixSecs.tdiv 3600 := by
    rcases le_total next.readAtUnixSecs old.readAtUnixSecs with hle | hle
    · rw [max_eq_right hle, hhour]
    · rw [max_eq_left hle]
  refine ⟨⟨hv'.trans hv.symm, he.symm, ha.symm, hg.symm, hmax.trans hhour.symm, le_max_right _ _,
    fun hlimited => ?_, fun row hrow => hrows row (List.mem_append_left _ hrow)⟩,
    ⟨rfl, rfl, rfl, rfl, hmax, le_max_left _ _, fun hlimited => ?_,
    fun row hrow => hrows row (List.mem_append_right _ hrow)⟩⟩
  · simp [hlimited]
  · simp [hlimited]

/-! ### What a line covers -/

/-- The line says what the fact says. -/
def Covers (spool : Spool) (codec : Codec) (text fact : String) : Prop :=
  text = fact ∨ spool.droppedKind = .detail ∧ ∃ report earlier,
    codec.decode text = some report ∧ codec.decode fact = some earlier ∧ Includes report earlier

variable {spool : Spool} {codec : Codec}

theorem Covers.refl (text : String) : Covers spool codec text text := .inl rfl

theorem Covers.trans {a b c : String} (h : Covers spool codec a b) (h' : Covers spool codec b c) :
    Covers spool codec a c := by
  rcases h with rfl | ⟨hkind, r, r', hr, hr', hle⟩
  · exact h'
  rcases h' with rfl | ⟨-, q, q', hq, hq', hle'⟩
  · exact .inr ⟨hkind, r, r', hr, hr', hle⟩
  · obtain rfl : r' = q := Option.some.inj (hr'.symm.trans hq)
    exact .inr ⟨hkind, r, q', hr, hq', hle.trans hle'⟩

theorem Covers.eq {text fact : String} (hkind : spool.droppedKind ≠ .detail)
    (h : Covers spool codec text fact) : text = fact := by
  rcases h with rfl | ⟨hdetail, _⟩
  · rfl
  · exact absurd hdetail hkind

/-! ### What a push does to the file -/

/-- The line as it is, or as it was when fewer pushes were in it. -/
def Line.Within (line later : Line) : Prop := line.id = later.id ∧ line.last ≤ later.last

/-- A file with a line more, or with another last line, which covers the one it replaces. -/
inductive Extends (spool : Spool) (codec : Codec) (number : ℕ) (file : List Line) (line : Line) :
    List Line → Prop
  | append : line.id = number → Extends spool codec number file line (file ++ [line])
  | replace {front : List Line} {tail : Line} : file = front ++ [tail] → line.id = tail.id →
      Covers spool codec line.text tail.text →
      Extends spool codec number file line (front ++ [line])

theorem mergeTail_some {lines : List Line} {text merged : String}
    (h : mergeTail spool codec lines text = .ok (some merged)) :
    ∃ front tail, lines = front ++ [tail] ∧ Covers spool codec merged tail.text
      ∧ Covers spool codec merged text := by
  unfold mergeTail at h
  split at h
  · rename_i hkind
    split at h
    · exact absurd h nofun
    rename_i tail htail
    obtain ⟨front, rfl⟩ := List.getLast?_eq_some_iff.mp htail
    refine ⟨front, tail, rfl, ?_⟩
    unfold mergeLines at h
    split at h
    · rename_i old next hold hnext
      split at h
      · exact absurd h nofun
      rename_i report hreport
      split at h
      · exact absurd h nofun
      rename_i text' htext
      simp only [Except.ok.injEq, Option.some.injEq] at h
      subst h
      obtain ⟨hincludes, hincludes'⟩ := merge_includes hreport
      exact ⟨.inr ⟨hkind, _, _, codec.decode_encode htext, hold, hincludes⟩,
        .inr ⟨hkind, _, _, codec.decode_encode htext, hnext, hincludes'⟩⟩
    · exact absurd h nofun
  · exact absurd h nofun

/-- A queue that lets go of nothing. -/
structure Accounting (spool : Spool) : Prop where
  kind : spool.droppedKind = .usage ∨ spool.droppedKind = .detail
  noTerminal : spool.terminalStatuses = []

theorem accounting (h : spool ∈ accountingSpools) : Accounting spool := by
  simp only [accountingSpools, List.mem_cons, List.not_mem_nil, or_false] at h
  rcases h with rfl | rfl | rfl | rfl
  · exact ⟨.inl rfl, rfl⟩
  · exact ⟨.inl rfl, rfl⟩
  · exact ⟨.inr rfl, rfl⟩
  · exact ⟨.inr rfl, rfl⟩

theorem bounded_ok {lines : List Line} {line : Line} {pushed : Pushed} (hspool : Accounting spool)
    (h : bounded spool lines line = .ok pushed) : pushed = .file lines line 0 := by
  unfold bounded at h
  split at h
  · exact absurd h nofun
  split at h
  · exact (Except.ok.inj h).symm
  · rw [if_pos hspool.kind] at h
    exact absurd h nofun

theorem extend_concat (front : List Line) (tail : Line) (number : ℕ) (text merged : String) :
    extend (front ++ [tail]) number text (some merged)
      = (front ++ [⟨tail.id, number, merged⟩], ⟨tail.id, number, merged⟩) := by
  simp [extend]

/-- **What a push comes to**: the line is there, or the file is extended by one that covers the
fact. -/
theorem pushLines_ok {lines : List Line} {number : ℕ} {unique : Bool} {text : String}
    {pushed : Pushed} (hspool : Accounting spool)
    (h : pushLines spool codec lines number unique text = .ok pushed) :
    (∃ line ∈ lines, pushed = .known line ∧ line.text = text)
      ∨ ∃ file line, pushed = .file file line 0 ∧ Extends spool codec number lines line file
        ∧ line.last = number ∧ Covers spool codec line.text text := by
  unfold pushLines at h
  split at h
  · rename_i line hfind
    have htext := List.find?_some hfind
    simp only [Bool.and_eq_true, decide_eq_true_eq] at htext
    exact .inl ⟨line, List.mem_of_find?_eq_some hfind, (Except.ok.inj h).symm, htext.2⟩
  split at h
  · exact absurd h nofun
  rename_i merged hmerged
  refine .inr ⟨_, _, bounded_ok hspool h, ?_⟩
  cases merged with
  | none => exact ⟨.append rfl, rfl, .refl _⟩
  | some merged =>
    obtain ⟨front, tail, rfl, htail, hfact⟩ := mergeTail_some hmerged
    rw [extend_concat]
    exact ⟨.replace rfl rfl htail, rfl, hfact⟩

theorem Extends.get {number : ℕ} {file file' : List Line} {line : Line}
    (h : Extends spool codec number file line file') (hnumber : line.last = number)
    (hlast : ∀ l ∈ file, l.last < number) {i : ℕ} {l : Line} (hi : file[i]? = some l) :
    ∃ l', file'[i]? = some l' ∧ l.Within l' := by
  cases h with
  | append _ =>
    refine ⟨l, ?_, rfl, le_rfl⟩
    rw [List.getElem?_append_left (List.getElem?_eq_some_iff.mp hi).1]
    exact hi
  | @replace front tail hfile hid _ =>
    subst hfile
    by_cases hfront : i < front.length
    · refine ⟨l, ?_, rfl, le_rfl⟩
      rw [List.getElem?_append_left hfront] at hi ⊢
      exact hi
    · rw [List.getElem?_append_right (not_lt.mp hfront)] at hi ⊢
      obtain ⟨hlt, hget⟩ := List.getElem?_eq_some_iff.mp hi
      have hzero : i - front.length = 0 := Nat.lt_one_iff.mp hlt
      simp only [hzero, List.getElem_cons_zero] at hget
      subst hget
      refine ⟨line, ?_, hid.symm, ?_⟩
      · rw [hzero]
        rfl
      · rw [hnumber]
        exact (hlast _ (List.mem_append_right _ List.mem_cons_self)).le

end Brocade.Queue
