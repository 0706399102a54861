/-
What the queues of observations and of load let go of.

A full queue lets go of its oldest lines, and a drain of those the control plane refuses for
good; both count what they let go.  A drain works from a copy, and its answers come while
producers write: a line it was answered for is still in the file, at the head, where the next
push of a full queue takes it away.  Then a line that was answered with success is counted, or
one that was refused is counted twice, and the drain finds the head changed and sends the rest
again.  Where that does not happen the counter is exact (`dropped_exact`).
-/
import Brocade.Queue.Drain

namespace Brocade.Queue

variable {spool : Spool} {codec : Codec}

/-- The queues that let go of lines. -/
def discardingSpools : List Spool := [OBSERVATION_SPOOL, LOAD_SPOOL]

/-! ### What is counted -/

/-- What the drain under way was answered for, with success or for good. -/
def answered (s : State) : List Line :=
  match s.drain with
  | some d => d.lines.take d.sent
  | none => []

variable {s : State} {d : Drain} {n : ℕ}

theorem answered_eq (h : s.drain = some d) : answered s = d.lines.take d.sent := by
  unfold answered
  rw [h]

/-- The line the drain under way waits for an answer to. -/
def asked (s : State) : Option Line := s.drain.bind fun d => if d.waiting then d.body? else none

/-- Those that were never answered with success. -/
def unacked (s : State) (lines : List Line) : List Line :=
  lines.filter fun line => decide (line ∉ s.acked)

/-- The lines that left the queue and were never answered with success. -/
def gone (s : State) : List Line := unacked s (s.written.filter fun line => decide (line ∉ s.file))

/-! ### Runs on a sound disk -/

/-- No operation on the file fails, and the process lives. -/
def Event.undisturbed : Event → Bool
  | .push _ _ fault => decide (fault = .nothing)
  | .startDrain fault => decide (fault = .nothing)
  | .finishDrain fault => decide (fault = .nothing)
  | .crash => false
  | .request | .arrive _ | .answer _ | .lost => true

/-- A push lets go of no line the drain under way was answered for, and no answer that ends a
line comes for one that was let go of before. -/
def considerate (spool : Spool) (codec : Codec) (s : State) : Event → Bool
  | .push unique (some text) _ =>
    match pushLines spool codec s.file s.next unique text with
    | .ok (.file _ _ dropped) => (s.file.take dropped).all fun line => decide (line ∉ answered s)
    | _ => true
  | .answer status =>
    !(isSuccess status || decide (status ∈ spool.terminalStatuses))
      || (asked s).all fun line => decide (line ∈ s.file)
  | _ => true

/-- Every event of a run is. -/
def considerateRun (spool : Spool) (codec : Codec) : State → List Event → Bool
  | _, [] => true
  | s, event :: events =>
    considerate spool codec s event && considerateRun spool codec (step spool codec s event) events

/-! ### The invariant -/

/-- Every line in the order it was pushed in. -/
def history (s : State) : List Line := s.written.reverse

/-- The file is what was pushed but for the first `n` lines, and those are counted. -/
structure Counted (s : State) (n : ℕ) : Prop where
  ascending : (history s).Pairwise fun a b => a.id < b.id
  below : ∀ line ∈ history s, line.id < s.next
  le : n ≤ (history s).length
  file : s.file = (history s).drop n
  acked : ∀ line ∈ s.acked, line ∈ history s
  ended : ∀ line ∈ s.file, line ∈ s.acked → line ∈ answered s
  /-- once a line was answered, the file begins with what the drain copied -/
  copied : ∀ d, s.drain = some d → d.lines ≠ [] ∧ d.sent ≤ d.lines.length
    ∧ ∃ m ≤ n, d.lines <+: (history s).drop m ∧ (0 < d.sent → m = n)
  dropped : s.dropped = (unacked s ((history s).take n)).length + (unacked s (answered s)).length

theorem Counted.empty : Counted .empty 0 where
  ascending := .nil
  below _ h := absurd h List.not_mem_nil
  le := le_refl _
  file := rfl
  acked _ h := absurd h List.not_mem_nil
  ended _ h := absurd h List.not_mem_nil
  copied _ h := absurd h nofun
  dropped := rfl

namespace Counted

variable {s : State} {n : ℕ}

theorem nodup (h : Counted s n) : (history s).Nodup :=
  h.ascending.imp fun {a b} hlt heq => absurd hlt (by rw [heq]; exact lt_irrefl _)

theorem not_file (h : Counted s n) {line : Line} (hline : line ∈ (history s).take n) :
    line ∉ s.file := by
  rw [h.file]
  exact List.disjoint_take_drop h.nodup (le_refl n) hline

theorem gone_length (h : Counted s n) :
    (gone s).length = (unacked s ((history s).take n)).length := by
  have hleft : (history s).filter (fun line => decide (line ∉ s.file)) = (history s).take n := by
    conv_lhs => rw [← List.take_append_drop n (history s)]
    rw [List.filter_append, List.filter_eq_self.mpr, List.filter_eq_nil_iff.mpr, List.append_nil]
    · intro line hline
      rw [h.file]
      simp [hline]
    · intro line hline
      exact decide_eq_true (h.not_file hline)
  have hreverse : ∀ p : Line → Bool, (s.written.filter p).length = ((history s).filter p).length := by
    intro p
    rw [history, List.filter_reverse, List.length_reverse]
  unfold gone unacked
  rw [← hleft, List.filter_filter, List.filter_filter]
  exact hreverse _

theorem of_same (h : Counted s n) {t : State} (hfile : t.file = s.file)
    (hwritten : t.written = s.written) (hnext : s.next ≤ t.next) (hacked : t.acked = s.acked)
    (hdropped : t.dropped = s.dropped)
    (hdrain : t.drain.map (fun d => (d.lines, d.sent)) = s.drain.map fun d => (d.lines, d.sent)) :
    Counted t n := by
  have hhistory : history t = history s := congrArg List.reverse hwritten
  have hunacked : ∀ lines, unacked t lines = unacked s lines := by
    intro lines
    unfold unacked
    rw [hacked]
  have hanswered : answered t = answered s := by
    unfold answered
    cases ht : t.drain with
    | none =>
      cases hs : s.drain with
      | none => rfl
      | some d =>
        rw [ht, hs] at hdrain
        cases hdrain
    | some d' =>
      cases hs : s.drain with
      | none =>
        rw [ht, hs] at hdrain
        cases hdrain
      | some d =>
        rw [ht, hs, Option.map_some, Option.map_some, Option.some.injEq, Prod.mk.injEq] at hdrain
        simp only [hdrain.1, hdrain.2]
  refine ⟨?_, ?_, ?_, ?_, ?_, ?_, ?_, ?_⟩
  · rw [hhistory]
    exact h.ascending
  · intro line hline
    rw [hhistory] at hline
    exact lt_of_lt_of_le (h.below line hline) hnext
  · rw [hhistory]
    exact h.le
  · rw [hfile, hhistory]
    exact h.file
  · rw [hacked, hhistory]
    exact h.acked
  · rw [hfile, hacked, hanswered]
    exact h.ended
  · intro d' hd'
    cases hs : s.drain with
    | none =>
      rw [hd', hs] at hdrain
      cases hdrain
    | some d =>
      rw [hd', hs, Option.map_some, Option.map_some, Option.some.injEq, Prod.mk.injEq] at hdrain
      rw [hdrain.1, hdrain.2, hhistory]
      exact h.copied d hs
  · rw [hdropped, hunacked, hunacked, hhistory, hanswered]
    exact h.dropped

end Counted

/-! ### Producers -/

theorem discarding_kind (hspool : spool ∈ discardingSpools) :
    spool.droppedKind ≠ .detail ∧ spool.droppedKind ≠ .usage := by
  simp only [discardingSpools, List.mem_cons, List.not_mem_nil, or_false] at hspool
  rcases hspool with rfl | rfl
  · exact ⟨nofun, nofun⟩
  · exact ⟨nofun, nofun⟩

theorem spoolRead_discarding (hspool : spool ∈ discardingSpools) (file : List Line) :
    spoolRead spool file .nothing = .ok file := by
  unfold spoolRead
  rw [if_neg nofun, if_neg fun h => (discarding_kind hspool).1 h.1]

theorem pushLines_discarding (hspool : spool ∈ discardingSpools) {file : List Line} {number : ℕ}
    {unique : Bool} {text : String} {pushed : Pushed}
    (h : pushLines spool codec file number unique text = .ok pushed) :
    (∃ line, pushed = .known line) ∨ ∃ k ≤ file.length + 1, pushed
        = .file ((file ++ [Line.mk number number text]).drop k) (.mk number number text) k := by
  have hmerge : mergeTail spool codec file text = .ok none := by
    unfold mergeTail
    rw [if_neg (discarding_kind hspool).1]
  unfold pushLines at h
  split at h
  · exact .inl ⟨_, (Except.ok.inj h).symm⟩
  · rw [hmerge] at h
    refine .inr ⟨(file ++ [Line.mk number number text]).length - spool.max, ?_, ?_⟩
    · rw [List.length_append, List.length_singleton]
      omega
    · have hkinds : ¬(spool.droppedKind = .usage ∨ spool.droppedKind = .detail) := fun hor =>
        hor.elim (discarding_kind hspool).2 (discarding_kind hspool).1
      simp only [extend] at h
      unfold bounded at h
      rw [if_neg fun hand => (discarding_kind hspool).1 hand.1] at h
      by_cases hfits : (file ++ [Line.mk number number text]).length ≤ spool.max
      · rw [if_pos hfits] at h
        rw [← Except.ok.inj h, Nat.sub_eq_zero_of_le hfits]
        rfl
      · rw [if_neg hfits, if_neg hkinds] at h
        exact (Except.ok.inj h).symm

/-- **A push that lets go of no answered line counts what it lets go.** -/
theorem Counted.write {k : ℕ} (h : Counted s n) {text : String} (hk : k ≤ s.file.length + 1)
    (hconsiderate : ∀ line ∈ s.file.take k, line ∉ answered s) :
    Counted (s.write ((s.file ++ [Line.mk s.next s.next text]).drop k) (.mk s.next s.next text) k
      text .nothing) (n + k) := by
  obtain ⟨line, hline⟩ : ∃ line : Line, line = .mk s.next s.next text := ⟨_, rfl⟩
  have hid : line.id = s.next := by rw [hline]
  rw [← hline]
  have hhistory : history (s.write ((s.file ++ [line]).drop k) line k text .nothing)
      = history s ++ [line] := List.reverse_cons
  have hdrop : (history s ++ [line]).drop n = s.file ++ [line] := by
    rw [List.drop_append_of_le_length h.le, ← h.file]
  have htake : (history s ++ [line]).take (n + k)
      = (history s).take n ++ (s.file ++ [line]).take k := by
    rw [List.take_add, hdrop, List.take_append_of_le_length h.le]
  have hnew : line ∉ history s := fun hmem => absurd (h.below line hmem) (by rw [hid]; exact lt_irrefl _)
  -- nothing that is let go of was answered with success
  have hfresh : ∀ l ∈ (s.file ++ [line]).take k, l ∉ s.acked := by
    intro l hl hacked
    have hmem : l ∈ s.file.take k := by
      rw [List.take_append] at hl
      rcases List.mem_append.mp hl with hfile | hlast
      · exact hfile
      · have heq := List.mem_singleton.mp (List.mem_of_mem_take hlast)
        exact absurd (heq ▸ h.acked l hacked) hnew
    exact hconsiderate l hmem (h.ended l (List.mem_of_mem_take hmem) hacked)
  have hlength : n + s.file.length = (history s).length := by
    have hle := h.le
    rw [h.file, List.length_drop]
    omega
  refine ⟨?_, ?_, ?_, ?_, ?_, ?_, ?_, ?_⟩
  · rw [hhistory, List.pairwise_append]
    refine ⟨h.ascending, List.pairwise_singleton _ _, fun a ha b hb => ?_⟩
    rw [List.mem_singleton.mp hb, hid]
    exact h.below a ha
  · intro l hl
    rw [hhistory] at hl
    show l.id < s.next + 1
    rcases List.mem_append.mp hl with hold | hlast
    · exact Nat.lt_succ_of_lt (h.below l hold)
    · rw [List.mem_singleton.mp hlast, hid]
      exact Nat.lt_succ_self _
  · rw [hhistory, List.length_append, List.length_singleton]
    omega
  · rw [hhistory, ← List.drop_drop, hdrop]
    rfl
  · intro l hl
    rw [hhistory]
    exact List.mem_append_left _ (h.acked l hl)
  · intro l hl hacked
    have hmem : l ∈ s.file ++ [line] := List.mem_of_mem_drop hl
    rcases List.mem_append.mp hmem with hold | hlast
    · exact h.ended l hold hacked
    · exact absurd (List.mem_singleton.mp hlast ▸ h.acked l hacked) hnew
  · intro d hd
    have hd' : s.drain = some d := hd
    obtain ⟨hne, hle, m, hm, hprefix, hsent⟩ := h.copied d hd'
    refine ⟨hne, hle, m, by omega, ?_, fun hpos => ?_⟩
    · rw [hhistory, List.drop_append_of_le_length (by have := h.le; omega)]
      exact hprefix.trans (List.prefix_append _ _)
    · have hmn := hsent hpos
      subst hmn
      by_contra hmoved
      obtain ⟨first, rest, hlines⟩ := List.exists_cons_of_ne_nil hne
      rw [← h.file, hlines] at hprefix
      obtain ⟨more, hmore⟩ := hprefix
      have hhead : first ∈ s.file.take k := by
        rw [← hmore]
        obtain ⟨k', rfl⟩ : ∃ k', k = k' + 1 := ⟨k - 1, by omega⟩
        exact List.mem_cons_self
      refine hconsiderate first hhead ?_
      rw [answered_eq hd', hlines]
      obtain ⟨sent', hsent'⟩ : ∃ sent', d.sent = sent' + 1 := ⟨d.sent - 1, by omega⟩
      rw [hsent']
      exact List.mem_cons_self
  · show s.dropped + k = _
    have hself : unacked (s.write ((s.file ++ [line]).drop k) line k text .nothing) = unacked s := rfl
    have hall : unacked s ((s.file ++ [line]).take k) = (s.file ++ [line]).take k :=
      List.filter_eq_self.mpr fun l hl => decide_eq_true (hfresh l hl)
    rw [hself, hhistory, htake, h.dropped]
    unfold unacked at hall ⊢
    rw [List.filter_append, hall, List.length_append, List.length_take, List.length_append,
      List.length_singleton, min_eq_left hk]
    show _ = _ + k + (unacked s (answered s)).length
    unfold unacked
    omega

theorem Counted.push (hspool : spool ∈ discardingSpools) (h : Counted s n) {unique : Bool}
    {item : Option String}
    (hconsiderate : considerate spool codec s (.push unique item .nothing) = true) :
    ∃ m, Counted (spoolPush spool codec s unique item .nothing).1 m := by
  unfold spoolPush
  rw [spoolRead_discarding hspool]
  cases item with
  | none => exact ⟨n, h⟩
  | some text =>
    simp only [considerate] at hconsiderate ⊢
    cases hpush : pushLines spool codec s.file s.next unique text with
    | error e => exact ⟨n, h⟩
    | ok pushed =>
      rw [hpush] at hconsiderate
      rcases pushLines_discarding hspool hpush with ⟨line, rfl⟩ | ⟨k, hk, rfl⟩
      · exact ⟨n, h.of_same rfl rfl (Nat.le_succ _) rfl rfl rfl⟩
      · refine ⟨n + k, h.write hk fun line hline => ?_⟩
        exact of_decide_eq_true (List.all_eq_true.mp hconsiderate line hline)

/-! ### The drain -/

theorem Counted.startDrain (hspool : spool ∈ discardingSpools) (h : Counted s n) :
    Counted (startDrain spool s .nothing) n := by
  unfold Queue.startDrain
  rw [spoolRead_discarding hspool]
  cases hdrain : s.drain with
  | some d => exact h
  | none =>
    simp only
    by_cases hempty : s.file = []
    · rw [if_pos hempty]
      exact h
    · rw [if_neg hempty]
      have hnothing : answered s = [] := by
        unfold answered
        rw [hdrain]
      refine ⟨h.ascending, h.below, h.le, h.file, h.acked, ?_, ?_, ?_⟩
      · intro line hline hacked
        have hend := h.ended line hline hacked
        rw [hnothing] at hend
        cases hend
      · intro d hd
        obtain rfl := Option.some.inj hd
        refine ⟨hempty, Nat.zero_le _, n, le_refl n, ?_, fun _ => rfl⟩
        exact ⟨[], (List.append_nil _).trans h.file⟩
      · have hdropped := h.dropped
        rw [hnothing] at hdropped
        exact hdropped

/-- What an answer is about: the line behind those that were answered, which is still there. -/
theorem Counted.body (h : Counted s n) {body : Line} (hdrain : s.drain = some d)
    (hbody : d.body? = some body) (hthere : body ∈ s.file) :
    d.lines[d.sent]? = some body ∧ d.lines <+: s.file ∧ body ∉ answered s := by
  have hget : d.lines[d.sent]? = some body := by
    unfold Drain.body? at hbody
    by_cases hfailure : d.failure = none
    · rw [if_pos hfailure] at hbody
      exact hbody
    · rw [if_neg hfailure] at hbody
      cases hbody
  obtain ⟨-, -, m, hm, hprefix, hsent⟩ := h.copied d hdrain
  have hmn : m = n := by
    by_cases hpos : 0 < d.sent
    · exact hsent hpos
    · have hzero : d.sent = 0 := Nat.eq_zero_of_not_pos hpos
      rw [hzero] at hget
      by_contra hne
      -- the first line of the copy is among those that left
      have hfirst : (history s)[m]? = some body := by
        obtain ⟨rest, hrest⟩ := hprefix
        have hhead : ((history s).drop m)[0]? = some body := by
          rw [← hrest, List.getElem?_append_left (List.getElem?_eq_some_iff.mp hget).1]
          exact hget
        rwa [List.getElem?_drop, Nat.add_zero] at hhead
      refine h.not_file ?_ hthere
      have hlt : m < n := by omega
      refine List.mem_of_getElem? (i := m) ?_
      rw [List.getElem?_take_of_lt hlt]
      exact hfirst
  rw [hmn, ← h.file] at hprefix
  refine ⟨hget, hprefix, ?_⟩
  rw [answered_eq hdrain]
  intro hmem
  have hnodup : d.lines.Nodup := by
    refine hprefix.sublist.nodup ?_
    rw [h.file]
    exact h.nodup.sublist (List.drop_sublist _ _)
  obtain ⟨hlt, hat⟩ := List.getElem?_eq_some_iff.mp hget
  refine List.disjoint_take_drop hnodup (le_refl d.sent) hmem ?_
  rw [List.drop_eq_getElem_cons hlt, hat]
  exact List.mem_cons_self

theorem Drain.take_succ {body : Line} (h : d.lines[d.sent]? = some body) :
    d.lines.take (d.sent + 1) = d.lines.take d.sent ++ [body] := by
  rw [List.take_add_one, h]
  rfl

/-- An answer that ends a line: what it counts, and what it adds to the answered with success. -/
theorem Counted.settle {k : ℕ} (h : Counted s n) {body : Line} {done : List Line}
    (hdrain : s.drain = some d) (hbody : d.body? = some body) (hthere : body ∈ s.file)
    (hdone : (done = [body] ∧ k = 0) ∨ (done = [] ∧ k = 1)) : Counted { s with
      drain := some { d with waiting := false, sent := d.sent + 1 }
      dropped := s.dropped + k
      acked := done ++ s.acked } n := by
  obtain ⟨hget, hprefix, hfresh⟩ := h.body hdrain hbody hthere
  have hanswered : d.lines.take (d.sent + 1) = answered s ++ [body] := by
    rw [answered_eq hdrain]
    exact Drain.take_succ hget
  have hhistory : body ∈ history s := List.mem_of_mem_drop (h.file ▸ hthere)
  have hmem : ∀ line, line ∈ done → line = body := by
    intro line hline
    rcases hdone with ⟨rfl, -⟩ | ⟨rfl, -⟩
    · exact List.mem_singleton.mp hline
    · cases hline
  have hunacked : ∀ lines, body ∉ lines → unacked { s with
        drain := some { d with waiting := false, sent := d.sent + 1 }
        dropped := s.dropped + k
        acked := done ++ s.acked } lines = unacked s lines := by
    intro lines hlines
    refine List.filter_congr fun line hline => decide_eq_decide.mpr (not_congr ?_)
    refine ⟨fun hacked => ?_, List.mem_append_right _⟩
    rcases List.mem_append.mp hacked with hnow | hbefore
    · exact absurd (hmem line hnow ▸ hline) hlines
    · exact hbefore
  have hnever : body ∉ s.acked := fun hacked => hfresh (h.ended body hthere hacked)
  refine ⟨h.ascending, h.below, h.le, h.file, ?_, ?_, ?_, ?_⟩
  · intro line hline
    rcases List.mem_append.mp hline with hnow | hbefore
    · rw [hmem line hnow]
      exact hhistory
    · exact h.acked line hbefore
  · intro line hline hacked
    show line ∈ d.lines.take (d.sent + 1)
    rw [hanswered]
    rcases List.mem_append.mp hacked with hnow | hbefore
    · rw [hmem line hnow]
      exact List.mem_append_right _ List.mem_cons_self
    · exact List.mem_append_left _ (h.ended line hline hbefore)
  · intro d' hd'
    obtain rfl := Option.some.inj hd'
    obtain ⟨hne, -⟩ := h.copied d hdrain
    refine ⟨hne, (List.getElem?_eq_some_iff.mp hget).1, n, le_refl n, ?_, fun _ => rfl⟩
    show d.lines <+: (history s).drop n
    rw [← h.file]
    exact hprefix
  · have hgone : body ∉ (history s).take n := fun hleft => h.not_file hleft hthere
    show s.dropped + k = (unacked _ ((history s).take n)).length
      + (unacked _ (d.lines.take (d.sent + 1))).length
    rw [hunacked _ hgone, hanswered, h.dropped]
    unfold unacked
    rw [List.filter_append, List.length_append]
    have hold := hunacked (answered s) hfresh
    unfold unacked at hold
    rw [hold]
    rcases hdone with ⟨rfl, rfl⟩ | ⟨rfl, rfl⟩
    · rw [List.filter_cons_of_neg (by simp), List.filter_nil]
      rfl
    · rw [List.filter_cons_of_pos (by simpa using hnever), List.filter_nil]
      rfl

theorem Counted.answer (h : Counted s n) {status : ℕ}
    (hconsiderate : considerate spool codec s (.answer status) = true) :
    Counted (answer spool s status) n := by
  unfold Queue.answer
  cases hdrain : s.drain with
  | none => exact h
  | some d =>
    simp only
    cases hbody : d.body? with
    | none => exact h
    | some body =>
      simp only
      cases hwaiting : d.waiting with
      | false => exact h
      | true =>
        have hasked : asked s = some body := by
          rw [asked, hdrain, Option.bind_some, if_pos hwaiting, hbody]
        rw [considerate, hasked, Option.all_some] at hconsiderate
        have hthere : isSuccess status = true ∨ status ∈ spool.terminalStatuses →
            body ∈ s.file := by
          intro hends
          rw [Bool.or_eq_true, Bool.not_eq_true', Bool.or_eq_false_iff] at hconsiderate
          rcases hconsiderate with hnot | hin
          · rcases hends with hsuccess | hterminal
            · exact absurd hsuccess (by rw [hnot.1]; nofun)
            · exact absurd hterminal (of_decide_eq_false hnot.2)
          · exact of_decide_eq_true hin
        rw [if_neg (by simp)]
        by_cases hsuccess : isSuccess status = true
        · rw [if_pos hsuccess]
          by_cases hreceived : body ∈ s.received
          · rw [if_pos hreceived]
            exact h.settle hdrain hbody (hthere (.inl hsuccess)) (.inl ⟨rfl, rfl⟩)
          · rw [if_neg hreceived]
            exact h
        · rw [if_neg hsuccess]
          by_cases hterminal : status ∈ spool.terminalStatuses
          · rw [if_pos hterminal]
            exact h.settle hdrain hbody (hthere (.inr hterminal)) (.inr ⟨rfl, rfl⟩)
          · rw [if_neg hterminal]
            exact h.of_same rfl rfl (le_refl _) rfl rfl (by rw [hdrain]; rfl)

theorem Counted.request (h : Counted s n) : Counted (request s) n := by
  unfold Queue.request
  cases hdrain : s.drain with
  | none => exact h
  | some d =>
    simp only
    cases d.body? with
    | none => exact h
    | some body =>
      simp only
      by_cases hwaiting : d.waiting = true
      · rw [if_pos hwaiting]
        exact h
      · rw [if_neg hwaiting]
        exact h.of_same rfl rfl (le_refl _) rfl rfl (by rw [hdrain]; rfl)

theorem Counted.arrive {i : ℕ} (h : Counted s n) : Counted (arrive s i) n := by
  unfold Queue.arrive
  cases s.sent[i]? with
  | none => exact h
  | some body => exact h.of_same rfl rfl (le_refl _) rfl rfl rfl

theorem Counted.lost (h : Counted s n) : Counted (lost s) n := by
  unfold Queue.lost
  cases hdrain : s.drain with
  | none => exact h
  | some d =>
    simp only
    by_cases hwaiting : d.waiting = true
    · rw [if_pos hwaiting]
      exact h.of_same rfl rfl (le_refl _) rfl rfl (by rw [hdrain]; rfl)
    · rw [if_neg hwaiting]
      exact h

/-- **A drain that ends takes away what it was answered for, and nothing else.** -/
theorem Counted.finishDrain (hspool : spool ∈ discardingSpools) (h : Counted s n) :
    ∃ m, Counted (finishDrain spool s .nothing) m := by
  unfold Queue.finishDrain
  rw [spoolRead_discarding hspool]
  cases hdrain : s.drain with
  | none => exact ⟨n, h⟩
  | some d =>
    simp only
    by_cases hbusy : (d.waiting || d.body?.isSome) = true
    · rw [if_pos hbusy]
      exact ⟨n, h⟩
    · rw [if_neg hbusy]
      have hdropped := h.dropped
      by_cases hsent : d.sent = 0
      · rw [if_pos hsent]
        have hnothing : answered s = [] := by
          rw [answered_eq hdrain, hsent, List.take_zero]
        rw [hnothing] at hdropped
        refine ⟨n, h.ascending, h.below, h.le, h.file, h.acked, ?_, nofun, hdropped⟩
        intro line hline hacked
        have hend := h.ended line hline hacked
        rw [hnothing] at hend
        cases hend
      · rw [if_neg hsent]
        obtain ⟨-, hle, m, hm, hprefix, hmn⟩ := h.copied d hdrain
        rw [hmn (Nat.pos_of_ne_zero hsent), ← h.file] at hprefix
        have hhead : s.file.take d.sent = answered s := by
          rw [answered_eq hdrain]
          obtain ⟨rest, hrest⟩ := hprefix
          rw [← hrest, List.take_append_of_le_length hle]
        have hfits : d.sent ≤ s.file.length := hle.trans hprefix.length_le
        have hsame : sameHead s.file d.lines d.sent = true := by
          rw [sameHead, hhead, answered_eq hdrain, decide_eq_true hfits, decide_eq_true rfl]
          rfl
        simp only [hsame, Fault.renames, Bool.and_self, if_true]
        refine ⟨n + d.sent, h.ascending, h.below, ?_, ?_, h.acked, ?_, nofun, ?_⟩
        · show n + d.sent ≤ (history s).length
          have hfile := congrArg List.length h.file
          rw [List.length_drop] at hfile
          have := h.le
          omega
        · show s.file.drop d.sent = (history s).drop (n + d.sent)
          rw [← List.drop_drop, ← h.file]
        · intro line hline hacked
          -- what is left was not answered for
          have hend := h.ended line (List.mem_of_mem_drop hline) hacked
          rw [← hhead] at hend
          have hnodup : s.file.Nodup := by
            rw [h.file]
            exact h.nodup.sublist (List.drop_sublist _ _)
          exact absurd hline (List.disjoint_take_drop hnodup (le_refl _) hend)
        · show s.dropped = (unacked s ((history s).take (n + d.sent))).length + 0
          rw [List.take_add, ← h.file, hhead, hdropped]
          unfold unacked
          rw [List.filter_append, List.length_append]
          rfl

/-! ### Runs -/

theorem Counted.step (hspool : spool ∈ discardingSpools) (h : Counted s n) {event : Event}
    (hundisturbed : event.undisturbed = true)
    (hconsiderate : considerate spool codec s event = true) :
    ∃ m, Counted (step spool codec s event) m := by
  cases event with
  | push unique item fault =>
    obtain rfl := of_decide_eq_true hundisturbed
    exact h.push hspool hconsiderate
  | startDrain fault =>
    obtain rfl := of_decide_eq_true hundisturbed
    exact ⟨n, h.startDrain hspool⟩
  | request => exact ⟨n, h.request⟩
  | arrive i => exact ⟨n, h.arrive⟩
  | answer status => exact ⟨n, h.answer hconsiderate⟩
  | lost => exact ⟨n, h.lost⟩
  | finishDrain fault =>
    obtain rfl := of_decide_eq_true hundisturbed
    exact h.finishDrain hspool
  | crash => cases hundisturbed

theorem Counted.foldl (hspool : spool ∈ discardingSpools) (h : Counted s n) {events : List Event}
    (hundisturbed : events.all Event.undisturbed = true)
    (hconsiderate : considerateRun spool codec s events = true) :
    ∃ m, Counted (events.foldl (Queue.step spool codec) s) m := by
  induction events generalizing s n with
  | nil => exact ⟨n, h⟩
  | cons event events ih =>
    rw [List.all_cons, Bool.and_eq_true] at hundisturbed
    rw [considerateRun, Bool.and_eq_true] at hconsiderate
    obtain ⟨m, hm⟩ := h.step hspool hundisturbed.1 hconsiderate.1
    exact ih hm hundisturbed.2 hconsiderate.2

/-- **Without such an eviction the counter is exact.**  While a drain is under way it is ahead by
what was refused for good and is still to be removed. -/
theorem dropped_exact (hspool : spool ∈ discardingSpools) (codec : Codec) (events : List Event)
    (hundisturbed : events.all Event.undisturbed = true)
    (hconsiderate : considerateRun spool codec .empty events = true) :
    (run spool codec events).dropped = (gone (run spool codec events)).length
          + (unacked (run spool codec events) (answered (run spool codec events))).length
      ∧ ((run spool codec events).drain = none →
          (run spool codec events).dropped = (gone (run spool codec events)).length) := by
  obtain ⟨n, h⟩ : ∃ n, Counted (run spool codec events) n :=
    Counted.empty.foldl hspool hundisturbed hconsiderate
  have hdropped := h.dropped
  rw [← h.gone_length] at hdropped
  refine ⟨hdropped, fun hdrain => ?_⟩
  rw [hdropped, answered, hdrain]
  rfl

/-! ### Two runs -/

/-- A codec for queues whose lines are not merged. -/
def noCodec : Codec := ⟨fun _ => none, fun _ => none, nofun⟩

/-- A line of this length. -/
def letters (n : ℕ) : Option String := some (String.ofList (List.replicate n 'a'))

/-- A producer evicts the oldest line of a full queue while a drain waits for the answer to it, and
the next drain's answer refuses the head for good. -/
def refusal : List Event :=
  (List.range 64).map (fun i => .push false (letters (i + 1)) .nothing)
    ++ [.startDrain .nothing, .request, .push false (some "b") .nothing, .lost, .finishDrain .nothing,
      .startDrain .nothing, .request, .arrive 0, .answer 400, .request, .lost, .finishDrain .nothing]

/-- A line that was evicted and one that was refused for good: each counted once, and gone. -/
theorem dropped_exact_refused : (run OBSERVATION_SPOOL noCodec refusal).dropped
        = (gone (run OBSERVATION_SPOOL noCodec refusal)).length
          + (unacked (run OBSERVATION_SPOOL noCodec refusal)
              (answered (run OBSERVATION_SPOOL noCodec refusal))).length
      ∧ ((run OBSERVATION_SPOOL noCodec refusal).drain = none →
          (run OBSERVATION_SPOOL noCodec refusal).dropped
            = (gone (run OBSERVATION_SPOOL noCodec refusal)).length) :=
  dropped_exact (by decide) noCodec refusal (by decide) (by decide +kernel)

/-- A full queue, a drain whose first request is answered with success, and a producer before the
second. -/
def crowded : List Event :=
  (List.range 64).map (fun i => .push false (letters (i + 1)) .nothing)
    ++ [.startDrain .nothing, .request, .arrive 0, .answer 200, .push false (some "b") .nothing,
      .request, .lost, .finishDrain .nothing]

/-- The line that was answered with success left the queue, and is counted as let go of. -/
theorem delivered_line_counted :
    crowded.all Event.undisturbed = true ∧ (run OBSERVATION_SPOOL noCodec crowded).drain = none
      ∧ gone (run OBSERVATION_SPOOL noCodec crowded) = []
      ∧ (run OBSERVATION_SPOOL noCodec crowded).dropped = 1 := by
  decide +kernel

end Brocade.Queue
