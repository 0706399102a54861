/-
What a report does to one label.

The counters of a report have distinct labels, and accounting one of them reads and
writes nothing of another label.  So, seen from one label, a report is the one counter
that carries it, applied to the database as the report found it.
-/
import Brocade.Usage.Run

namespace Brocade.Usage

open Fallible

/-- Nothing of the label differs, nor do the tables that say whom it belongs to. -/
structure SameLabel (label : String) (db db' : Db) : Prop where
  generations : db'.generations = db.generations
  nodes : db'.nodes = db.nodes
  heads : ∀ n, db'.heads.get? (n, label) = db.heads.get? (n, label)
  samples : ∀ n start stop,
    db'.samples.get? (n, label, start, stop) = db.samples.get? (n, label, start, stop)
  chainSamples : ∀ n start stop,
    db'.chainSamples.get? (n, label, start, stop) = db.chainSamples.get? (n, label, start, stop)
  billed : ∀ n, db'.billed n label = db.billed n label
  relayed : ∀ n, db'.relayed n label = db.relayed n label

namespace SameLabel

variable {label : String} {a b c : Db}

theorem refl (label : String) (db : Db) : SameLabel label db db :=
  ⟨rfl, rfl, fun _ => rfl, fun _ _ _ => rfl, fun _ _ _ => rfl, fun _ => rfl, fun _ => rfl⟩

theorem trans (hab : SameLabel label a b) (hbc : SameLabel label b c) : SameLabel label a c where
  generations := hbc.generations.trans hab.generations
  nodes := hbc.nodes.trans hab.nodes
  heads n := (hbc.heads n).trans (hab.heads n)
  samples n start stop := (hbc.samples n start stop).trans (hab.samples n start stop)
  chainSamples n start stop :=
    (hbc.chainSamples n start stop).trans (hab.chainSamples n start stop)
  billed n := (hbc.billed n).trans (hab.billed n)
  relayed n := (hbc.relayed n).trans (hab.relayed n)

end SameLabel

/-- The counter is one the loop takes for this label. -/
def touches (label : String) (counter : UsageCounter) : Bool :=
  decide (Text.trim counter.label = label) && decide (label ≠ "")
    && inRange (counter.uplinkBytes, counter.downlinkBytes) && !isProbeLabel label

variable {counter : UsageCounter} {nodeId : String} {request : UsageReportRequest} {db after : Db}
    {platform : Platform} {generation : UsageGeneration} {progress progress' : Progress}
    {result : UsageReportResult} {grant : GrantMapping}

theorem touches_iff {label : String} :
    touches label counter = true ↔ Text.trim counter.label = label ∧
      counts label (counter.uplinkBytes, counter.downlinkBytes) := by
  simp [touches, counts, and_assoc]

/-- What a report says of a label: the bytes of its counter. -/
def UsageReportRequest.readingOf (request : UsageReportRequest) (label : String) : Option Bytes :=
  ((sortCounters request.counters).find? (touches label)).map fun counter =>
    (counter.uplinkBytes, counter.downlinkBytes)

theorem windowKey_label (owner : CounterOwner) (nodeId : String) (start stop : Int) :
    (owner.windowKey nodeId start stop).2.1 = owner.label := by
  cases owner <;> rfl

theorem Accounted.sameLabel {label : String} {owner : CounterOwner} {head : Option UsageHead}
    {window : Option Window} {db' : Db} (h : Accounted nodeId request owner head window db db')
    (hlabel : owner.label ≠ label) : SameLabel label db db' := by
  have hkey : ∀ n start stop,
      (window.map fun w => owner.windowKey nodeId w.start request.readAtUnixSecs)
        ≠ some (n, label, start, stop) := by
    intro n start stop hsome
    obtain ⟨w, -, hw⟩ := Option.map_eq_some_iff.mp hsome
    have hcarried := windowKey_label owner nodeId w.start request.readAtUnixSecs
    rw [hw] at hcarried
    exact hlabel hcarried.symm
  refine ⟨h.control.generations, h.control.nodes, fun n => ?_, fun n s e => ?_, fun n s e => ?_,
    fun n => ?_, fun n => ?_⟩
  · rw [h.heads, if_neg]
    intro hkey
    exact hlabel (Prod.mk.inj hkey).2.symm
  · exact h.rows.samples _ fun _ _ => hkey n s e
  · exact h.rows.chainSamples _ fun _ _ => hkey n s e
  · rw [h.booked.billed]
    cases owner with
    | user grant => rw [labelShare, if_neg fun hand => hlabel hand.2, add_zero]
    | chainHop hop => exact add_zero _
  · rw [h.booked.relayed]
    cases owner with
    | user grant => exact add_zero _
    | chainHop hop => rw [hopShare, if_neg fun hand => hlabel hand.2, add_zero]

theorem recordCounter_sameLabel {label : String} (htouch : touches label counter = false)
    (h : recordCounter platform nodeId generation request progress counter = .ok progress') :
    SameLabel label progress.db progress'.db := by
  obtain ⟨-, -, hidle, hcounts⟩ := recordCounter_ok h
  by_cases hc : counts (Text.trim counter.label) (counter.uplinkBytes, counter.downlinkBytes)
  · have hne : Text.trim counter.label ≠ label := by
      intro heq
      rw [touches_iff.mpr ⟨heq, heq ▸ hc⟩] at htouch
      cases htouch
    have h := hcounts hc
    split at h
    · rw [h.db]
      exact .refl _ _
    · rename_i owner accounting metadata htarget
      refine h.1.sameLabel ?_
      rw [resolveTarget_label htarget]
      exact hne
  · rw [(hidle hc).db]
    exact .refl _ _

theorem recordCounter_labels {label : String}
    (h : recordCounter platform nodeId generation request progress counter = .ok progress')
    (hlabel : label ∈ progress.labels) : label ∈ progress'.labels := by
  obtain ⟨hseen, hunseen, -, -⟩ := recordCounter_ok h
  by_cases hc : Text.trim counter.label ≠ ""
      ∧ inRange (counter.uplinkBytes, counter.downlinkBytes) = true
  · rw [(hseen hc.1 hc.2).2]
    exact List.mem_cons_of_mem _ hlabel
  · rw [hunseen hc]
    exact hlabel

/-- What a taken counter does: nothing, or account its label. -/
def TakesReading (nodeId : String) (generation : UsageGeneration) (request : UsageReportRequest)
    (label : String) (bytes : Bytes) (db db' : Db) : Prop :=
  match resolveTarget db nodeId generation request label bytes with
  | none => db' = db
  | some (owner, accounting, _) =>
    let settled := settle (db.heads.get? (nodeId, label)) generation label
      (request.reading generation.id bytes) accounting
    Accounted nodeId request owner settled.1 settled.2 db db'

theorem recordCounter_takes
    (hcount : counts (Text.trim counter.label) (counter.uplinkBytes, counter.downlinkBytes))
    (h : recordCounter platform nodeId generation request progress counter = .ok progress') :
    TakesReading nodeId generation request (Text.trim counter.label)
      (counter.uplinkBytes, counter.downlinkBytes) progress.db progress'.db := by
  have h := (recordCounter_ok h).2.2.2 hcount
  unfold TakesReading
  cases htarget : resolveTarget progress.db nodeId generation request (Text.trim counter.label)
    (counter.uplinkBytes, counter.downlinkBytes) with
  | none =>
    rw [htarget] at h
    exact h.db
  | some target =>
    rw [htarget] at h
    exact h.1

/-- **A report is, for each label, the one counter that carries it.** -/
theorem recordFresh_label (label : String)
    (h : recordFresh platform db nodeId request generation = .ok (result, after)) :
    match request.readingOf label with
    | none => SameLabel label db after
    | some bytes => ∃ mid mid', SameLabel label db mid ∧
        TakesReading nodeId generation request label bytes mid mid' ∧ SameLabel label mid' after := by
  obtain ⟨progress, hcount, hrecorded⟩ := recordFresh_ok h
  have hflush : SameLabel label progress.db after := by
    refine ⟨hrecorded.generations, hrecorded.nodes, fun n => ?_, fun n s e => ?_, fun n s e => ?_,
      fun n => ?_, fun n => ?_⟩
    · rw [hrecorded.heads]
    · rw [hrecorded.samples]
    · rw [hrecorded.chainSamples]
    · rw [Db.billed, hrecorded.samples, ← Db.billed]
    · rw [Db.relayed, hrecorded.chainSamples, ← Db.relayed]
  -- a run of counters none of which is taken for the label
  have hskip : ∀ {counters : List UsageCounter} {p p' : Progress},
      (∀ c ∈ counters, touches label c = false) →
      counters.foldlM (recordCounter platform nodeId generation request) p = .ok p' →
      SameLabel label p.db p'.db := by
    intro counters p p' hnone hfold
    exact foldlM_invariant (P := fun q => SameLabel label p.db q.db)
      (fun q c q' hc hq hstep => hq.trans (recordCounter_sameLabel (hnone c hc) hstep))
      (.refl _ _) hfold
  unfold countAll at hcount
  cases hfind : (sortCounters request.counters).find? (touches label) with
  | none =>
    have hreading : request.readingOf label = none := by
      rw [UsageReportRequest.readingOf, hfind, Option.map_none]
    rw [hreading]
    refine (hskip (fun c hc => ?_) hcount).trans hflush
    simpa using List.find?_eq_none.mp hfind c hc
  | some counter =>
    obtain ⟨htouch, earlier, later, hsorted, hearlier⟩ :=
      List.find?_eq_some_iff_append.mp hfind
    rw [hsorted] at hcount
    obtain ⟨p, p', hpre, hstep, hpost⟩ := foldlM_split hcount
    have hpre : SameLabel label db p.db :=
      hskip (fun c hc => by simpa using hearlier c hc) hpre
    obtain ⟨rfl, hcounts⟩ := touches_iff.mp htouch
    have hreading : request.readingOf (Text.trim counter.label)
        = some (counter.uplinkBytes, counter.downlinkBytes) := by
      rw [UsageReportRequest.readingOf, hfind, Option.map_some]
    rw [hreading]
    -- once taken, the label is seen, and a second counter of it would fail the report
    have hseen : Text.trim counter.label ∈ p'.labels := by
      rw [((recordCounter_ok hstep).1 hcounts.1 hcounts.2.1).2]
      exact List.mem_cons_self
    have hpost : Text.trim counter.label ∈ progress.labels ∧
        SameLabel (Text.trim counter.label) p'.db progress.db := by
      refine foldlM_invariant
        (P := fun q => Text.trim counter.label ∈ q.labels ∧
          SameLabel (Text.trim counter.label) p'.db q.db) ?_ ⟨hseen, .refl _ _⟩ hpost
      intro q c q' _ hq hqstep
      have hnot : touches (Text.trim counter.label) c = false := by
        rw [← Bool.not_eq_true]
        intro htaken
        obtain ⟨htrim, hc⟩ := touches_iff.mp htaken
        have hfresh := ((recordCounter_ok hqstep).1 (htrim ▸ hc.1) hc.2.1).1
        exact hfresh (htrim ▸ hq.1)
      refine ⟨?_, hq.2.trans (recordCounter_sameLabel hnot hqstep)⟩
      exact recordCounter_labels hqstep hq.1
    exact ⟨p.db, p'.db, hpre, recordCounter_takes hcounts hstep, hpost.2.trans hflush⟩

/-! ### A label of a user -/

/-- The label is the grant's in this generation. -/
def UsageGeneration.bindsUser (self : UsageGeneration) (label : String) (grant : GrantMapping) :
    Prop :=
  (self.bindings.get? label).bind (·.toCounterOwner label) = some (.user grant)

theorem UsageGeneration.bindsUser.target {label : String} (h : generation.bindsUser label grant)
    (db : Db) (nodeId : String) (request : UsageReportRequest) (bytes : Bytes) :
    resolveTarget db nodeId generation request label bytes
      = some (.user grant, generation.id, generation.metadata) := by
  have howner : (generation.bindings.get? label).bind (·.toCounterOwner label)
      = some (.user grant) := h
  unfold resolveTarget resolveOwner
  simp only
  rw [howner]

theorem UsageGeneration.bindsUser.label {label : String} (h : generation.bindsUser label grant) :
    grant.label = label := by
  obtain ⟨binding, -, hbinding⟩ := Option.bind_eq_some_iff.mp h
  exact toCounterOwner_label hbinding

/-- What a fresh report does to a user's label on the reporting machine. -/
structure SettlesUser (nodeId label : String) (grant : GrantMapping) (readAt : Int)
    (settled : Option UsageHead × Option Window) (db after : Db) : Prop where
  head : after.heads.get? (nodeId, label) = settled.1
  billed : after.billed nodeId label
    = db.billed nodeId label + worth db nodeId (.user grant) readAt settled.2
  samples : ∀ start stop, (∀ w, settled.2 = some w → ¬(start = w.start ∧ stop = readAt)) →
    after.samples.get? (nodeId, label, start, stop) = db.samples.get? (nodeId, label, start, stop)

theorem worth_sameLabel {label : String} {mid : Db} (h : SameLabel label db mid) (nodeId : String)
    {owner : CounterOwner} (hlabel : owner.label = label) (readAt : Int) (window : Option Window) :
    worth mid nodeId owner readAt window = worth db nodeId owner readAt window := by
  cases window with
  | none => rfl
  | some window =>
    have hbookable : bookable mid nodeId owner readAt window
        = bookable db nodeId owner readAt window := by
      subst hlabel
      cases owner with
      | user grant =>
        simp only [bookable, Table.contains, CounterOwner.windowKey]
        rw [show grant.label = (CounterOwner.user grant).label from rfl, h.samples]
      | chainHop hop =>
        simp only [bookable, Table.contains, CounterOwner.windowKey]
        rw [show hop.label = (CounterOwner.chainHop hop).label from rfl, h.chainSamples]
    simp only [worth, hbookable]

theorem recordFresh_user {label : String} {bytes : Bytes}
    (hbound : generation.bindsUser label grant) (hreading : request.readingOf label = some bytes)
    (h : recordFresh platform db nodeId request generation = .ok (result, after)) :
    SettlesUser nodeId label grant request.readAtUnixSecs
      (settle (db.heads.get? (nodeId, label)) generation label
        (request.reading generation.id bytes) generation.id) db after := by
  have hlabel : (CounterOwner.user grant).label = label := hbound.label
  have h := recordFresh_label label h
  rw [hreading] at h
  obtain ⟨mid, mid', hpre, htakes, hpost⟩ := h
  unfold TakesReading at htakes
  rw [hbound.target] at htakes
  simp only [hpre.heads] at htakes
  set settled := settle (db.heads.get? (nodeId, label)) generation label
    (request.reading generation.id bytes) generation.id
  refine ⟨?_, ?_, fun start stop hkey => ?_⟩
  · rw [hpost.heads, htakes.heads, if_pos (by rw [hlabel])]
  · rw [hpost.billed, htakes.booked.billed, hpre.billed,
      worth_sameLabel hpre nodeId hlabel request.readAtUnixSecs settled.2, labelShare,
      if_pos ⟨rfl, hlabel⟩]
  · rw [hpost.samples, htakes.rows.samples, hpre.samples]
    intro _ _ hsome
    obtain ⟨w, hw, hwkey⟩ := Option.map_eq_some_iff.mp hsome
    simp only [CounterOwner.windowKey, Prod.mk.injEq] at hwkey
    exact hkey w hw ⟨hwkey.2.2.1.symm, hwkey.2.2.2.symm⟩

theorem recordFresh_otherNode {node label : String} (hnode : nodeId ≠ node)
    (h : recordFresh platform db nodeId request generation = .ok (result, after)) :
    after.heads.get? (node, label) = db.heads.get? (node, label) ∧
      after.billed node label = db.billed node label ∧
      ∀ start stop, after.samples.get? (node, label, start, stop)
        = db.samples.get? (node, label, start, stop) := by
  have h := recordFresh_label label h
  cases hreading : request.readingOf label with
  | none =>
    rw [hreading] at h
    exact ⟨h.heads node, h.billed node, h.samples node⟩
  | some bytes =>
    rw [hreading] at h
    obtain ⟨mid, mid', hpre, htakes, hpost⟩ := h
    have htaken : mid'.heads.get? (node, label) = mid.heads.get? (node, label) ∧
        mid'.billed node label = mid.billed node label ∧
        ∀ start stop, mid'.samples.get? (node, label, start, stop)
          = mid.samples.get? (node, label, start, stop) := by
      unfold TakesReading at htakes
      split at htakes
      · rw [htakes]
        exact ⟨rfl, rfl, fun _ _ => rfl⟩
      · rename_i owner accounting metadata _
        refine ⟨?_, ?_, fun start stop => ?_⟩
        · rw [htakes.heads, if_neg fun heq => hnode (Prod.mk.inj heq).1.symm]
        · rw [htakes.booked.billed]
          cases owner with
          | user grant => rw [labelShare, if_neg fun hand => hnode hand.1, add_zero]
          | chainHop hop => exact add_zero _
        · refine htakes.rows.samples _ fun grant howner hsome => ?_
          obtain ⟨w, -, hw⟩ := Option.map_eq_some_iff.mp hsome
          rw [howner] at hw
          exact hnode (Prod.mk.inj hw).1
    refine ⟨?_, ?_, fun start stop => ?_⟩
    · rw [hpost.heads, htaken.1, hpre.heads]
    · rw [hpost.billed, htaken.2.1, hpre.billed]
    · rw [hpost.samples, htaken.2.2, hpre.samples]

end Brocade.Usage
