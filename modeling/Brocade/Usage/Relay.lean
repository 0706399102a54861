/-
The bytes of a relay hop.

A relay hop's counter runs on its own machine and on every reverse portal that pulls from
it.  Each of them keeps a head of its own, but the windows they book share one table,
keyed by the hop's machine and by whole seconds.  So a window is booked only if no other
machine has booked the same pair of seconds before, and its bytes are lost otherwise.
-/
import Mathlib.Algebra.Order.BigOperators.Group.List
import Brocade.Usage.Frozen
import Brocade.Usage.Meter

namespace Brocade.Usage

open Fallible Model

/-! ### The owner of a hop's counter -/

/-- Every generation is frozen from a model in which the label is the hop's alone. -/
def FreezesHop (hop : ChainHopMapping) (events : List Event) : Prop :=
  ∀ generations nodes, .control generations nodes ∈ events →
    ∀ id n generation, generations.get? (id, n) = some generation →
      ∃ snapshot desiredGrants, SoleHop snapshot hop ∧ generation.bindings.get? hop.label
          = (frozenBindings snapshot n desiredGrants).get? hop.label

/-- In every generation of the database the label is the hop's, if anyone's. -/
def BindsHop (hop : ChainHopMapping) (db : Db) : Prop :=
  ∀ key generation, db.generations.get? key = some generation →
    ∀ binding, generation.bindings.get? hop.label = some binding → HopOrForeign hop binding

/-- Every sample of the label lies on the hop's machine. -/
def SamplesHop (hop : ChainHopMapping) (db : Db) : Prop :=
  ∀ n start stop, db.chainSamples.contains (n, hop.label, start, stop) = true → n = hop.nodeId

variable {hop : ChainHopMapping} {db : Db} {nodeId : String} {generation : UsageGeneration}
    {key : Int × String} {platform : Platform} {tx : Transaction}

theorem BindsHop.of_installed {events : List Event} (hfrozen : FreezesHop hop events)
    (hdb : Installed events db) : BindsHop hop db := by
  intro key generation hgeneration binding hbinding
  rcases hdb with hempty | ⟨nodes, hcontrol⟩
  · rw [hempty] at hgeneration
    cases hgeneration
  · obtain ⟨snapshot, desiredGrants, hsole, hfrozen⟩ :=
      hfrozen _ _ hcontrol key.1 key.2 generation hgeneration
    exact frozenBindings_soleHop hsole key.2 desiredGrants binding (hfrozen ▸ hbinding)

theorem HopOrForeign.owner {binding : FrozenBinding} (h : HopOrForeign hop binding)
    {owner : CounterOwner} (howner : binding.toCounterOwner hop.label = some owner) :
    owner = .chainHop hop := by
  rcases h with rfl | rfl
  · cases howner
  · cases howner
    rfl

theorem HopOrForeign.policy {binding : FrozenBinding} (h : HopOrForeign hop binding) :
    binding.firstReadingPolicy = .establishBaseline := by
  rcases h with rfl | rfl <;> rfl

theorem resolveOwner_hop (hdb : BindsHop hop db)
    (hgeneration : db.generations.get? key = some generation) {request : UsageReportRequest}
    {bytes : Bytes} {previous : Option UsageHead} {owner : CounterOwner} {accounting : Int}
    {metadata : UsageMetadata}
    (h : resolveOwner db nodeId generation request hop.label bytes previous
      = some (owner, accounting, metadata)) : owner = .chainHop hop := by
  unfold resolveOwner at h
  split at h
  · rename_i owner' howner
    cases h
    obtain ⟨binding, hbinding, hto⟩ := Option.bind_eq_some_iff.mp howner
    exact (hdb key generation hgeneration binding hbinding).owner hto
  · split at h
    · rw [Option.ite_none_right_eq_some] at h
      have hretired := h.2
      simp only [retiredChainOwner, Option.bind_eq_bind, Option.bind_eq_some_iff] at hretired
      obtain ⟨old, hold, binding, hbinding, hretired⟩ := hretired
      split at hretired
      · rename_i hop' hto
        cases hretired
        exact (hdb _ old hold binding hbinding).owner hto
      · cases hretired
    · cases h

theorem dedup_of_all_eq {α : Type} [DecidableEq α] {a : α} {as : List α} (h : ∀ b ∈ as, b = a) :
    as.dedup = [] ∨ as.dedup = [a] := by
  induction as with
  | nil => exact Or.inl rfl
  | cons b as ih =>
    have hb := h b List.mem_cons_self
    subst hb
    rcases ih fun c hc => h c (List.mem_cons_of_mem _ hc) with hnil | hone
    · rw [List.dedup_eq_nil] at hnil
      exact Or.inr (by simp [hnil])
    · have hmem : b ∈ as := List.mem_dedup.mp (hone ▸ List.mem_singleton_self b)
      exact Or.inr (by rw [List.dedup_cons_of_mem hmem, hone])

theorem resolveChainOwnerNode_hop (hdb : SamplesHop hop db) (generationId : Int)
    (previous : Option UsageHead) : resolveChainOwnerNode db hop generationId previous
      = if hop.nodeId ∈ db.nodes then some hop else none := by
  have hcases : ownerEvidence db hop generationId previous = []
      ∨ ownerEvidence db hop generationId previous = [hop.nodeId] := by
    unfold ownerEvidence
    cases previous with
    | none => exact Or.inl rfl
    | some head =>
      simp only
      split
      · refine dedup_of_all_eq fun owner howner => ?_
        obtain ⟨⟨⟨n, label, start, stop⟩, row⟩, hrow, rfl⟩ := List.mem_map.mp howner
        obtain ⟨hmem, hmatch⟩ := List.mem_filter.mp hrow
        simp only [Bool.and_eq_true, decide_eq_true_eq] at hmatch
        obtain ⟨⟨⟨⟨-, rfl⟩, -⟩, -⟩, -⟩ := hmatch
        exact hdb n start stop (Table.contains_iff.mpr ⟨row, Table.mem_rows.mp hmem⟩)
      · exact Or.inl rfl
  unfold resolveChainOwnerNode
  rcases hcases with hnil | hone
  · rw [hnil]
  · rw [hone]

/-- The target of the label's counter is the hop, decided by what the label alone shows. -/
theorem resolveTarget_hop (hbinds : BindsHop hop db) (hsamples : SamplesHop hop db)
    (hgeneration : db.generations.get? key = some generation) (request : UsageReportRequest)
    (bytes : Bytes) : resolveTarget db nodeId generation request hop.label bytes
      = (resolveOwner db nodeId generation request hop.label bytes
          (db.heads.get? (nodeId, hop.label))).bind fun target =>
            if hop.nodeId ∈ db.nodes then some (.chainHop hop, target.2) else none := by
  unfold resolveTarget
  simp only
  cases hresolve : resolveOwner db nodeId generation request hop.label bytes
      (db.heads.get? (nodeId, hop.label)) with
  | none => rfl
  | some target =>
    obtain ⟨owner, accounting, metadata⟩ := target
    have howner := resolveOwner_hop hbinds hgeneration hresolve
    subst howner
    simp only [resolveChainOwnerNode_hop hsamples, Option.bind_some]
    split <;> rfl

theorem resolveTarget_sameLabel {mid : Db} (h : SameLabel hop.label db mid)
    (hbinds : BindsHop hop db) (hsamples : SamplesHop hop db)
    (hgeneration : db.generations.get? key = some generation) (request : UsageReportRequest)
    (bytes : Bytes) : resolveTarget mid nodeId generation request hop.label bytes
      = resolveTarget db nodeId generation request hop.label bytes := by
  have hbinds' : BindsHop hop mid := by
    intro key generation hgeneration
    exact hbinds key generation (h.generations ▸ hgeneration)
  have hsamples' : SamplesHop hop mid := by
    intro n start stop hcontains
    rw [Table.contains, h.chainSamples] at hcontains
    exact hsamples n start stop hcontains
  rw [resolveTarget_hop hbinds' hsamples' (h.generations.symm ▸ hgeneration),
    resolveTarget_hop hbinds hsamples hgeneration, h.heads, h.nodes]
  unfold resolveOwner retiredChainOwner
  rw [h.generations]

/-! ### What a transaction does to the hop -/

/-- The bytes by which a head advances. -/
def headIncrease (before after : Option UsageHead) : Bytes :=
  match before, after with
  | some head, some head' =>
    if head' = head then 0
    else if head'.xrayEpoch = head.xrayEpoch then head'.bytes - head.bytes else head'.bytes
  | _, _ => 0

/-- The increase by which the reporting machine's own head advances. -/
def Transaction.increase (tx : Transaction) (label : String) : Bytes :=
  headIncrease (tx.before.heads.get? (tx.nodeId, label)) (tx.after.heads.get? (tx.nodeId, label))

/-- The start of the window a move books. -/
def UsageHead.windowStart (head : UsageHead) (reading : UsageReading) : Int :=
  if head.xrayEpoch = reading.xrayEpoch then head.readAtUnixSecs
  else max head.readAtUnixSecs reading.xrayStartedAtUnixSecs

/-- The bytes a move is worth. -/
def UsageHead.growth (head : UsageHead) (reading : UsageReading) : Bytes :=
  if head.xrayEpoch = reading.xrayEpoch then reading.bytes - head.bytes else reading.bytes

theorem settle_moves {head : UsageHead} {reading : UsageReading} (generation : UsageGeneration)
    (label : String) (accounting : Int) (h : Moves head reading) :
    ∃ hasGap, settle (some head) generation label reading accounting
      = (some (reading.head accounting),
          some ⟨head.windowStart reading, head.growth reading, hasGap⟩) := by
  unfold UsageHead.windowStart UsageHead.growth
  by_cases hepoch : head.xrayEpoch = reading.xrayEpoch
  · rw [if_pos hepoch, if_pos hepoch]
    exact ⟨_, settle_grows _ _ _ h hepoch⟩
  · rw [if_neg hepoch, if_neg hepoch]
    exact ⟨_, settle_restarts _ _ _ h hepoch⟩

theorem headIncrease_moves {head : UsageHead} {reading : UsageReading} (accounting : Int)
    (h : Moves head reading) :
    headIncrease (some head) (some (reading.head accounting)) = head.growth reading := by
  have hne : reading.head accounting ≠ head := by
    intro heq
    have hlater := h.1
    rw [← heq] at hlater
    exact lt_irrefl _ hlater
  unfold headIncrease UsageHead.growth
  simp only [if_neg hne]
  by_cases hepoch : head.xrayEpoch = reading.xrayEpoch
  · exact (if_pos hepoch.symm).trans (if_pos hepoch).symm
  · exact (if_neg fun heq => hepoch heq.symm).trans (if_neg hepoch).symm

@[simp] theorem headIncrease_self (head : Option UsageHead) : headIncrease head head = 0 := by
  cases head with
  | none => rfl
  | some head => exact if_pos rfl

/-- A report whose reading moves its machine's head by some bytes, over a window that is
empty or that some machine has booked for the hop already. -/
def DropsIncrease (hop : ChainHopMapping) (tx : Transaction) : Prop :=
  tx.before.receipts.get? (tx.nodeId, tx.request.agentInstanceId, tx.request.sequence) = none ∧
    ∃ generation head bytes,
      tx.before.generations.get? (tx.request.usageGenerationId, tx.nodeId) = some generation ∧
      tx.before.heads.get? (tx.nodeId, hop.label) = some head ∧
      tx.request.readingOf hop.label = some bytes ∧
      (resolveTarget tx.before tx.nodeId generation tx.request hop.label bytes).isSome = true ∧
      let reading := tx.request.reading generation.id bytes
      Moves head reading ∧ head.growth reading ≠ 0 ∧
        (reading.readAtUnixSecs ≤ head.windowStart reading ∨
          tx.before.chainSamples.contains (hop.nodeId, hop.label, head.windowStart reading,
            reading.readAtUnixSecs) = true)

/-- What a fresh report does to a hop's label that it accounts for. -/
structure SettlesHop (hop : ChainHopMapping) (nodeId : String) (readAt : Int)
    (settled : Option UsageHead × Option Window) (db after : Db) : Prop where
  head : after.heads.get? (nodeId, hop.label) = settled.1
  relayed : after.relayed hop.nodeId hop.label
    = db.relayed hop.nodeId hop.label + worth db nodeId (.chainHop hop) readAt settled.2
  samples : ∀ n start stop, n ≠ hop.nodeId → after.chainSamples.get? (n, hop.label, start, stop)
      = db.chainSamples.get? (n, hop.label, start, stop)

theorem recordFresh_hop {after : Db} {request : UsageReportRequest} {result : UsageReportResult}
    {bytes : Bytes} (hbinds : BindsHop hop db) (hsamples : SamplesHop hop db)
    (hgeneration : db.generations.get? key = some generation)
    (hreading : request.readingOf hop.label = some bytes)
    (h : recordFresh platform db nodeId request generation = .ok (result, after)) :
    match resolveTarget db nodeId generation request hop.label bytes with
    | none => SameLabel hop.label db after
    | some (_, accounting, _) =>
      SettlesHop hop nodeId request.readAtUnixSecs
        (settle (db.heads.get? (nodeId, hop.label)) generation hop.label
          (request.reading generation.id bytes) accounting) db after := by
  have h := recordFresh_label hop.label h
  rw [hreading] at h
  obtain ⟨mid, mid', hpre, htakes, hpost⟩ := h
  unfold TakesReading at htakes
  rw [resolveTarget_sameLabel hpre hbinds hsamples hgeneration] at htakes
  cases htarget : resolveTarget db nodeId generation request hop.label bytes with
  | none =>
    rw [htarget] at htakes
    exact hpre.trans (htakes ▸ hpost)
  | some target =>
    obtain ⟨owner, accounting, metadata⟩ := target
    have howner : owner = .chainHop hop := by
      rw [resolveTarget_hop hbinds hsamples hgeneration] at htarget
      obtain ⟨_, -, htarget⟩ := Option.bind_eq_some_iff.mp htarget
      rw [Option.ite_none_right_eq_some] at htarget
      exact (Prod.mk.inj (Option.some.inj htarget.2)).1.symm
    subst howner
    rw [htarget] at htakes
    simp only [hpre.heads] at htakes
    simp only
    set settled := settle (db.heads.get? (nodeId, hop.label)) generation hop.label
      (request.reading generation.id bytes) accounting
    refine ⟨?_, ?_, fun n start stop hne => ?_⟩
    · rw [hpost.heads, htakes.heads]
      exact if_pos rfl
    · rw [hpost.relayed, htakes.booked.relayed, hpre.relayed,
        worth_sameLabel hpre nodeId rfl request.readAtUnixSecs settled.2, hopShare,
        if_pos ⟨rfl, rfl⟩]
    · rw [hpost.chainSamples, htakes.rows.chainSamples, hpre.chainSamples]
      intro _ _ hsome
      obtain ⟨w, -, hw⟩ := Option.map_eq_some_iff.mp hsome
      exact hne (Prod.mk.inj hw).1.symm

/-- What a transaction adds to the hop's ledger. -/
def Transaction.relayGrowth (tx : Transaction) (hop : ChainHopMapping) : Bytes :=
  tx.after.relayed hop.nodeId hop.label - tx.before.relayed hop.nodeId hop.label

/-- A transaction books its head's increase, or drops it. -/
structure Relays (hop : ChainHopMapping) (tx : Transaction) : Prop where
  relayed : tx.after.relayed hop.nodeId hop.label
    = tx.before.relayed hop.nodeId hop.label + tx.relayGrowth hop
  le : tx.relayGrowth hop ≤ tx.increase hop.label
  whole : tx.relayGrowth hop = tx.increase hop.label ↔ ¬ DropsIncrease hop tx
  samples : SamplesHop hop tx.after

theorem Relays.of_booked {booked : Bytes} (hrelayed : tx.after.relayed hop.nodeId hop.label
      = tx.before.relayed hop.nodeId hop.label + booked) (hle : booked ≤ tx.increase hop.label)
    (hwhole : booked = tx.increase hop.label ↔ ¬ DropsIncrease hop tx)
    (hsamples : SamplesHop hop tx.after) : Relays hop tx := by
  have hgrowth : tx.relayGrowth hop = booked := by
    rw [Transaction.relayGrowth, hrelayed, add_tsub_cancel_left]
  rw [← hgrowth] at hrelayed hle hwhole
  exact ⟨hrelayed, hle, hwhole, hsamples⟩

theorem Relays.of_same (hheads : tx.after.heads.get? (tx.nodeId, hop.label)
      = tx.before.heads.get? (tx.nodeId, hop.label))
    (hrelayed : tx.after.relayed hop.nodeId hop.label = tx.before.relayed hop.nodeId hop.label)
    (hsamples : SamplesHop hop tx.after) (hnot : ¬ DropsIncrease hop tx) : Relays hop tx := by
  have hincrease : tx.increase hop.label = 0 := by
    rw [Transaction.increase, hheads, headIncrease_self]
  refine .of_booked (hrelayed.trans (add_zero _).symm) zero_le ?_ hsamples
  exact iff_of_true hincrease.symm hnot

theorem worth_hop (db : Db) (nodeId : String) (hop : ChainHopMapping) (readAt : Int)
    (window : Window) :
    worth db nodeId (.chainHop hop) readAt (some window) = if window.start < readAt
          ∧ db.chainSamples.contains (hop.nodeId, hop.label, window.start, readAt) = false
        then window.bytes else 0 := by
  simp [worth, bookable, CounterOwner.windowKey]

theorem SamplesHop.of_same {after : Db} (h : SamplesHop hop db)
    (hsame : ∀ n start stop, n ≠ hop.nodeId → after.chainSamples.get? (n, hop.label, start, stop)
        = db.chainSamples.get? (n, hop.label, start, stop)) : SamplesHop hop after := by
  intro n start stop hcontains
  by_contra hne
  rw [Table.contains, hsame n start stop hne] at hcontains
  exact hne (h n start stop hcontains)

/-- **A transaction books its head's increase exactly when it does not drop it.** -/
theorem committed_relays (hbinds : BindsHop hop tx.before) (hsamples : SamplesHop hop tx.before)
    (hcommitted : tx.Committed platform) : Relays hop tx := by
  rcases recordUsageReport_ok hcommitted with ⟨receipt, hreceipt, -, -, hafter⟩ |
    ⟨hfree, generation, hgeneration, hfresh⟩
  · refine .of_same (by rw [hafter]) (by rw [hafter]) (hafter ▸ hsamples) ?_
    rintro ⟨hnone, -⟩
    rw [hnone] at hreceipt
    cases hreceipt
  cases hreading : tx.request.readingOf hop.label with
  | none =>
    have h := recordFresh_label hop.label hfresh
    rw [hreading] at h
    refine .of_same (h.heads _) (h.relayed _) (hsamples.of_same fun n s e _ => h.chainSamples n s e) ?_
    rintro ⟨-, _, _, _, -, -, hsome, -⟩
    rw [hreading] at hsome
    cases hsome
  | some bytes =>
    have h := recordFresh_hop hbinds hsamples hgeneration hreading hfresh
    -- the inputs of the drop are those of this transaction
    have hdrops : ∀ head, tx.before.heads.get? (tx.nodeId, hop.label) = some head →
        (DropsIncrease hop tx ↔
          (resolveTarget tx.before tx.nodeId generation tx.request hop.label bytes).isSome = true ∧
          Moves head (tx.request.reading generation.id bytes) ∧
          head.growth (tx.request.reading generation.id bytes) ≠ 0 ∧
          (tx.request.readAtUnixSecs ≤ head.windowStart (tx.request.reading generation.id bytes) ∨
            tx.before.chainSamples.contains (hop.nodeId, hop.label,
              head.windowStart (tx.request.reading generation.id bytes),
              tx.request.readAtUnixSecs) = true)) := by
      intro head hhead
      constructor
      · rintro ⟨-, generation', head', bytes', hgeneration', hhead', hreading', hrest⟩
        rw [hgeneration, Option.some.injEq] at hgeneration'
        rw [hhead, Option.some.injEq] at hhead'
        rw [hreading, Option.some.injEq] at hreading'
        subst hgeneration' hhead' hreading'
        exact hrest
      · intro hrest
        exact ⟨hfree, generation, head, bytes, hgeneration, hhead, hreading, hrest⟩
    cases htarget : resolveTarget tx.before tx.nodeId generation tx.request hop.label bytes with
    | none =>
      rw [htarget] at h
      refine .of_same (h.heads _) (h.relayed _)
        (hsamples.of_same fun n s e _ => h.chainSamples n s e) ?_
      rintro ⟨-, generation', head, bytes', hgeneration', -, hreading', hsome, -⟩
      rw [hgeneration, Option.some.injEq] at hgeneration'
      rw [hreading, Option.some.injEq] at hreading'
      subst hgeneration' hreading'
      rw [htarget] at hsome
      cases hsome
    | some target =>
      rw [htarget] at h
      obtain ⟨hhead', hrelayed, hrows⟩ := h
      have hsamples' := hsamples.of_same hrows
      cases hhead : tx.before.heads.get? (tx.nodeId, hop.label) with
      | none =>
        -- a hop's first reading is a baseline
        have hpolicy : generation.firstReadingPolicy hop.label = .establishBaseline := by
          unfold UsageGeneration.firstReadingPolicy
          split
          · exact (hbinds _ _ hgeneration _ ‹_›).policy
          · rfl
        have hwindow : (settle none generation hop.label
            (tx.request.reading generation.id bytes) target.2.1).2 = none := by
          unfold settle judge firstReading
          simp only [hpolicy]
        have hincrease : tx.increase hop.label = 0 := by
          rw [Transaction.increase, hhead]
          rfl
        rw [hhead, hwindow] at hrelayed
        refine .of_booked hrelayed zero_le (iff_of_true hincrease.symm ?_) hsamples'
        rintro ⟨-, _, _, _, -, hsome, -⟩
        rw [hhead] at hsome
        cases hsome
      | some head =>
        rw [hhead] at hhead' hrelayed
        have hdrops := hdrops head hhead
        rw [htarget, Option.isSome_some, eq_self, true_and] at hdrops
        by_cases hmoves : Moves head (tx.request.reading generation.id bytes)
        · obtain ⟨hasGap, hsettle⟩ := settle_moves generation hop.label target.2.1 hmoves
          rw [hsettle] at hhead' hrelayed
          rw [worth_hop] at hrelayed
          have hincrease : tx.increase hop.label
              = head.growth (tx.request.reading generation.id bytes) := by
            rw [Transaction.increase, hhead, hhead', headIncrease_moves _ hmoves]
          refine .of_booked hrelayed ?_ ?_ hsamples'
          · rw [hincrease]
            split
            · exact le_rfl
            · exact zero_le
          · rw [hincrease, hdrops]
            split
            · rename_i hbooked
              refine iff_of_true rfl ?_
              rintro ⟨-, -, hlate | htaken⟩
              · exact absurd hbooked.1 (not_lt.mpr hlate)
              · exact absurd (htaken.symm.trans hbooked.2) Bool.noConfusion
            · rename_i hunbooked
              refine ⟨fun hzero hand => hand.2.1 hzero.symm, fun hnot => ?_⟩
              by_contra hne
              refine hnot ⟨hmoves, fun hzero => hne hzero.symm, ?_⟩
              rw [not_and_or, not_lt, Bool.not_eq_false] at hunbooked
              exact hunbooked
        · rw [settle_stays _ _ _ hmoves] at hhead' hrelayed
          refine .of_same (hhead'.trans hhead.symm) (hrelayed.trans (add_zero _)) hsamples' ?_
          rw [hdrops]
          exact fun hand => hmoves hand.1

/-! ### A run -/

theorem samplesHop_empty (hop : ChainHopMapping) : SamplesHop hop Db.empty := by
  intro n start stop hcontains
  cases hcontains

theorem step_samplesHop (hbinds : BindsHop hop db) (h : SamplesHop hop db) (event : Event) :
    SamplesHop hop (step platform db event) := by
  cases event with
  | deliver serverNow nodeId request =>
    cases hrecord : recordUsageReport platform serverNow db nodeId request with
    | error e => exact (step_of_error hrecord).symm ▸ h
    | ok answer =>
      obtain ⟨result, after⟩ := answer
      have hcommitted :
          Transaction.Committed platform ⟨db, serverNow, nodeId, request, result, after⟩ := hrecord
      rw [step_of_committed hcommitted]
      exact (committed_relays hbinds h hcommitted).samples
  | control generations nodes => exact h

theorem sum_map_eq_iff {α : Type} {as : List α} {f g : α → Bytes} (h : ∀ a ∈ as, f a ≤ g a) :
    (as.map f).sum = (as.map g).sum ↔ ∀ a ∈ as, f a = g a := by
  induction as with
  | nil => simp
  | cons a as ih =>
    have hrest := fun b hb => h b (List.mem_cons_of_mem a hb)
    rw [List.map_cons, List.map_cons, List.sum_cons, List.sum_cons,
      add_eq_add_iff_eq_and_eq (h a List.mem_cons_self) (List.sum_le_sum hrest), ih hrest]
    simp

/-- **The bytes booked for a relay hop are the increases of all its reporters' heads exactly
when no report drops its increase**: every move of a head that brings bytes spans a pair of
seconds no machine has booked for the hop before. -/
theorem relayed_eq_increases_iff (platform : Platform) {events : List Event} {hop : ChainHopMapping}
    (hfrozen : FreezesHop hop events) : (run platform events).relayed hop.nodeId hop.label
        = ((history platform events).map fun tx => tx.increase hop.label).sum ↔
      ∀ tx ∈ history platform events, ¬ DropsIncrease hop tx := by
  have hkept : ∀ tx ∈ history platform events, Relays hop tx := by
    intro tx htx
    obtain ⟨hsamples, hinstalled⟩ := historyFrom_invariant
      (P := fun db => SamplesHop hop db ∧ Installed events db)
      (fun db event he h => ⟨step_samplesHop (.of_installed hfrozen h.2) h.1 event,
        step_installed he h.2⟩) ⟨samplesHop_empty hop, Or.inl rfl⟩ htx
    obtain ⟨_, _, _, -, hcommitted⟩ := mem_historyFrom htx
    exact committed_relays (.of_installed hfrozen hinstalled) hsamples hcommitted
  have hsum : (run platform events).relayed hop.nodeId hop.label
      = ((history platform events).map fun tx => tx.relayGrowth hop).sum :=
    (runFrom_growth (f := fun db => db.relayed hop.nodeId hop.label) (fun _ _ _ => rfl)
      fun tx htx => (hkept tx htx).relayed).trans (zero_add _)
  rw [hsum, sum_map_eq_iff fun tx htx => (hkept tx htx).le]
  exact forall₂_congr fun tx htx => (hkept tx htx).whole

/-! ### Two reporters in one pair of seconds -/

/-- A chain whose head pulls from a relay. -/
def portalSnapshot : ModelSnapshot :=
  plainSnapshot [plainNode "edge" "192.0.2.1", plainNode "relay" "192.0.2.2"]
    [plainApp "shop" [⟨"main", "acme", "Main", none⟩] [plainIngress "web" "main" "edge"] [
      { chain := "main", node := "edge", accept := none
        hopIn := some ⟨20000, .none⟩
        rules := [⟨.any, .forward "relay" (.reverse .v4) .none⟩] },
      { chain := "main", node := "relay", accept := some ⟨"uuid", "main@relay"⟩
        hopIn := none, rules := [⟨.any, .egress none⟩] }]]

def relayHop : ChainHopMapping where
  tenantId := "acme"
  appId := "shop"
  chainId := "main"
  label := "main@relay"
  nodeId := "relay"

/-- A generation that names it. -/
def relayGeneration (id : Int) (node : String) : UsageGeneration where
  id := id
  deploymentId := none
  revisionId := some 1
  bindings := frozenBindings portalSnapshot node none
  activatedAtUnixSecs := some 900

/-- A report on it. -/
def relayReport (generation sequence : ℕ) (readAt : Int) (bytes : Bytes) : UsageReportRequest where
  agentInstanceId := "0123456789abcdef0123456789abcdef"
  sequence := sequence
  usageGenerationId := generation
  readAtUnixSecs := readAt
  xrayStartedAtUnixSecs := 900
  xrayEpoch := "first"
  route := none
  counters := [⟨"main@relay", bytes.1, bytes.2⟩]
  zeroWindows := []

/-- Both machines are read at the same two seconds. -/
def twoReporters : List Event :=
  [.control ((Table.empty.put (1, "relay") (relayGeneration 1 "relay")).put (2, "edge")
      (relayGeneration 2 "edge")) ["relay", "edge"],
    .deliver 2000 "relay" (relayReport 1 1 1000 (10, 20)),
    .deliver 2000 "edge" (relayReport 2 1 1000 (1, 2)),
    .deliver 2000 "relay" (relayReport 1 2 1010 (15, 25)),
    .deliver 2000 "edge" (relayReport 2 2 1010 (4, 6))]

theorem portalSnapshot_soleHop : SoleHop portalSnapshot relayHop where
  noGrant := by decide
  oneHop := by decide

theorem twoReporters_freezes : FreezesHop relayHop twoReporters := by
  intro generations nodes hcontrol id n generation hgeneration
  have hinstalled : generations = (Table.empty.put (1, "relay") (relayGeneration 1 "relay")).put
      (2, "edge") (relayGeneration 2 "edge") := by
    simp only [twoReporters, List.mem_cons, Event.control.injEq, reduceCtorEq, List.not_mem_nil,
      or_false] at hcontrol
    exact hcontrol.1
  refine ⟨portalSnapshot, none, portalSnapshot_soleHop, ?_⟩
  rw [hinstalled, Table.get?_put, Table.get?_put] at hgeneration
  split at hgeneration
  · rename_i hkey
    cases hkey
    cases hgeneration
    rfl
  · split at hgeneration
    · rename_i hkey
      cases hkey
      cases hgeneration
      rfl
    · cases hgeneration

/-- The portal's bytes of the second both were read in are booked nowhere. -/
theorem relayed_eq_increases_fails : FreezesHop relayHop twoReporters ∧
      (frozenBindings portalSnapshot "relay" none).get? "main@relay"
        = some (.chainHop "acme" "shop" "main" "relay") ∧
      (frozenBindings portalSnapshot "edge" none).get? "main@relay"
        = some (.chainHop "acme" "shop" "main" "relay") ∧
      (run hongKong twoReporters).relayed "relay" "main@relay"
        ≠ ((history hongKong twoReporters).map fun tx => tx.increase "main@relay").sum :=
  ⟨twoReporters_freezes, by decide, by decide, by decide +kernel⟩

theorem relayed_eq_increases_sample : (run hongKong twoReporters).relayed "relay" "main@relay"
        = ((history hongKong twoReporters).map fun tx => tx.increase "main@relay").sum ↔
      ∀ tx ∈ history hongKong twoReporters, ¬ DropsIncrease relayHop tx :=
  relayed_eq_increases_iff hongKong twoReporters_freezes

end Brocade.Usage
