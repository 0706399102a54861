/-
What a report does to one rule's head and ledgers.

A rule is in a report once at most, so that a report comes to one reading of the rule, and the
reading to one charge: `heard` is that reading, `headAfter` the head it leaves and `charged`
its bytes.  Samples and rollups take the same bytes, and a charge of no bytes moves none in
the windows either.
-/
import Brocade.Forwarding.Usage

namespace Brocade.Forwarding

open Usage (StoreError Bytes I64_MAX inRange)

/-! ### Ledgers -/

/-- What the samples of a rule hold. -/
def sampledBytes (usage : UsageDb) (nodeId : String) (ruleId : ℤ) : Bytes :=
  ((usage.samples.filter fun sample =>
    decide (sample.nodeId = nodeId ∧ sample.ruleId = ruleId)).map (·.bytes)).sum

/-- What its rollups hold. -/
def rolledBytes (usage : UsageDb) (nodeId : String) (ruleId : ℤ) : Bytes :=
  usage.rollups.total (fun key => decide (key.2.1 = nodeId ∧ key.2.2.2.2 = ruleId)) (·.1)

/-- What the windows of a machine hold. -/
def windowBytes (usage : UsageDb) (nodeId : String) : Bytes :=
  usage.windows.total (fun key => decide (key.1 = nodeId)) (·.1)

def headBytes (usage : UsageDb) (nodeId : String) (ruleId : ℤ) : Bytes :=
  ((usage.heads.get? (nodeId, ruleId)).map (·.bytes)).getD 0

/-! ### One reading of one rule -/

/-- What a reading that is heard leaves of a head. -/
def headAfter (head : Option UsageCounterHead) (request : ForwardingUsageReportRequest)
    (heard : Option Bytes) : Option UsageCounterHead :=
  match heard with
  | none => head
  | some bytes =>
    match chargeOf head request bytes with
    | none => head
    | some charge => chargedHead head request bytes charge

/-- What a report is charged. -/
def charged (head : Option UsageCounterHead) (request : ForwardingUsageReportRequest)
    (heard : Option Bytes) : Bytes :=
  ((heard.bind (chargeOf head request)).map (·.bytes)).getD 0

/-- A counter is heard if it has an owner. -/
def owned (db : Db) (nodeId : String) (counter : ForwardingUsageCounter) : Option Bytes :=
  if (counterOwner db nodeId counter.ruleId).isSome then some counter.bytes else none

/-- The reading a list of counters has of a rule. -/
def heard (db : Db) (nodeId : String) (counters : List ForwardingUsageCounter) (ruleId : ℤ) :
    Option Bytes :=
  (counters.find? fun counter => counter.ruleId = ruleId).bind (owned db nodeId)

@[simp] theorem headAfter_none (head : Option UsageCounterHead)
    (request : ForwardingUsageReportRequest) : headAfter head request none = head := rfl

@[simp] theorem charged_none (head : Option UsageCounterHead)
    (request : ForwardingUsageReportRequest) : charged head request none = 0 := rfl

theorem heard_cons (db : Db) (nodeId : String) (counter : ForwardingUsageCounter)
    (counters : List ForwardingUsageCounter) (ruleId : ℤ) :
    heard db nodeId (counter :: counters) ruleId
      = if counter.ruleId = ruleId then owned db nodeId counter
        else heard db nodeId counters ruleId := by
  unfold heard
  by_cases hrule : counter.ruleId = ruleId
  · simp [hrule]
  · simp [hrule]

variable {db : Db} {nodeId : String} {platform : UsagePlatform}
    {request : ForwardingUsageReportRequest} {owner : CounterOwner} {charge : Charge}
    {progress progress' : UsageProgress}

theorem heard_of_not_mem {counters : List ForwardingUsageCounter} {ruleId : ℤ}
    (h : ruleId ∉ counters.map (·.ruleId)) : heard db nodeId counters ruleId = none := by
  have hnone : (counters.find? fun counter => counter.ruleId = ruleId) = none := by
    rw [List.find?_eq_none]
    intro counter hcounter heq
    exact h (List.mem_map.mpr ⟨counter, hcounter, of_decide_eq_true heq⟩)
  rw [heard, hnone, Option.bind_none]

/-! ### Writes -/

theorem addRow_total {κ : Type} [DecidableEq κ] {table table' : Table κ (Bytes × Bool)} {key : κ}
    {bytes : Bytes} {hasGap : Bool} (h : addRow table key bytes hasGap = .ok table') (p : κ → Bool) :
    table'.total p (·.1) = table.total p (·.1) + if p key then bytes else 0 := by
  unfold addRow at h
  split at h
  · cases h
    exact Table.total_upsert table key _ p (by simp) (by simp)
  · cases h

/-- A sample and its rollup take the charge's bytes; the rest stays. -/
structure Sampled (usage usage' : UsageDb) (nodeId : String) (ruleId : ℤ) (bytes : Bytes) : Prop where
  sampled : ∀ node rule, sampledBytes usage' node rule = sampledBytes usage node rule
    + if nodeId = node ∧ ruleId = rule then bytes else 0
  rolled : ∀ node rule, rolledBytes usage' node rule = rolledBytes usage node rule
    + if nodeId = node ∧ ruleId = rule then bytes else 0
  heads : usage'.heads = usage.heads
  windows : usage'.windows = usage.windows

theorem insertSample_spec {usage usage' : UsageDb} {ruleId : ℤ}
    (h : insertSample platform usage nodeId request ruleId owner charge = .ok usage') :
    Sampled usage usage' nodeId ruleId charge.bytes := by
  unfold insertSample at h
  split at h
  · rw [Fallible.bind_eq_ok] at h
    obtain ⟨rollups, hrollups, h⟩ := h
    cases h
    refine ⟨fun node rule => ?_, fun node rule => ?_, rfl, rfl⟩
    · unfold sampledBytes
      rw [List.filter_append, List.map_append, List.sum_append]
      congr 1
      by_cases hkey : nodeId = node ∧ ruleId = rule
      · simp [hkey]
      · simp [hkey]
    · unfold rolledBytes
      rw [addRow_total hrollups]
      simp only [decide_eq_true_eq]
  · rename_i hzero
    cases h
    have hbytes : charge.bytes = 0 := by
      simp only [Charge.recorded, Bool.or_eq_true, decide_eq_true_eq, not_or, not_not] at hzero
      exact hzero.1
    refine ⟨fun node rule => ?_, fun node rule => ?_, rfl, rfl⟩ <;> simp [hbytes]

theorem insertWindow_spec {usage usage' : UsageDb}
    (h : insertWindow usage nodeId request owner charge = .ok usage') :
    ∃ windows, usage' = { usage with windows }
      ∧ (charge.bytes = 0 → ∀ node, windowBytes usage' node = windowBytes usage node) := by
  unfold insertWindow at h
  split at h
  · cases h
    exact ⟨usage.windows, rfl, fun _ _ => rfl⟩
  · rw [Fallible.bind_eq_ok] at h
    obtain ⟨windows, hwindows, h⟩ := h
    cases h
    refine ⟨windows, rfl, fun hzero node => ?_⟩
    unfold windowBytes
    rw [addRow_total hwindows, hzero]
    simp

/-! ### One counter -/

/-- What is done for one rule of one machine. -/
structure Effect (nodeId : String) (request : ForwardingUsageReportRequest) (reading : ℤ → Option Bytes)
    (usage usage' : UsageDb) : Prop where
  head : ∀ node rule, usage'.heads.get? (node, rule)
    = if node = nodeId then headAfter (usage.heads.get? (nodeId, rule)) request (reading rule)
      else usage.heads.get? (node, rule)
  sampled : ∀ node rule, sampledBytes usage' node rule = sampledBytes usage node rule
    + if node = nodeId then charged (usage.heads.get? (nodeId, rule)) request (reading rule) else 0
  rolled : ∀ node rule, rolledBytes usage' node rule = rolledBytes usage node rule
    + if node = nodeId then charged (usage.heads.get? (nodeId, rule)) request (reading rule) else 0
  windows : (∀ rule, charged (usage.heads.get? (nodeId, rule)) request (reading rule) = 0) →
    ∀ node, windowBytes usage' node = windowBytes usage node

theorem Effect.refl (nodeId : String) (request : ForwardingUsageReportRequest) (usage : UsageDb)
    {reading : ℤ → Option Bytes} (h : ∀ rule, reading rule = none
      ∨ ∃ bytes, reading rule = some bytes
        ∧ chargeOf (usage.heads.get? (nodeId, rule)) request bytes = none) :
    Effect nodeId request reading usage usage := by
  have hhead : ∀ rule, headAfter (usage.heads.get? (nodeId, rule)) request (reading rule)
      = usage.heads.get? (nodeId, rule) := by
    intro rule
    rcases h rule with hnone | ⟨bytes, hsome, hpassed⟩
    · rw [hnone, headAfter_none]
    · rw [hsome, headAfter, hpassed]
  have hcharged : ∀ rule, charged (usage.heads.get? (nodeId, rule)) request (reading rule) = 0 := by
    intro rule
    rcases h rule with hnone | ⟨bytes, hsome, hpassed⟩
    · rw [hnone, charged_none]
    · rw [hsome, charged, Option.bind_some, hpassed]
      rfl
  refine ⟨fun node rule => ?_, fun node rule => ?_, fun node rule => ?_, fun _ _ => rfl⟩
  · split
    · rename_i hnode
      rw [hhead, hnode]
    · rfl
  · simp [hcharged]
  · simp [hcharged]

theorem bookCharge_effect {counter : ForwardingUsageCounter}
    (howner : counterOwner db nodeId counter.ruleId = some owner)
    (hcharge : chargeOf (progress.usage.heads.get? (nodeId, counter.ruleId)) request counter.bytes
      = some charge)
    (h : bookCharge platform nodeId request counter owner charge progress = .ok progress') :
    Effect nodeId request (heard db nodeId [counter]) progress.usage progress'.usage := by
  let key := (nodeId, counter.ruleId)
  simp only [bookCharge, Fallible.bind_eq_ok] at h
  obtain ⟨sampled, hsampled, usage, hwindow, h⟩ := h
  cases h
  have hs := insertSample_spec hsampled
  have hheads : ∀ k, sampled.heads.get? k = if k = key then
      chargedHead (progress.usage.heads.get? key) request counter.bytes charge
      else progress.usage.heads.get? k := by
    intro k
    rw [hs.heads]
    dsimp only
    cases hhead : chargedHead (progress.usage.heads.get? (nodeId, counter.ruleId)) request
      counter.bytes charge with
    | some head => exact Table.get?_put ..
    | none =>
      dsimp only
      split
      · -- a head that is there stays there
        rename_i hk
        rw [hk]
        unfold chargedHead at hhead
        split at hhead
        · cases hhead
        · exact Option.map_eq_none_iff.mp hhead
      · rfl
  obtain ⟨windows, rfl, hwindows⟩ := insertWindow_spec hwindow
  have howned : owned db nodeId counter = some counter.bytes := by simp [owned, howner]
  have hheard : ∀ rule, heard db nodeId [counter] rule
      = if counter.ruleId = rule then some counter.bytes else none := by
    intro rule
    rw [heard_cons, howned]
    rfl
  have hcharged : ∀ rule, charged (progress.usage.heads.get? (nodeId, rule)) request
      (heard db nodeId [counter] rule) = if counter.ruleId = rule then charge.bytes else 0 := by
    intro rule
    rw [hheard]
    split
    · rename_i hrule
      rw [← hrule, charged, Option.bind_some, hcharge]
      rfl
    · rfl
  have hamount : ∀ node rule, (if nodeId = node ∧ counter.ruleId = rule then charge.bytes else 0)
      = if node = nodeId then charged (progress.usage.heads.get? (nodeId, rule)) request
        (heard db nodeId [counter] rule) else 0 := by
    intro node rule
    rw [hcharged]
    by_cases hnode : node = nodeId
    · simp [hnode]
    · simp [hnode, Ne.symm hnode]
  refine ⟨fun node rule => ?_, fun node rule => ?_, fun node rule => ?_, fun hzero node => ?_⟩
  · show sampled.heads.get? (node, rule) = _
    rw [hheads, hheard]
    by_cases hnode : node = nodeId
    · by_cases hrule : counter.ruleId = rule
      · subst hnode hrule
        rw [if_pos rfl, if_pos rfl, if_pos rfl, headAfter, hcharge]
      · have hne : (node, rule) ≠ key := fun heq => hrule (Prod.mk.inj heq).2.symm
        rw [if_neg hne, if_pos hnode, if_neg hrule, headAfter_none, hnode]
    · have hne : (node, rule) ≠ key := fun heq => hnode (Prod.mk.inj heq).1
      rw [if_neg hne, if_neg hnode]
  · rw [← hamount]
    exact hs.sampled node rule
  · rw [← hamount]
    exact hs.rolled node rule
  · have hbytes : charge.bytes = 0 := by
      have hself := hzero counter.ruleId
      rwa [hcharged, if_pos rfl] at hself
    rw [hwindows hbytes, windowBytes, hs.windows]
    rfl

theorem recordCounter_effect {counter : ForwardingUsageCounter}
    (h : recordCounter platform db nodeId request progress counter = .ok progress') :
    Effect nodeId request (heard db nodeId [counter]) progress.usage progress'.usage := by
  unfold recordCounter at h
  cases howner : counterOwner db nodeId counter.ruleId with
  | none =>
    rw [howner] at h
    cases h
    refine Effect.refl nodeId request progress.usage fun rule => .inl ?_
    rw [heard_cons]
    split
    · simp [owned, howner]
    · rfl
  | some owner =>
    simp only [howner, Fallible.bind_eq_ok] at h
    obtain ⟨_, -, _, -, h⟩ := h
    cases hcharge : chargeOf (progress.usage.heads.get? (nodeId, counter.ruleId)) request
        counter.bytes with
    | none =>
      rw [hcharge] at h
      cases h
      refine Effect.refl nodeId request progress.usage fun rule => ?_
      rw [heard_cons]
      split
      · rename_i hrule
        subst hrule
        exact .inr ⟨counter.bytes, by simp [owned, howner], hcharge⟩
      · exact .inl rfl
    | some charge =>
      rw [hcharge] at h
      exact bookCharge_effect howner hcharge h

/-! ### One report -/

/-- **A report's counters come to one reading of each rule.**  By induction over the counters:
none comes back to the rule of one before it. -/
theorem recordAll_effect {counters : List ForwardingUsageCounter}
    (hnodup : (counters.map (·.ruleId)).Nodup)
    (h : counters.foldlM (recordCounter platform db nodeId request) progress = .ok progress') :
    Effect nodeId request (heard db nodeId counters) progress.usage progress'.usage := by
  induction counters generalizing progress with
  | nil =>
    cases h
    exact Effect.refl nodeId request progress'.usage fun _ => .inl rfl
  | cons counter rest ih =>
    rw [List.map_cons, List.nodup_cons] at hnodup
    rw [List.foldlM_cons, Fallible.bind_eq_ok] at h
    obtain ⟨middle, hfirst, hrest⟩ := h
    have hone := recordCounter_effect hfirst
    have hmore := ih hnodup.2 hrest
    have hlast : heard db nodeId rest counter.ruleId = none := heard_of_not_mem hnodup.1
    have hheard : ∀ rule, heard db nodeId (counter :: rest) rule
        = if counter.ruleId = rule then heard db nodeId [counter] rule
          else heard db nodeId rest rule := by
      intro rule
      rw [heard_cons, heard_cons]
      split <;> rfl
    have hother : ∀ rule, counter.ruleId ≠ rule → heard db nodeId [counter] rule = none := by
      intro rule hrule
      rw [heard_cons, if_neg hrule]
      rfl
    have hsame : ∀ rule, counter.ruleId ≠ rule →
        middle.usage.heads.get? (nodeId, rule) = progress.usage.heads.get? (nodeId, rule) := by
      intro rule hrule
      rw [hone.head, if_pos rfl, hother rule hrule, headAfter_none]
    have hcharged : ∀ rule, charged (progress.usage.heads.get? (nodeId, rule)) request
          (heard db nodeId [counter] rule)
        + charged (middle.usage.heads.get? (nodeId, rule)) request (heard db nodeId rest rule)
        = charged (progress.usage.heads.get? (nodeId, rule)) request
          (heard db nodeId (counter :: rest) rule) := by
      intro rule
      rw [hheard]
      split
      · rename_i hrule
        rw [← hrule, hlast, charged_none, add_zero]
      · rename_i hrule
        rw [hother rule hrule, charged_none, zero_add, hsame rule hrule]
    refine ⟨fun node rule => ?_, fun node rule => ?_, fun node rule => ?_, fun hzero node => ?_⟩
    · rw [hmore.head, hone.head, hone.head]
      by_cases hnode : node = nodeId
      · rw [if_pos hnode, if_pos hnode, if_pos rfl, hheard]
        split
        · rename_i hrule
          rw [← hrule, hlast, headAfter_none]
        · rename_i hrule
          rw [hother rule hrule, headAfter_none]
      · rw [if_neg hnode, if_neg hnode, if_neg hnode]
    · rw [hmore.sampled, hone.sampled, add_assoc]
      congr 1
      split
      · exact hcharged rule
      · rfl
    · rw [hmore.rolled, hone.rolled, add_assoc]
      congr 1
      split
      · exact hcharged rule
      · rfl
    · have hboth : ∀ rule, charged (progress.usage.heads.get? (nodeId, rule)) request
            (heard db nodeId [counter] rule) = 0
          ∧ charged (middle.usage.heads.get? (nodeId, rule)) request (heard db nodeId rest rule)
            = 0 := by
        intro rule
        have hsum := (hcharged rule).trans (hzero rule)
        exact add_eq_zero.mp hsum
      rw [hmore.windows (fun rule => (hboth rule).2), hone.windows fun rule => (hboth rule).1]

end Brocade.Forwarding
