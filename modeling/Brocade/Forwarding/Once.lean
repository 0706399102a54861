/-
Forwarding usage is billed once, in any run of reports.

What a rule has been charged telescopes: it is what the head holds and, for every epoch the
head has left, what it held when it left it.  `Accounted` is what is true of a head ever after
a reading was measured against it, and it is why the same reading charges nothing when it
comes again, with or without its receipt.  A reading that was passed over for its number alone
was never measured, and may be charged when it comes again.
-/
import Brocade.Forwarding.Billed

namespace Brocade.Forwarding

open Usage (StoreError Bytes I64_MAX inRange)

/-! ### Runs -/

/-- What happens to the usage tables. -/
inductive UsageEvent where
  /-- a report arrives, at a server time and over the rules of that time -/
  | report (now : ℤ) (db : Db) (nodeId : String) (request : ForwardingUsageReportRequest)
  /-- old receipts go -/
  | prune (keep : String × String × ℕ → Bool)

/-- A report that fails is rolled back. -/
def usageStep (platform : UsagePlatform) (usage : UsageDb) : UsageEvent → UsageDb
  | .report now db nodeId request =>
    match recordUsage platform now db usage nodeId request with
    | .ok (_, after) => after
    | .error _ => usage
  | .prune keep => { usage with receipts := usage.receipts.deleteWhere fun key => !keep key }

def usageRun (platform : UsagePlatform) (usage : UsageDb) (events : List UsageEvent) : UsageDb :=
  events.foldl (usageStep platform) usage

/-- The epoch a head leaves, with what it held. -/
def leftOf (head head' : Option UsageCounterHead) : List (String × Bytes) :=
  match head, head' with
  | some head, some head' =>
    if head.xrayEpoch = head'.xrayEpoch then [] else [(head.xrayEpoch, head.bytes)]
  | _, _ => []

/-- The epochs a rule's head leaves through a run, in order. -/
def leavings (platform : UsagePlatform) (nodeId : String) (ruleId : ℤ) :
    UsageDb → List UsageEvent → List (String × Bytes)
  | _, [] => []
  | usage, event :: rest =>
    let after := usageStep platform usage event
    leftOf (usage.heads.get? (nodeId, ruleId)) (after.heads.get? (nodeId, ruleId))
      ++ leavings platform nodeId ruleId after rest

variable {platform : UsagePlatform}

variable {db : Db} {nodeId : String} {now ruleId : ℤ} {usage after : UsageDb}
    {result : ForwardingUsageReportResult} {head : Option UsageCounterHead}
    {request : ForwardingUsageReportRequest} {bytes : Bytes} {gone : List String}

theorem heard_perm {a b : List ForwardingUsageCounter} (hnodup : (a.map (·.ruleId)).Nodup)
    (h : a.Perm b) (ruleId : ℤ) : heard db nodeId a ruleId = heard db nodeId b ruleId := by
  have hfind : ∀ l : List ForwardingUsageCounter, (l.map (·.ruleId)).Nodup → ∀ counter,
      (l.find? fun counter => counter.ruleId = ruleId) = some counter
        ↔ counter ∈ l ∧ counter.ruleId = ruleId := by
    intro l hl counter
    constructor
    · intro hfound
      exact ⟨List.mem_of_find?_eq_some hfound, by simpa using List.find?_some hfound⟩
    · rintro ⟨hmem, hrule⟩
      have hsome : (l.find? fun counter => counter.ruleId = ruleId).isSome = true :=
        List.find?_isSome.mpr ⟨counter, hmem, by simpa using hrule⟩
      obtain ⟨found, hfound⟩ := Option.isSome_iff_exists.mp hsome
      have hfoundRule : found.ruleId = ruleId := by simpa using List.find?_some hfound
      have heq : found = counter := List.inj_on_of_nodup_map hl (List.mem_of_find?_eq_some hfound)
        hmem (hfoundRule.trans hrule.symm)
      rw [hfound, heq]
  unfold heard
  congr 1
  refine Option.ext fun counter => ?_
  rw [hfind a hnodup, hfind b ((h.map _).nodup_iff.mp hnodup), h.mem_iff]

theorem recordUsage_cases {sent : ForwardingUsageReportRequest}
    (h : recordUsage platform now db usage nodeId sent = .ok (result, after)) :
    (result.duplicate = true ∧ after = usage) ∨ ((sent.counters.map (·.ruleId)).Nodup
        ∧ Effect nodeId sent (heard db nodeId sent.counters) usage after) := by
  simp only [recordUsage, Fallible.bind_eq_ok, require_eq_ok, exists_const, decide_eq_true_eq] at h
  obtain ⟨_, -, hnodup, -, h⟩ := h
  split at h
  · rw [Fallible.bind_eq_ok] at h
    obtain ⟨_, -, h⟩ := h
    cases h
    exact .inl ⟨rfl, rfl⟩
  · rw [recordFresh, Fallible.bind_eq_ok] at h
    obtain ⟨progress, hall, h⟩ := h
    cases h
    have heffect := recordAll_effect hnodup hall
    have hperm : (sortCounters sent.counters).Perm sent.counters := List.perm_insertionSort _ _
    have hheard : heard db nodeId (sortCounters sent.counters) = heard db nodeId sent.counters :=
      funext (heard_perm hnodup hperm)
    refine .inr ⟨(hperm.map _).nodup_iff.mp hnodup, ?_⟩
    rw [← hheard]
    exact ⟨heffect.head, heffect.sampled, heffect.rolled, heffect.windows⟩

/-! ### Telescoping -/

/-- What a head holds. -/
def held (head : Option UsageCounterHead) : Bytes := (head.map (·.bytes)).getD 0

theorem bytes_add_sub {a b : Bytes} (h : a ≤ b) : a + (b - a) = b :=
  Prod.ext (Nat.add_sub_cancel' h.1) (Nat.add_sub_cancel' h.2)

/-- **What a reading charges is what the head gains, and what it held if it leaves its epoch.** -/
theorem charged_telescopes (head : Option UsageCounterHead) (request : ForwardingUsageReportRequest)
    (reading : Option Bytes) :
    held head + charged head request reading = held (headAfter head request reading)
      + ((leftOf head (headAfter head request reading)).map (·.2)).sum := by
  have hself : ∀ head : Option UsageCounterHead, leftOf head head = [] := by
    intro head
    cases head <;> simp [leftOf]
  cases reading with
  | none =>
    rw [headAfter_none, charged_none, hself]
    rfl
  | some bytes =>
    cases hcharge : chargeOf head request bytes with
    | none =>
      have hafter : headAfter head request (some bytes) = head := by rw [headAfter, hcharge]
      have hzero : charged head request (some bytes) = 0 := by
        rw [charged, Option.bind_some, hcharge]
        rfl
      rw [hafter, hzero, hself]
      rfl
    | some charge =>
      have hafter : headAfter head request (some bytes) = chargedHead head request bytes charge := by
        rw [headAfter, hcharge]
      have hamount : charged head request (some bytes) = charge.bytes := by
        rw [charged, Option.bind_some, hcharge]
        rfl
      rw [hafter, hamount]
      cases head with
      | none =>
        cases hcharge
        simp [held, chargedHead, leftOf]
      | some head =>
        simp only [chargeOf] at hcharge
        split at hcharge
        · cases hcharge
        split at hcharge
        · cases hcharge
        split at hcharge
        · -- grown within its epoch
          rename_i hcontinuous
          cases hcharge
          simp only [Bool.and_eq_true, decide_eq_true_eq] at hcontinuous
          simp [held, chargedHead, leftOf, hcontinuous.1, bytes_add_sub hcontinuous.2]
        split at hcharge
        · -- fallen back within its epoch
          cases hcharge
          simp [held, chargedHead, leftOf]
        · -- a new epoch
          rename_i hepoch
          cases hcharge
          simp only [decide_eq_true_eq] at hepoch
          simp [held, chargedHead, leftOf, hepoch, add_comm]

theorem usageStep_reading (platform : UsagePlatform) (usage : UsageDb) (event : UsageEvent)
    (nodeId : String) (ruleId : ℤ) :
    ∃ request reading, (usageStep platform usage event).heads.get? (nodeId, ruleId)
          = headAfter (usage.heads.get? (nodeId, ruleId)) request reading
        ∧ sampledBytes (usageStep platform usage event) nodeId ruleId
          = sampledBytes usage nodeId ruleId
            + charged (usage.heads.get? (nodeId, ruleId)) request reading
        ∧ rolledBytes (usageStep platform usage event) nodeId ruleId
          = rolledBytes usage nodeId ruleId
            + charged (usage.heads.get? (nodeId, ruleId)) request reading := by
  have hnothing : ∀ after : UsageDb, after.heads = usage.heads → after.samples = usage.samples →
      after.rollups = usage.rollups → ∃ request reading,
      after.heads.get? (nodeId, ruleId) = headAfter (usage.heads.get? (nodeId, ruleId)) request reading
        ∧ sampledBytes after nodeId ruleId = sampledBytes usage nodeId ruleId
          + charged (usage.heads.get? (nodeId, ruleId)) request reading
        ∧ rolledBytes after nodeId ruleId = rolledBytes usage nodeId ruleId
          + charged (usage.heads.get? (nodeId, ruleId)) request reading := by
    intro after hheads hsamples hrollups
    refine ⟨⟨"", 0, 0, "", []⟩, none, by rw [hheads, headAfter_none], ?_, ?_⟩
    · rw [sampledBytes, sampledBytes, hsamples, charged_none, add_zero]
    · rw [rolledBytes, rolledBytes, hrollups, charged_none, add_zero]
  cases event with
  | prune keep => exact hnothing _ rfl rfl rfl
  | report now db node request =>
    unfold usageStep
    simp only
    split
    · rename_i result after hrecord
      rcases recordUsage_cases hrecord with ⟨-, rfl⟩ | ⟨-, heffect⟩
      · exact hnothing _ rfl rfl rfl
      by_cases hnode : nodeId = node
      · subst hnode
        refine ⟨request, heard db nodeId request.counters ruleId, ?_, ?_, ?_⟩
        · rw [heffect.head, if_pos rfl]
        · rw [heffect.sampled, if_pos rfl]
        · rw [heffect.rolled, if_pos rfl]
      · refine ⟨request, none, ?_, ?_, ?_⟩
        · rw [heffect.head, if_neg hnode, headAfter_none]
        · rw [heffect.sampled, if_neg hnode, charged_none]
        · rw [heffect.rolled, if_neg hnode, charged_none]
    · exact hnothing _ rfl rfl rfl

/-- Samples and rollups agree, and hold what the head holds and what was `left` behind. -/
structure BilledOnce (usage : UsageDb) (nodeId : String) (ruleId : ℤ) (left : Bytes) : Prop where
  sampled : sampledBytes usage nodeId ruleId = held (usage.heads.get? (nodeId, ruleId)) + left
  rolled : rolledBytes usage nodeId ruleId = sampledBytes usage nodeId ruleId

theorem BilledOnce.step {left : Bytes} (h : BilledOnce usage nodeId ruleId left)
    (event : UsageEvent) : BilledOnce (usageStep platform usage event) nodeId ruleId
      (left + ((leftOf (usage.heads.get? (nodeId, ruleId))
        ((usageStep platform usage event).heads.get? (nodeId, ruleId))).map (·.2)).sum) := by
  obtain ⟨request, reading, hhead, hsampled, hrolled⟩ :=
    usageStep_reading platform usage event nodeId ruleId
  constructor
  · calc sampledBytes (usageStep platform usage event) nodeId ruleId
        = held (usage.heads.get? (nodeId, ruleId)) + left
          + charged (usage.heads.get? (nodeId, ruleId)) request reading := by rw [hsampled, h.sampled]
      _ = held (usage.heads.get? (nodeId, ruleId))
          + charged (usage.heads.get? (nodeId, ruleId)) request reading + left := add_right_comm _ _ _
      _ = _ := by rw [charged_telescopes, ← hhead, add_assoc, add_comm (List.sum _)]
  · rw [hrolled, hsampled, h.rolled]

theorem BilledOnce.run {left : Bytes} (h : BilledOnce usage nodeId ruleId left)
    (events : List UsageEvent) : BilledOnce (usageRun platform usage events) nodeId ruleId
      (left + ((leavings platform nodeId ruleId usage events).map (·.2)).sum) := by
  induction events generalizing usage left with
  | nil =>
    show BilledOnce usage nodeId ruleId (left + 0)
    rw [add_zero]
    exact h
  | cons event rest ih =>
    rw [leavings, List.map_append, List.sum_append, ← add_assoc]
    exact ih (h.step event)

/-! ### Readings that come again -/

/-- The reading is passed over for its number, not for its age. -/
def passedOver (head : Option UsageCounterHead) (request : ForwardingUsageReportRequest) : Bool :=
  head.any fun head => outOfDate head request && decide (head.readAt ≤ request.readAtUnixSecs)

/-- What is true of a head ever after a reading was measured against it: the head is younger, or
as old and the reading adds nothing to it, or older and above it, or its epoch is gone. -/
def Accounted (request : ForwardingUsageReportRequest) (bytes : Bytes)
    (head : Option UsageCounterHead) (gone : List String) : Prop :=
  request.xrayEpoch ∈ gone ∨ ∃ head', head = some head' ∧ (request.readAtUnixSecs < head'.readAt
      ∨ (request.readAtUnixSecs = head'.readAt
        ∧ (head'.xrayEpoch = request.xrayEpoch → head'.bytes ≤ bytes → bytes = head'.bytes))
      ∨ (head'.readAt < request.readAtUnixSecs ∧ head'.xrayEpoch = request.xrayEpoch
        ∧ ¬ head'.bytes ≤ bytes))

theorem chargeOf_cases (head : UsageCounterHead) (request : ForwardingUsageReportRequest)
    (bytes : Bytes) : (outOfDate head request = true ∧ chargeOf (some head) request bytes = none)
      ∨ (request.readAtUnixSecs = head.readAt
        ∧ (head.xrayEpoch = request.xrayEpoch → head.bytes ≤ bytes → bytes = head.bytes)
        ∧ chargeOf (some head) request bytes = none)
      ∨ (outOfDate head request = false ∧ head.readAt ≤ request.readAtUnixSecs
        ∧ head.xrayEpoch = request.xrayEpoch ∧ head.bytes ≤ bytes
        ∧ ¬(request.readAtUnixSecs = head.readAt ∧ bytes = head.bytes)
        ∧ ∃ charge, chargeOf (some head) request bytes = some charge ∧ charge.advanceHead = true)
      ∨ (outOfDate head request = false ∧ head.readAt < request.readAtUnixSecs
        ∧ head.xrayEpoch = request.xrayEpoch ∧ ¬ head.bytes ≤ bytes
        ∧ chargeOf (some head) request bytes = some ⟨none, 0, true, false⟩)
      ∨ (outOfDate head request = false ∧ head.readAt < request.readAtUnixSecs
        ∧ head.xrayEpoch ≠ request.xrayEpoch
        ∧ ∃ charge, chargeOf (some head) request bytes = some charge ∧ charge.advanceHead = true) := by
  simp only [chargeOf]
  by_cases hold : outOfDate head request = true
  · exact .inl ⟨hold, if_pos hold⟩
  have hfresh : outOfDate head request = false := by simpa using hold
  have hage : head.readAt ≤ request.readAtUnixSecs := by
    simp only [outOfDate, Bool.or_eq_false_iff, decide_eq_false_iff_not, not_lt] at hfresh
    exact hfresh.1
  rw [if_neg hold]
  by_cases hepoch : head.xrayEpoch = request.xrayEpoch
  · by_cases hgrown : head.bytes ≤ bytes
    · by_cases hsame : request.readAtUnixSecs = head.readAt ∧ bytes = head.bytes
      · refine .inr (.inl ⟨hsame.1, fun _ _ => hsame.2, ?_⟩)
        simp [hsame.1, hsame.2]
      · refine .inr (.inr (.inl ⟨hfresh, hage, hepoch, hgrown, hsame, ?_⟩))
        have hnot : ¬(decide (request.readAtUnixSecs = head.readAt)
            && (!(decide (head.xrayEpoch = request.xrayEpoch) && decide (head.bytes ≤ bytes))
              || decide (bytes = head.bytes))) = true := by
          simp only [hepoch, hgrown, decide_true, Bool.and_self, Bool.not_true, Bool.false_or,
            Bool.and_eq_true, decide_eq_true_eq]
          exact hsame
        rw [if_neg hnot, if_pos (by simp [hepoch, hgrown])]
        exact ⟨_, rfl, rfl⟩
    · by_cases hsecond : request.readAtUnixSecs = head.readAt
      · refine .inr (.inl ⟨hsecond, fun _ hle => absurd hle hgrown, ?_⟩)
        simp [hsecond, hgrown]
      · have hlt : head.readAt < request.readAtUnixSecs := by omega
        refine .inr (.inr (.inr (.inl ⟨hfresh, hlt, hepoch, hgrown, ?_⟩)))
        simp [hsecond, hepoch, hgrown]
  · by_cases hsecond : request.readAtUnixSecs = head.readAt
    · refine .inr (.inl ⟨hsecond, fun h => absurd h hepoch, ?_⟩)
      simp [hsecond, hepoch]
    · have hlt : head.readAt < request.readAtUnixSecs := by omega
      refine .inr (.inr (.inr (.inr ⟨hfresh, hlt, hepoch, ?_⟩)))
      simp [hsecond, hepoch]

theorem headAfter_of_none (h : chargeOf head request bytes = none) :
    headAfter head request (some bytes) = head := by rw [headAfter, h]

theorem headAfter_of_advance {charge : Charge} (h : chargeOf head request bytes = some charge)
    (hadvance : charge.advanceHead = true) :
    headAfter head request (some bytes) = some ⟨request.agentInstanceId, request.xrayEpoch, bytes,
      request.readAtUnixSecs, some request.sequence, false⟩ := by
  rw [headAfter, h]
  show chargedHead head request bytes charge = _
  rw [chargedHead, if_pos hadvance]

theorem headAfter_of_back {head : UsageCounterHead}
    (h : chargeOf (some head) request bytes = some ⟨none, 0, true, false⟩) :
    headAfter (some head) request (some bytes) = some { head with hasGap := true } := by
  rw [headAfter, h]
  rfl

/-- **What is accounted for stays so, whatever is read next.** -/
theorem Accounted.next (h : Accounted request bytes head gone) (next : ForwardingUsageReportRequest)
    (reading : Option Bytes) : Accounted request bytes (headAfter head next reading)
      (gone ++ (leftOf head (headAfter head next reading)).map (·.1)) := by
  rcases h with hgone | ⟨head, rfl, h⟩
  · exact .inl (List.mem_append_left _ hgone)
  have hkept : Accounted request bytes (some head) (gone ++ (leftOf (some head) (some head)).map (·.1)) :=
    .inr ⟨head, rfl, h⟩
  cases reading with
  | none => exact hkept
  | some read =>
    rcases chargeOf_cases head next read with
      ⟨-, hnone⟩ | ⟨-, -, hnone⟩ | ⟨-, hage, hepoch, hgrown, -, charge, hcharge, hadvance⟩
      | ⟨-, -, -, -, hcharge⟩ | ⟨-, hlt, hepoch, charge, hcharge, hadvance⟩
    · rw [headAfter_of_none hnone]
      exact hkept
    · rw [headAfter_of_none hnone]
      exact hkept
    · -- the head grows within its epoch, and no reading below it comes above it
      rw [headAfter_of_advance hcharge hadvance]
      refine .inr ⟨_, rfl, ?_⟩
      rcases h with hyounger | ⟨hsecond, hadds⟩ | ⟨holder, hsame, habove⟩
      · exact .inl (lt_of_lt_of_le hyounger hage)
      · rcases lt_or_eq_of_le hage with hlater | hequal
        · exact .inl (hsecond ▸ hlater)
        · refine .inr (.inl ⟨hsecond.trans hequal, fun hnext hle => ?_⟩)
          have hbytes := hadds (hepoch.trans hnext) (hgrown.trans hle)
          exact le_antisymm (hbytes ▸ hgrown) hle
      · rcases lt_trichotomy request.readAtUnixSecs next.readAtUnixSecs with hlater | hequal | hbefore
        · exact .inl hlater
        · exact .inr (.inl ⟨hequal, fun _ hle => absurd (hgrown.trans hle) habove⟩)
        · exact .inr (.inr ⟨hbefore, hepoch.symm.trans hsame, fun hle => habove (hgrown.trans hle)⟩)
    · rw [headAfter_of_back hcharge]
      exact .inr ⟨_, rfl, h⟩
    · -- the head leaves its epoch
      rw [headAfter_of_advance hcharge hadvance]
      rcases h with hyounger | ⟨hsecond, -⟩ | ⟨-, hsame, -⟩
      · exact .inr ⟨_, rfl, .inl (hyounger.trans hlt)⟩
      · exact .inr ⟨_, rfl, .inl (hsecond ▸ hlt)⟩
      · refine .inl (List.mem_append_right _ ?_)
        rw [leftOf, if_neg hepoch, ← hsame]
        exact List.mem_singleton_self _

/-- **What is accounted for charges nothing when it is read again**, unless that took the head
back to an epoch that is gone. -/
theorem Accounted.again (h : Accounted request bytes head gone)
    (hbefore : ∀ head', head = some head' → head'.xrayEpoch ∉ gone)
    (hafter : ∀ head', headAfter head request (some bytes) = some head' → head'.xrayEpoch ∉ gone) :
    charged head request (some bytes) = 0
      ∧ held (headAfter head request (some bytes)) = held head := by
  have hpassed : chargeOf head request bytes = none → charged head request (some bytes) = 0
      ∧ held (headAfter head request (some bytes)) = held head := by
    intro hnone
    rw [headAfter_of_none hnone, charged, Option.bind_some, hnone]
    exact ⟨rfl, rfl⟩
  cases head with
  | none =>
    rcases h with hgone | ⟨head, hhead, -⟩
    · exact absurd hgone (hafter _ rfl)
    · cases hhead
  | some head =>
    rcases chargeOf_cases head request bytes with
      ⟨-, hnone⟩ | ⟨-, -, hnone⟩ | ⟨-, hage, hepoch, hgrown, hmoves, charge, hcharge, hadvance⟩
      | ⟨-, -, -, -, hcharge⟩ | ⟨-, hlt, hepoch, charge, hcharge, hadvance⟩
    · exact hpassed hnone
    · exact hpassed hnone
    · exfalso
      rcases h with hgone | ⟨head', hhead, hyounger | ⟨hsecond, hadds⟩ | ⟨-, -, habove⟩⟩
      · exact hbefore head rfl (hepoch ▸ hgone)
      all_goals cases hhead
      · omega
      · exact hmoves ⟨hsecond, hadds hepoch hgrown⟩
      · exact habove hgrown
    · rw [headAfter_of_back hcharge, charged, Option.bind_some, hcharge]
      exact ⟨rfl, rfl⟩
    · exfalso
      rcases h with hgone | ⟨head', hhead, hyounger | ⟨hsecond, -⟩ | ⟨-, hsame, -⟩⟩
      · exact hafter _ (headAfter_of_advance hcharge hadvance) hgone
      all_goals cases hhead
      · omega
      · omega
      · exact hepoch hsame

theorem Accounted.run (h : Accounted request bytes (usage.heads.get? (nodeId, ruleId)) gone)
    (events : List UsageEvent) :
    Accounted request bytes ((usageRun platform usage events).heads.get? (nodeId, ruleId))
      (gone ++ (leavings platform nodeId ruleId usage events).map (·.1)) := by
  induction events generalizing usage gone with
  | nil =>
    show Accounted request bytes (usage.heads.get? (nodeId, ruleId)) (gone ++ [])
    rw [List.append_nil]
    exact h
  | cons event rest ih =>
    obtain ⟨next, reading, hhead, -, -⟩ := usageStep_reading platform usage event nodeId ruleId
    have hnext := h.next next reading
    rw [← hhead] at hnext
    rw [leavings, List.map_append, ← List.append_assoc]
    exact ih hnext

/-- Every counter of the report has an owner and is measured against its head. -/
def Measured (db : Db) (usage : UsageDb) (nodeId : String) (request : ForwardingUsageReportRequest) :
    Prop :=
  ∀ counter ∈ request.counters, (counterOwner db nodeId counter.ruleId).isSome = true
    ∧ passedOver (usage.heads.get? (nodeId, counter.ruleId)) request = false

/-- The ledgers and the heads hold the bytes they held. -/
structure SameBytes (usage usage' : UsageDb) : Prop where
  sampled : ∀ nodeId ruleId, sampledBytes usage' nodeId ruleId = sampledBytes usage nodeId ruleId
  rolled : ∀ nodeId ruleId, rolledBytes usage' nodeId ruleId = rolledBytes usage nodeId ruleId
  windows : ∀ nodeId, windowBytes usage' nodeId = windowBytes usage nodeId
  heads : ∀ nodeId ruleId, headBytes usage' nodeId ruleId = headBytes usage nodeId ruleId

theorem SameBytes.refl (usage : UsageDb) : SameBytes usage usage :=
  ⟨fun _ _ => rfl, fun _ _ => rfl, fun _ => rfl, fun _ _ => rfl⟩

/-- A platform with days of its own. -/
def hongKong : UsagePlatform where
  payloadSha256 request := s!"{request.agentInstanceId}-{request.sequence}"
  dayStart t := (t + 28800) / 86400 * 86400 - 28800

end Brocade.Forwarding
