/-
Who a machine's traffic is attributed to.

The physical ledger knows no users.  What a machine carried for them is estimated from their own
counters, twice over since a forwarded byte crosses the interface on both legs, and held to what
the ledger saw; each user then gets a share of it, and of the forecast, rounded on its own.  What
nobody got is shown as unattributed.
-/
import Brocade.Lib.OrdMap
import Brocade.Lib.Shares
import Brocade.Traffic.Limit
import Mathlib.Algebra.Order.BigOperators.Group.List
import Mathlib.Data.Prod.Lex

namespace Brocade.Traffic

open Shares

def U128_MAX : ℕ := 2 ^ 128 - 1

def saturatingAdd (a b : ℕ) : ℕ := min (a + b) U64_MAX

/-- `value * numerator / denominator` to the nearest, halves up. -/
def mulDiv (value numerator denominator : ℕ) : ℕ :=
  if denominator = 0 then 0
  else
    min (min (min (value * numerator) U128_MAX + denominator / 2) U128_MAX / denominator) U64_MAX

/-- What users may have moved. -/
def attributablePhysicalBytes (physical logical : ℕ) (hasUserDemand : Bool) : ℕ :=
  if !hasUserDemand then 0 else min physical (min (logical * 2) U64_MAX)

/-! ### Demand -/

/-- What a user moved, and where. -/
structure UserDemand where
  bytes : ℕ
  apps : OrdMap String Unit

/-- The usage of one user in an app. -/
structure EligibleUserUsage where
  periodStart : ℤ
  (tenantId userId appLabel : String)
  bytes : ℕ

abbrev UserKey := String ×ₗ String

def UserDemand.empty : UserDemand := ⟨0, .empty⟩

def UserDemand.add (demand : UserDemand) (usage : EligibleUserUsage) : UserDemand where
  bytes := saturatingAdd demand.bytes usage.bytes
  apps := demand.apps.insert usage.appLabel ()

/-- What the users moved in a period. -/
def userDemand (usages : List EligibleUserUsage) (start stop : ℤ) : OrdMap UserKey UserDemand :=
  (usages.filter fun usage => !decide (usage.periodStart < start ∨ stop ≤ usage.periodStart)).foldl
    (fun demand usage =>
      demand.insert (toLex (usage.tenantId, usage.userId))
        (((demand.get? (toLex (usage.tenantId, usage.userId))).getD .empty).add usage))
    .empty

/-- What the machine's counters saw in a period. -/
def logicalBytes (rows : List (ℤ × ℕ)) (start stop : ℤ) : ℕ :=
  (rows.filter fun row => decide (start ≤ row.1 ∧ row.1 < stop)).foldl
    (fun sum row => saturatingAdd sum row.2) 0

/-! ### Shares -/

/-- A user's share of a machine. -/
structure MachineTrafficUser where
  (tenantId userId : String)
  (attributedBytes projectedBytes shareBasisPoints : ℕ)
  apps : List String

/-- How a machine's bytes are attributed. -/
structure Attribution where
  users : List MachineTrafficUser
  (unattributedBytes projectedUnattributedBytes : ℕ)

def totalDemand (demand : OrdMap UserKey UserDemand) : ℕ :=
  (demand.entries.map fun entry => entry.2.bytes).foldl saturatingAdd 0

def basisPoints (attributed used : ℕ) : ℕ :=
  if mulDiv attributed 10000 used ≤ 65535 then mulDiv attributed 10000 used else 10000

/-- A user's part of what can be attributed, and of the forecast. -/
def trafficUser (used p50 attributable total : ℕ) (entry : UserKey × UserDemand) :
    MachineTrafficUser where
  tenantId := (ofLex entry.1).1
  userId := (ofLex entry.1).2
  attributedBytes := mulDiv attributable entry.2.bytes total
  projectedBytes := mulDiv p50 (mulDiv attributable entry.2.bytes total) used
  shareBasisPoints := basisPoints (mulDiv attributable entry.2.bytes total) used
  apps := entry.2.apps.keys

/-- The largest first, then by name. -/
def MachineTrafficUser.before (left right : MachineTrafficUser) : Bool :=
  ((compare right.attributedBytes left.attributedBytes).then
    ((compare left.tenantId right.tenantId).then (compare left.userId right.userId))).isLE

/-- The users with their shares. -/
def trafficUsers (used p50 logical : ℕ) (demand : OrdMap UserKey UserDemand) :
    List MachineTrafficUser :=
  (demand.entries.filter fun entry => 0 < entry.2.bytes).map
    (trafficUser used p50
      (attributablePhysicalBytes used logical (0 < totalDemand demand)) (totalDemand demand))

/-- What a machine used, or is forecast to, by user. -/
def attribution (used p50 logical : ℕ) (demand : OrdMap UserKey UserDemand) : Attribution where
  users := (trafficUsers used p50 logical demand).mergeSort MachineTrafficUser.before
  unattributedBytes :=
    used - min (((trafficUsers used p50 logical demand).map (·.attributedBytes)).foldl
      saturatingAdd 0) used
  projectedUnattributedBytes :=
    p50 - (((trafficUsers used p50 logical demand).mergeSort MachineTrafficUser.before).map
      (·.projectedBytes)).foldl saturatingAdd 0

/-! ### Arithmetic -/

theorem foldl_saturatingAdd (xs : List ℕ) (sum : ℕ) (hsum : sum ≤ U64_MAX) :
    xs.foldl saturatingAdd sum = min (sum + xs.sum) U64_MAX := by
  induction xs generalizing sum with
  | nil => exact (min_eq_left hsum).symm
  | cons x xs ih =>
    rw [List.foldl_cons, ih (saturatingAdd sum x) (min_le_right _ _), List.sum_cons]
    unfold saturatingAdd
    omega

theorem saturatingSum (xs : List ℕ) : xs.foldl saturatingAdd 0 = min xs.sum U64_MAX := by
  rw [foldl_saturatingAdd xs 0 (Nat.zero_le _), Nat.zero_add]

theorem mulDiv_eq {value numerator denominator : ℕ} (hvalue : value ≤ U64_MAX)
    (hdenominator : denominator ≤ U64_MAX) (hpart : numerator ≤ denominator) :
    mulDiv value numerator denominator = share value denominator numerator := by
  unfold mulDiv
  by_cases hzero : denominator = 0
  · rw [if_pos hzero, hzero, share_zero_right]
  · rw [if_neg hzero]
    have hproduct : value * numerator ≤ U64_MAX * U64_MAX :=
      Nat.mul_le_mul hvalue (hpart.trans hdenominator)
    have hhalf : denominator / 2 ≤ U64_MAX := (Nat.div_le_self _ _).trans hdenominator
    have hwide : U64_MAX * U64_MAX + U64_MAX ≤ U128_MAX := by decide
    have hsum : value * numerator + denominator / 2 ≤ U128_MAX :=
      (Nat.add_le_add hproduct hhalf).trans hwide
    rw [min_eq_left ((Nat.le_add_right _ _).trans hsum), min_eq_left hsum]
    exact min_eq_left ((share_le hpart).trans hvalue)

theorem le_sum_of_mem {xs : List ℕ} {x : ℕ} (h : x ∈ xs) : x ≤ xs.sum :=
  List.single_le_sum (fun _ _ => Nat.zero_le _) x h

/-! ### The users' parts -/

section Parts

variable {used p50 logical : ℕ} {demand : OrdMap UserKey UserDemand}

/-- What the users asked for, in the order of their names. -/
def demandBytes (demand : OrdMap UserKey UserDemand) : List ℕ :=
  (demand.entries.filter fun entry => 0 < entry.2.bytes).map fun entry => entry.2.bytes

/-- What there is to share among them. -/
def attributable (used logical : ℕ) (demand : OrdMap UserKey UserDemand) : ℕ :=
  attributablePhysicalBytes used logical (0 < totalDemand demand)

theorem attributable_le_used : attributable used logical demand ≤ used := by
  unfold attributable attributablePhysicalBytes
  split
  · exact Nat.zero_le _
  · exact min_le_left _ _

/-- What there is to share is bounded by the ledger and by both legs of the payload; only without
any demand it may be less. -/
theorem attributable_eq (logical : ℕ) (hused : used ≤ U64_MAX) (hdemand : demandBytes demand ≠ []) :
    attributable used logical demand = min used (2 * logical) := by
  have hpositive : 0 < totalDemand demand := by
    obtain ⟨bytes, rest, hbytes⟩ := List.exists_cons_of_ne_nil hdemand
    have hmem : bytes ∈ demandBytes demand := by
      rw [hbytes]
      exact List.mem_cons_self
    unfold demandBytes at hmem
    obtain ⟨entry, hentry, rfl⟩ := List.mem_map.mp hmem
    obtain ⟨hin, hpos⟩ := List.mem_filter.mp hentry
    have hle : entry.2.bytes ≤ (demand.entries.map fun entry => entry.2.bytes).sum :=
      le_sum_of_mem (List.mem_map_of_mem hin)
    have hpos' : 0 < entry.2.bytes := of_decide_eq_true hpos
    unfold totalDemand
    rw [saturatingSum]
    exact lt_min (lt_of_lt_of_le hpos' hle) (by decide)
  unfold attributable attributablePhysicalBytes
  rw [decide_eq_true hpositive, if_neg (by decide)]
  omega

theorem sum_demandBytes (entries : List (UserKey × UserDemand)) :
    ((entries.filter fun entry => 0 < entry.2.bytes).map fun entry => entry.2.bytes).sum
      = (entries.map fun entry => entry.2.bytes).sum := by
  induction entries with
  | nil => rfl
  | cons entry rest ih =>
    by_cases hzero : entry.2.bytes = 0
    · simp [hzero, ih]
    · have hpos : 0 < entry.2.bytes := Nat.pos_of_ne_zero hzero
      simp [hpos, ih]

theorem totalDemand_eq : totalDemand demand = min (demandBytes demand).sum U64_MAX := by
  unfold totalDemand demandBytes
  rw [saturatingSum, sum_demandBytes]

theorem totalDemand_le : totalDemand demand ≤ U64_MAX := by
  unfold totalDemand
  rw [saturatingSum]
  exact min_le_right _ _

theorem le_totalDemand (hdemand : ∀ entry ∈ demand.entries, entry.2.bytes ≤ U64_MAX) {bytes : ℕ}
    (h : bytes ∈ demandBytes demand) : bytes ≤ totalDemand demand := by
  unfold demandBytes at h
  obtain ⟨entry, hentry, rfl⟩ := List.mem_map.mp h
  have hmem := List.mem_of_mem_filter hentry
  unfold totalDemand
  rw [saturatingSum]
  exact le_min (le_sum_of_mem (List.mem_map_of_mem hmem)) (hdemand entry hmem)

theorem attributed_eq (p50 logical : ℕ) (hused : used ≤ U64_MAX)
    (hdemand : ∀ entry ∈ demand.entries, entry.2.bytes ≤ U64_MAX) :
    (trafficUsers used p50 logical demand).map (·.attributedBytes) = (demandBytes demand).map
          (share (min used (2 * logical)) (min (demandBytes demand).sum U64_MAX)) := by
  rw [← totalDemand_eq, trafficUsers, demandBytes, List.map_map, List.map_map]
  refine List.map_congr_left fun entry hentry => ?_
  have hmem : entry.2.bytes ∈ demandBytes demand := List.mem_map_of_mem hentry
  rw [← attributable_eq logical hused (List.ne_nil_of_mem hmem)]
  exact mulDiv_eq (attributable_le_used.trans hused) totalDemand_le (le_totalDemand hdemand hmem)

theorem projected_eq (logical : ℕ) (hused : used ≤ U64_MAX) (hp50 : p50 ≤ U64_MAX)
    (hdemand : ∀ entry ∈ demand.entries, entry.2.bytes ≤ U64_MAX) :
    (trafficUsers used p50 logical demand).map (·.projectedBytes) = ((demandBytes demand).map
          (share (min used (2 * logical)) (min (demandBytes demand).sum U64_MAX))).map
            (share p50 used) := by
  rw [← attributed_eq p50 logical hused hdemand, List.map_map]
  unfold trafficUsers
  rw [List.map_map, List.map_map]
  refine List.map_congr_left fun entry hentry => ?_
  refine mulDiv_eq hp50 hused ?_
  have hpart : mulDiv (attributable used logical demand) entry.2.bytes (totalDemand demand)
      ≤ used := by
    have hbytes : entry.2.bytes ≤ totalDemand demand :=
      le_totalDemand hdemand (List.mem_map_of_mem hentry)
    rw [mulDiv_eq (attributable_le_used.trans hused) totalDemand_le hbytes]
    exact (share_le hbytes).trans attributable_le_used
  exact hpart

theorem sum_mergeSort (f : MachineTrafficUser → ℕ) (users : List MachineTrafficUser) :
    ((users.mergeSort MachineTrafficUser.before).map f).sum = (users.map f).sum :=
  ((List.mergeSort_perm users _).map f).sum_eq

theorem add_rest_eq_iff {total : ℕ} (htotal : total ≤ U64_MAX) (parts : List ℕ) :
    parts.sum + (total - parts.foldl saturatingAdd 0) = total ↔ parts.sum ≤ total := by
  rw [saturatingSum]
  omega

end Parts

theorem userDemand_le (usages : List EligibleUserUsage) (start stop : ℤ) :
    ∀ entry ∈ (userDemand usages start stop).entries, entry.2.bytes ≤ U64_MAX := by
  have hinsert : ∀ (rest : List EligibleUserUsage) (demand : OrdMap UserKey UserDemand),
      (∀ entry ∈ demand.entries, entry.2.bytes ≤ U64_MAX) →
      ∀ entry ∈ (rest.foldl (fun demand usage =>
        demand.insert (toLex (usage.tenantId, usage.userId))
          (((demand.get? (toLex (usage.tenantId, usage.userId))).getD .empty).add usage))
        demand).entries, entry.2.bytes ≤ U64_MAX := by
    intro rest
    induction rest with
    | nil => exact fun _ h => h
    | cons usage rest ih =>
      intro demand h
      rw [List.foldl_cons]
      refine ih _ fun entry hentry => ?_
      rcases Assoc.mem_insert hentry with rfl | hold
      · exact min_le_right _ _
      · exact h entry hold
  exact hinsert _ _ fun _ h => absurd h List.not_mem_nil

/-- Two users of one byte each. -/
def evenDemand : OrdMap UserKey UserDemand :=
  userDemand [⟨0, "t", "a", "app", 1⟩, ⟨0, "t", "b", "app", 1⟩] 0 1

/-- **The users' parts add up with the rest exactly if the rounding is covered**, that of their
shares and that of their forecasts. -/
theorem attribution_exact_iff (used p50 logical : ℕ) (demand : OrdMap UserKey UserDemand)
    (hused : used ≤ U64_MAX) (hp50 : p50 ≤ U64_MAX)
    (hdemand : ∀ entry ∈ demand.entries, entry.2.bytes ≤ U64_MAX) :
    ((((attribution used p50 logical demand).users.map (·.attributedBytes)).sum
            + (attribution used p50 logical demand).unattributedBytes = used
        ∧ ((attribution used p50 logical demand).users.map (·.attributedBytes)).sum
            ≤ min used (2 * logical))
      ∧ ((attribution used p50 logical demand).users.map (·.projectedBytes)).sum
            + (attribution used p50 logical demand).projectedUnattributedBytes = p50)
      ↔ Covered (min used (2 * logical)) (min (demandBytes demand).sum U64_MAX) (demandBytes demand)
        ∧ Covered p50 used ((demandBytes demand).map
            (share (min used (2 * logical)) (min (demandBytes demand).sum U64_MAX))) := by
  have hattributed := attributed_eq p50 logical hused hdemand
  have hprojected := projected_eq logical hused hp50 hdemand
  rw [← sum_share_le_iff, ← sum_share_le_iff, ← hprojected, ← hattributed]
  have hsplit : ((attribution used p50 logical demand).users.map (·.attributedBytes)).sum
        + (attribution used p50 logical demand).unattributedBytes = used
      ↔ ((trafficUsers used p50 logical demand).map (·.attributedBytes)).sum ≤ used := by
    show (((trafficUsers used p50 logical demand).mergeSort _).map _).sum + (used - _) = used ↔ _
    rw [sum_mergeSort, Nat.min_comm, ← Nat.sub_eq_sub_min]
    exact add_rest_eq_iff hused _
  have hforecast : ((attribution used p50 logical demand).users.map (·.projectedBytes)).sum
        + (attribution used p50 logical demand).projectedUnattributedBytes = p50
      ↔ ((trafficUsers used p50 logical demand).map (·.projectedBytes)).sum ≤ p50 := by
    rw [← sum_mergeSort (·.projectedBytes) (trafficUsers used p50 logical demand)]
    exact add_rest_eq_iff hp50 _
  have hsame : ((attribution used p50 logical demand).users.map (·.attributedBytes)).sum
      = ((trafficUsers used p50 logical demand).map (·.attributedBytes)).sum := sum_mergeSort _ _
  rw [hsplit, hforecast, hsame]
  exact and_congr_left fun _ => ⟨And.right, fun h => ⟨h.trans (min_le_left _ _), h⟩⟩

/-- Two users with as much demand: a ledger of two bytes is shared out. -/
theorem attribution_exact_of_even :
    ((((attribution 2 2 1 evenDemand).users.map (·.attributedBytes)).sum
            + (attribution 2 2 1 evenDemand).unattributedBytes = 2
        ∧ ((attribution 2 2 1 evenDemand).users.map (·.attributedBytes)).sum ≤ min 2 (2 * 1))
      ∧ ((attribution 2 2 1 evenDemand).users.map (·.projectedBytes)).sum
            + (attribution 2 2 1 evenDemand).projectedUnattributedBytes = 2)
      ↔ Covered (min 2 (2 * 1)) (min (demandBytes evenDemand).sum U64_MAX) (demandBytes evenDemand)
        ∧ Covered 2 2 ((demandBytes evenDemand).map
            (share (min 2 (2 * 1)) (min (demandBytes evenDemand).sum U64_MAX))) :=
  attribution_exact_iff 2 2 1 evenDemand (by decide) (by decide) (userDemand_le _ _ _)

/-- One byte of the ledger, and two users who get it each. -/
theorem byte_attributed_twice :
    ((attribution 1 1 1 evenDemand).users.map (·.attributedBytes)).sum = 2
      ∧ (attribution 1 1 1 evenDemand).unattributedBytes = 0
      ∧ ((attribution 1 1 1 evenDemand).users.map (·.projectedBytes)).sum = 2
      ∧ (attribution 1 1 1 evenDemand).projectedUnattributedBytes = 0 := by
  refine ⟨(sum_mergeSort _ _).trans (by decide), by decide, (sum_mergeSort _ _).trans (by decide),
    ?_⟩
  show 1 - (((trafficUsers 1 1 1 evenDemand).mergeSort _).map _).foldl saturatingAdd 0 = 0
  rw [saturatingSum, sum_mergeSort]
  decide

end Brocade.Traffic
