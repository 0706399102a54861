/-
Billing periods, as both sides reckon them.

The agent reckons the period of a second with its own calendar; the control plane lets the
database do it, in dates.  A cycle's resets are one ascending sequence, and a second lies
between two of them; that decides the period, so both sides name the same one
(`view_period`), and every second of a period names it again (`period_unique`).
-/
import Brocade.Lib.Calendar

namespace Brocade.Traffic

open Calendar

/-- How long a period is. -/
inductive NodeTrafficCycleKind where
  | monthly
  | yearly
deriving DecidableEq

/-- When a machine's billing period begins anew. -/
structure TrafficCycle where
  kind : NodeTrafficCycleKind
  resetMonth : Option ℤ
  resetDay : ℤ
  month_monthly : kind = .monthly → resetMonth = none
  month_yearly : kind = .yearly → ∃ month, resetMonth = some month ∧ 1 ≤ month ∧ month ≤ 12
  day_pos : 1 ≤ resetDay
  day_le : resetDay ≤ 31
deriving DecidableEq

/-- The first of each month. -/
def TrafficCycle.default : TrafficCycle where
  kind := .monthly
  resetMonth := none
  resetDay := 1
  month_monthly _ := rfl
  month_yearly h := absurd h nofun
  day_pos := by decide
  day_le := by decide

/-! ### The agent's reckoning -/

/-- The reset before. -/
def previousMonth (year month : ℤ) (cycle : NodeTrafficCycleKind) : ℤ × ℤ :=
  match cycle with
  | .yearly => (year - 1, month)
  | .monthly => if month = 1 then (year - 1, 12) else (year, month - 1)

/-- The reset of a month, on its last day where it is too short. -/
def resetAt (year month resetDay : ℤ) : ℤ :=
  daysFromCivil year month (min resetDay (daysInMonth year month)) * 86400

/-- The month the current period began in. -/
def TrafficCycle.startMonth (cycle : TrafficCycle) (now : ℤ) : ℤ × ℤ :=
  let today := civilFromDays (now / 86400)
  let anchorMonth := cycle.resetMonth.getD today.2.1
  if resetAt today.1 anchorMonth cycle.resetDay ≤ now then (today.1, anchorMonth)
  else previousMonth today.1 anchorMonth cycle.kind

/-- The reset behind. -/
def nextMonth (year month : ℤ) (cycle : NodeTrafficCycleKind) : ℤ × ℤ :=
  match cycle with
  | .yearly => (year + 1, month)
  | .monthly => if month = 12 then (year + 1, 1) else (year, month + 1)

/-- The period a moment lies in: its first second, and the first one behind it. -/
def TrafficCycle.period (cycle : TrafficCycle) (now : ℤ) : ℤ × ℤ :=
  let start := cycle.startMonth now
  let stop := nextMonth start.1 start.2 cycle.kind
  (resetAt start.1 start.2 cycle.resetDay, resetAt stop.1 stop.2 cycle.resetDay)

/-! ### The database's reckoning

Its dates are days since the epoch. -/

/-- A month's reset as the view computes it, from any day of the month. -/
def clampedReset (base resetDay : ℤ) : ℤ :=
  let date := civilFromDays base
  daysFromCivil date.1 date.2.1 (min resetDay (lastDayOfMonth base))

/-- The first of the month the view's period is based on. -/
def TrafficCycle.periodBase (cycle : TrafficCycle) (today : ℤ) : ℤ :=
  let year := (civilFromDays today).1
  match cycle.kind with
  | .monthly =>
    if clampedReset today cycle.resetDay ≤ today then truncMonth today
    else addMonths (truncMonth today) (-1)
  | .yearly =>
    -- a yearly cycle has a month
    let month := cycle.resetMonth.getD 1
    if clampedReset (daysFromCivil year month 1) cycle.resetDay ≤ today then
      daysFromCivil year month 1
    else daysFromCivil (year - 1) month 1

/-- The period behind. -/
def TrafficCycle.nextBase (cycle : TrafficCycle) (base : ℤ) : ℤ :=
  match cycle.kind with
  | .monthly => addMonths base 1
  | .yearly => addMonths base 12

/-- The dates a period begins and ends on. -/
def TrafficCycle.periodDates (cycle : TrafficCycle) (now : ℤ) : ℤ × ℤ :=
  let base := cycle.periodBase (now / 86400)
  (clampedReset base cycle.resetDay, clampedReset (cycle.nextBase base) cycle.resetDay)

/-! ### The sequence of resets -/

/-- The month of a cycle's `k`-th reset. -/
def TrafficCycle.resetMonthIndex (cycle : TrafficCycle) (k : ℤ) : ℤ :=
  match cycle.kind with
  | .monthly => k
  | .yearly => 12 * k + cycle.resetMonth.getD 1 - 1

/-- The date of a month's reset. -/
def resetDate (index resetDay : ℤ) : ℤ :=
  monthStart index + (min resetDay (daysInMonth (index / 12) (index % 12 + 1)) - 1)

/-- The date of a cycle's `k`-th reset. -/
def TrafficCycle.reset (cycle : TrafficCycle) (k : ℤ) : ℤ :=
  resetDate (cycle.resetMonthIndex k) cycle.resetDay

variable {year month now : ℤ} {cycle : TrafficCycle}

theorem resetAt_eq (resetDay : ℤ) (h₁ : 1 ≤ month) (h₂ : month ≤ 12) :
    resetAt year month resetDay = resetDate (12 * year + month - 1) resetDay * 86400 := by
  have hyear : (12 * year + month - 1) / 12 = year := by omega
  have hmonth : (12 * year + month - 1) % 12 + 1 = month := by omega
  unfold resetAt resetDate
  rw [daysFromCivil_monthStart _ h₁ h₂, hyear, hmonth]

theorem clampedReset_eq {day : ℤ} (resetDay : ℤ) (h : Valid year month day) :
    clampedReset (daysFromCivil year month day) resetDay
      = resetDate (12 * year + month - 1) resetDay := by
  have hyear : (12 * year + month - 1) / 12 = year := by
    have h₁ := h.month_pos
    have h₂ := h.month_le
    omega
  have hmonth : (12 * year + month - 1) % 12 + 1 = month := by
    have h₁ := h.month_pos
    have h₂ := h.month_le
    omega
  unfold clampedReset resetDate
  simp only [civilFromDays_daysFromCivil h]
  rw [lastDayOfMonth_eq h, daysFromCivil_monthStart _ h.month_pos h.month_le, hyear, hmonth]

theorem clampedReset_monthStart (index resetDay : ℤ) :
    clampedReset (monthStart index) resetDay = resetDate index resetDay := by
  have hindex : 12 * (index / 12) + (index % 12 + 1) - 1 = index := by omega
  have h := clampedReset_eq resetDay
    (@valid_first (index / 12) (index % 12 + 1) (by omega) (by omega))
  rw [hindex] at h
  exact h

theorem resetDate_mem (index : ℤ) {resetDay : ℤ} (h : 1 ≤ resetDay) :
    monthStart index ≤ resetDate index resetDay
      ∧ resetDate index resetDay < monthStart (index + 1) := by
  have hdays := daysInMonth_range (index / 12) (index % 12 + 1)
  rw [monthStart_succ]
  unfold resetDate
  omega

theorem TrafficCycle.resetMonthIndex_succ (cycle : TrafficCycle) (k : ℤ) :
    cycle.resetMonthIndex k < cycle.resetMonthIndex (k + 1) := by
  unfold resetMonthIndex
  cases cycle.kind with
  | monthly => show k < k + 1; omega
  | yearly => show 12 * k + _ - 1 < 12 * (k + 1) + _ - 1; omega

theorem TrafficCycle.reset_strictMono (cycle : TrafficCycle) : StrictMono cycle.reset := by
  refine strictMono_int_of_lt_succ fun k => ?_
  have hlow := (resetDate_mem (cycle.resetMonthIndex k) cycle.day_pos).2
  have hhigh := (resetDate_mem (cycle.resetMonthIndex (k + 1)) cycle.day_pos).1
  have hmonths : monthStart (cycle.resetMonthIndex k + 1)
      ≤ monthStart (cycle.resetMonthIndex (k + 1)) :=
    monthStart_strictMono.monotone (cycle.resetMonthIndex_succ k)
  unfold reset
  omega

/-- Between which resets a second lies. -/
def TrafficCycle.Lies (cycle : TrafficCycle) (k now : ℤ) : Prop :=
  cycle.reset k ≤ now / 86400 ∧ now / 86400 < cycle.reset (k + 1)

/-- **A second lies between two resets only.** -/
theorem TrafficCycle.Lies.unique {j k : ℤ} (hj : cycle.Lies j now) (hk : cycle.Lies k now) :
    j = k := by
  have h₁ : j < k + 1 := cycle.reset_strictMono.lt_iff_lt.mp (lt_of_le_of_lt hj.1 hk.2)
  have h₂ : k < j + 1 := cycle.reset_strictMono.lt_iff_lt.mp (lt_of_le_of_lt hk.1 hj.2)
  omega

theorem TrafficCycle.lies_cases {day : ℤ} (hvalid : Valid year month day)
    (htoday : daysFromCivil year month day = now / 86400) :
    ∃ k, k = (match cycle.kind with | .monthly => 12 * year + month - 1 | .yearly => year)
      ∧ (cycle.reset k ≤ now / 86400 → cycle.Lies k now)
      ∧ (¬ cycle.reset k ≤ now / 86400 → cycle.Lies (k - 1) now) := by
  refine ⟨_, rfl, ?_⟩
  have hmonth := monthStart_le hvalid
  rw [htoday] at hmonth
  have hrange := And.intro hvalid.month_pos hvalid.month_le
  cases hkind : cycle.kind with
  | monthly =>
    have hindex : ∀ k, cycle.resetMonthIndex k = k := by
      intro k
      unfold resetMonthIndex
      rw [hkind]
    have hnext := (resetDate_mem (12 * year + month - 1 + 1) cycle.day_pos).1
    have hlast := (resetDate_mem (12 * year + month - 1 - 1) cycle.day_pos).2
    unfold Lies reset
    simp only [hindex, sub_add_cancel] at hmonth hnext hlast ⊢
    exact ⟨fun h => ⟨h, by omega⟩, fun h => ⟨by omega, by omega⟩⟩
  | yearly =>
    obtain ⟨reset, hreset, hreset₁, hreset₂⟩ := cycle.month_yearly hkind
    have hindex : ∀ k, cycle.resetMonthIndex k = 12 * k + reset - 1 := by
      intro k
      unfold resetMonthIndex
      rw [hkind, hreset]
      rfl
    -- the resets of the year before and of the year behind
    have hnext := (resetDate_mem (12 * (year + 1) + reset - 1) cycle.day_pos).1
    have hlast := (resetDate_mem (12 * (year - 1) + reset - 1) cycle.day_pos).2
    have hbefore : monthStart (12 * (year - 1) + reset - 1 + 1)
        ≤ monthStart (12 * year + month - 1) :=
      monthStart_strictMono.monotone (by omega)
    have hbehind : monthStart (12 * year + month - 1 + 1)
        ≤ monthStart (12 * (year + 1) + reset - 1) :=
      monthStart_strictMono.monotone (by omega)
    unfold Lies TrafficCycle.reset
    simp only [hindex, sub_add_cancel]
    exact ⟨fun h => ⟨h, by omega⟩, fun h => ⟨by omega, by omega⟩⟩

theorem TrafficCycle.startMonth_spec (cycle : TrafficCycle) (now : ℤ) :
    ∃ k, cycle.Lies k now ∧ 1 ≤ (cycle.startMonth now).2 ∧ (cycle.startMonth now).2 ≤ 12
      ∧ 12 * (cycle.startMonth now).1 + (cycle.startMonth now).2 - 1 = cycle.resetMonthIndex k := by
  obtain ⟨year, month, day, hvalid, htoday⟩ := exists_civil (now / 86400)
  obtain ⟨k, hk, hthis, hlast⟩ := cycle.lies_cases hvalid htoday
  have hrange := And.intro hvalid.month_pos hvalid.month_le
  have hdate : civilFromDays (now / 86400) = (year, month, day) := by
    rw [← htoday, civilFromDays_daysFromCivil hvalid]
  unfold startMonth
  rw [hdate]
  cases hkind : cycle.kind with
  | monthly =>
    rw [hkind] at hk
    have hreset : cycle.reset k = resetDate (12 * year + month - 1) cycle.resetDay := by
      unfold TrafficCycle.reset resetMonthIndex
      rw [hkind, hk]
    have hat : resetAt year month cycle.resetDay = cycle.reset k * 86400 := by
      rw [hreset, resetAt_eq _ hrange.1 hrange.2]
    rw [cycle.month_monthly hkind]
    simp only [Option.getD_none, hat]
    by_cases h : cycle.reset k ≤ now / 86400
    · rw [if_pos (by omega)]
      refine ⟨k, hthis h, hrange.1, hrange.2, ?_⟩
      unfold resetMonthIndex
      rw [hkind, hk]
    · rw [if_neg (by omega)]
      refine ⟨k - 1, hlast h, ?_⟩
      unfold resetMonthIndex
      rw [hkind]
      simp only at hk ⊢
      by_cases hfirst : month = 1
      · simp only [previousMonth, if_pos hfirst]
        omega
      · simp only [previousMonth, if_neg hfirst]
        omega
  | yearly =>
    rw [hkind] at hk
    obtain ⟨reset, hreset, hreset₁, hreset₂⟩ := cycle.month_yearly hkind
    have hindex : ∀ j, cycle.resetMonthIndex j = 12 * j + reset - 1 := by
      intro j
      unfold resetMonthIndex
      rw [hkind, hreset]
      rfl
    have hat : resetAt year reset cycle.resetDay = cycle.reset k * 86400 := by
      rw [resetAt_eq _ hreset₁ hreset₂]
      unfold TrafficCycle.reset
      rw [hindex, hk]
    rw [hreset]
    simp only [Option.getD_some, hat]
    by_cases h : cycle.reset k ≤ now / 86400
    · rw [if_pos (by omega)]
      exact ⟨k, hthis h, hreset₁, hreset₂, by rw [hindex, hk]⟩
    · rw [if_neg (by omega)]
      exact ⟨k - 1, hlast h, hreset₁, hreset₂, by rw [hindex, hk]; rfl⟩

/-- **A period runs from a reset to the next.** -/
theorem TrafficCycle.period_spec (cycle : TrafficCycle) (now : ℤ) : ∃ k, cycle.Lies k now
      ∧ cycle.period now = (cycle.reset k * 86400, cycle.reset (k + 1) * 86400) := by
  obtain ⟨k, hlies, hlow, hhigh, hstart⟩ := cycle.startMonth_spec now
  obtain ⟨year, month, hmonth⟩ : ∃ year month, cycle.startMonth now = (year, month) :=
    ⟨_, _, rfl⟩
  rw [hmonth] at hlow hhigh hstart
  simp only at hlow hhigh hstart
  have hnext : 1 ≤ (nextMonth year month cycle.kind).2 ∧ (nextMonth year month cycle.kind).2 ≤ 12
      ∧ 12 * (nextMonth year month cycle.kind).1 + (nextMonth year month cycle.kind).2 - 1
        = cycle.resetMonthIndex (k + 1) := by
    revert hstart
    unfold resetMonthIndex nextMonth
    cases cycle.kind with
    | monthly =>
      intro hstart
      by_cases hlast : month = 12
      · simp only [if_pos hlast] at hstart ⊢
        omega
      · simp only [if_neg hlast] at hstart ⊢
        omega
    | yearly =>
      intro hstart
      simp only at hstart ⊢
      omega
  refine ⟨k, hlies, ?_⟩
  unfold period TrafficCycle.reset
  simp only [hmonth]
  rw [resetAt_eq _ hlow hhigh, resetAt_eq _ hnext.1 hnext.2.1, hstart, hnext.2.2]

theorem TrafficCycle.period_mem (cycle : TrafficCycle) (now : ℤ) :
    (cycle.period now).1 % 86400 = 0 ∧ (cycle.period now).2 % 86400 = 0
      ∧ (cycle.period now).1 ≤ now ∧ now < (cycle.period now).2 := by
  obtain ⟨k, ⟨hlow, hhigh⟩, hperiod⟩ := cycle.period_spec now
  rw [hperiod]
  simp only
  omega

/-- **Every second of a period names that period.** -/
theorem TrafficCycle.period_unique {t : ℤ} (hlow : (cycle.period now).1 ≤ t)
    (hhigh : t < (cycle.period now).2) : cycle.period t = cycle.period now := by
  obtain ⟨k, hk, hperiod⟩ := cycle.period_spec now
  obtain ⟨j, hj, hperiod'⟩ := cycle.period_spec t
  rw [hperiod] at hlow hhigh
  simp only at hlow hhigh
  have hlies : cycle.Lies k t := ⟨by omega, by omega⟩
  rw [hperiod, hperiod', hj.unique hlies]

theorem TrafficCycle.period_eq {t : ℤ} (h : (cycle.period t).1 = (cycle.period now).1) :
    cycle.period t = cycle.period now := by
  obtain ⟨k, hk, hperiod⟩ := cycle.period_spec now
  obtain ⟨j, hj, hperiod'⟩ := cycle.period_spec t
  rw [hperiod, hperiod'] at h
  simp only at h
  have hreset : cycle.reset j = cycle.reset k := by omega
  rw [hperiod, hperiod', cycle.reset_strictMono.injective hreset]

theorem TrafficCycle.periodBase_spec (cycle : TrafficCycle) (now : ℤ) :
    ∃ k, cycle.Lies k now ∧ cycle.periodBase (now / 86400) = monthStart (cycle.resetMonthIndex k) := by
  obtain ⟨year, month, day, hvalid, htoday⟩ := exists_civil (now / 86400)
  obtain ⟨k, hk, hthis, hlast⟩ := cycle.lies_cases hvalid htoday
  unfold periodBase
  rw [← htoday]
  rw [← htoday] at hthis hlast
  cases hkind : cycle.kind with
  | monthly =>
    rw [hkind] at hk
    simp only at hk ⊢
    have hindex : ∀ j, cycle.resetMonthIndex j = j := by
      intro j
      unfold resetMonthIndex
      rw [hkind]
    rw [clampedReset_eq _ hvalid, truncMonth_eq hvalid, addMonths_monthStart]
    have hreset : resetDate (12 * year + month - 1) cycle.resetDay = cycle.reset k := by
      unfold TrafficCycle.reset
      rw [hindex, hk]
    rw [hreset]
    by_cases h : cycle.reset k ≤ daysFromCivil year month day
    · rw [if_pos h]
      exact ⟨k, hthis h, by rw [hindex, hk]⟩
    · rw [if_neg h]
      exact ⟨k - 1, hlast h, by rw [hindex, hk]; rfl⟩
  | yearly =>
    rw [hkind] at hk
    simp only at hk ⊢
    obtain ⟨reset, hreset, hreset₁, hreset₂⟩ := cycle.month_yearly hkind
    have hindex : ∀ j, cycle.resetMonthIndex j = 12 * j + reset - 1 := by
      intro j
      unfold resetMonthIndex
      rw [hkind, hreset]
      rfl
    have hfirst : ∀ y, daysFromCivil y reset 1 = monthStart (12 * y + reset - 1) := by
      intro y
      rw [daysFromCivil_monthStart 1 hreset₁ hreset₂, sub_self, add_zero]
    rw [civilFromDays_daysFromCivil hvalid, hreset, Option.getD_some, hfirst, hfirst,
      clampedReset_monthStart]
    have hreset' : resetDate (12 * year + reset - 1) cycle.resetDay = cycle.reset k := by
      unfold TrafficCycle.reset
      rw [hindex, hk]
    rw [hreset']
    by_cases h : cycle.reset k ≤ daysFromCivil year month day
    · rw [if_pos h]
      exact ⟨k, hthis h, by rw [hindex, hk]⟩
    · rw [if_neg h]
      exact ⟨k - 1, hlast h, by rw [hindex, hk]⟩

/-- **The database names the period the agent names.** -/
theorem TrafficCycle.periodDates_eq (cycle : TrafficCycle) (now : ℤ) :
    ((cycle.periodDates now).1 * 86400, (cycle.periodDates now).2 * 86400) = cycle.period now := by
  obtain ⟨k, hk, hperiod⟩ := cycle.period_spec now
  obtain ⟨j, hj, hbase⟩ := cycle.periodBase_spec now
  have hnext : cycle.nextBase (monthStart (cycle.resetMonthIndex j))
      = monthStart (cycle.resetMonthIndex (j + 1)) := by
    unfold nextBase resetMonthIndex
    cases cycle.kind with
    | monthly => exact addMonths_monthStart j 1
    | yearly =>
      simp only
      rw [addMonths_monthStart]
      congr 1
      omega
  unfold periodDates
  simp only [hbase, hnext, clampedReset_monthStart]
  rw [hperiod, hk.unique hj]
  rfl

end Brocade.Traffic
