/-
Billing periods tile time.

A cycle is what a desired limit's reset fields pass their check as.  The resets of a cycle
are one ascending sequence (`TrafficCycle.reset_strictMono`), so the periods between them
leave no second out and share none, and each begins where the one before it ends.  The view
reckons in the database's dates and names the same periods, as far as those dates reach.

A moment within `2 ^ 45` seconds of the epoch keeps every number on the way far below what an
`i64` holds.
-/
import Brocade.Traffic.Period

namespace Brocade.Traffic

open Calendar

/-! ### The check of the reset fields -/

/-- Whether a month and a day say when a cycle of this kind begins anew. -/
def ResetAccepted (kind : NodeTrafficCycleKind) (resetMonth : Option UInt8) (resetDay : UInt8) :
    Prop :=
  (1 ≤ resetDay.toNat ∧ resetDay.toNat ≤ 31) ∧
    match kind with
    | .monthly => resetMonth = none
    | .yearly => ∃ month ∈ resetMonth, 1 ≤ month.toNat ∧ month.toNat ≤ 12

instance (kind : NodeTrafficCycleKind) (resetMonth : Option UInt8) (resetDay : UInt8) :
    Decidable (ResetAccepted kind resetMonth resetDay) :=
  match kind, resetMonth with
  | .monthly, none => decidable_of_iff (1 ≤ resetDay.toNat ∧ resetDay.toNat ≤ 31)
      (by simp [ResetAccepted])
  | .monthly, some _ => isFalse (by simp [ResetAccepted])
  | .yearly, none => isFalse (by simp [ResetAccepted])
  | .yearly, some month => decidable_of_iff
      ((1 ≤ resetDay.toNat ∧ resetDay.toNat ≤ 31) ∧ 1 ≤ month.toNat ∧ month.toNat ≤ 12)
      (by simp [ResetAccepted])

/-- The reset fields of a desired limit, checked: what `period` reckons with. -/
def validateReset (kind : NodeTrafficCycleKind) (resetMonth : Option UInt8) (resetDay : UInt8) :
    Except String TrafficCycle :=
  if h : ResetAccepted kind resetMonth resetDay then
    .ok {
      kind
      resetMonth := resetMonth.map fun month => (month.toNat : ℤ)
      resetDay := resetDay.toNat
      month_monthly := by
        rintro rfl
        have hnone : resetMonth = none := h.2
        rw [hnone, Option.map_none]
      month_yearly := by
        rintro rfl
        obtain ⟨month, hmonth, h₁, h₂⟩ := h.2
        rw [Option.mem_def.mp hmonth]
        exact ⟨month.toNat, rfl, by omega, by omega⟩
      day_pos := by have := h.1.1; omega
      day_le := by have := h.1.2; omega }
  else .error "无效的流量重置日期"

/-! ### The view's dates -/

/-- The last date the database casts to a timestamp. -/
def lastTimestampDate : ℤ := daysFromCivil 294276 12 31

/-- The period the view names on a date: none where the month behind its next base is past the
database's timestamps, which fails the statement. -/
def TrafficCycle.viewPeriod (cycle : TrafficCycle) (today : ℤ) : Option (ℤ × ℤ) :=
  let base := cycle.periodBase today
  let next := cycle.nextBase base
  if addMonths (truncMonth next) 1 ≤ lastTimestampDate then
    some (clampedReset base cycle.resetDay, clampedReset next cycle.resetDay)
  else none

variable {cycle : TrafficCycle} {now : ℤ}

theorem TrafficCycle.viewPeriod_eq {dates : ℤ × ℤ}
    (h : cycle.viewPeriod (now / 86400) = some dates) :
    cycle.period now = (dates.1 * 86400, dates.2 * 86400) := by
  unfold viewPeriod at h
  simp only at h
  split_ifs at h
  rw [← cycle.periodDates_eq now, ← Option.some.inj h]
  rfl

theorem TrafficCycle.Lies.month_le {k : ℤ} (h : cycle.Lies k now) :
    monthStart (cycle.resetMonthIndex k) ≤ now / 86400 :=
  le_trans (resetDate_mem (cycle.resetMonthIndex k) cycle.day_pos).1 h.1

theorem TrafficCycle.viewPeriod_isSome (cycle : TrafficCycle)
    (h : now / 86400 < daysFromCivil 294275 1 1) :
    (cycle.viewPeriod (now / 86400)).isSome = true := by
  obtain ⟨k, hlies, hbase⟩ := cycle.periodBase_spec now
  have hfirst : daysFromCivil 294275 1 1 = monthStart (12 * 294275) := by
    rw [daysFromCivil_monthStart 1 (by decide) (by decide), sub_self, add_zero]
    rfl
  have hmonth : cycle.resetMonthIndex k < 12 * 294275 := by
    refine monthStart_strictMono.lt_iff_lt.mp ?_
    rw [← hfirst]
    exact lt_of_le_of_lt hlies.month_le h
  have hnext : ∃ n ≤ 12, cycle.nextBase (monthStart (cycle.resetMonthIndex k))
      = monthStart (cycle.resetMonthIndex k + n) := by
    unfold nextBase
    cases cycle.kind with
    | monthly => exact ⟨1, by decide, addMonths_monthStart _ _⟩
    | yearly => exact ⟨12, le_refl _, addMonths_monthStart _ _⟩
  obtain ⟨n, hn, hnext⟩ := hnext
  have htrunc : ∀ index, truncMonth (monthStart index) = monthStart index := by
    intro index
    have hvalid : Valid (index / 12) (index % 12 + 1) 1 := valid_first (by omega) (by omega)
    have hindex : 12 * (index / 12) + (index % 12 + 1) - 1 = index := by omega
    have heq := truncMonth_eq hvalid
    rw [hindex] at heq
    exact heq
  have hlast : monthStart (cycle.resetMonthIndex k + n + 1) ≤ lastTimestampDate := by
    have hle : monthStart (cycle.resetMonthIndex k + n + 1) ≤ monthStart (12 * 294276 + 11) :=
      monthStart_strictMono.monotone (by omega)
    have hdecember : monthStart (12 * 294276 + 11) ≤ lastTimestampDate := by decide
    exact le_trans hle hdecember
  unfold viewPeriod
  simp only [hbase, hnext, htrunc, addMonths_monthStart]
  rw [if_pos hlast]
  rfl

/-! ### Neighbouring periods -/

theorem TrafficCycle.period_of_lies {k : ℤ} (h : cycle.Lies k now) :
    cycle.period now = (cycle.reset k * 86400, cycle.reset (k + 1) * 86400) := by
  obtain ⟨j, hj, hperiod⟩ := cycle.period_spec now
  rw [hperiod, hj.unique h]

/-- **The next period begins where this one ends.** -/
theorem TrafficCycle.period_next (cycle : TrafficCycle) (now : ℤ) :
    (cycle.period (cycle.period now).2).1 = (cycle.period now).2 := by
  obtain ⟨k, hk, hperiod⟩ := cycle.period_spec now
  have hgrow : cycle.reset (k + 1) < cycle.reset (k + 1 + 1) := cycle.reset_strictMono (by omega)
  have hlies : cycle.Lies (k + 1) (cycle.reset (k + 1) * 86400) := ⟨by omega, by omega⟩
  rw [hperiod]
  simp only
  rw [cycle.period_of_lies hlies]

/-- **The period before ends where this one begins.** -/
theorem TrafficCycle.period_last (cycle : TrafficCycle) (now : ℤ) :
    (cycle.period ((cycle.period now).1 - 1)).2 = (cycle.period now).1 := by
  obtain ⟨k, hk, hperiod⟩ := cycle.period_spec now
  have hgrow : cycle.reset (k - 1) < cycle.reset k := cycle.reset_strictMono (by omega)
  have hlies : cycle.Lies (k - 1) (cycle.reset k * 86400 - 1) := by
    refine ⟨by omega, ?_⟩
    rw [sub_add_cancel]
    omega
  rw [hperiod]
  simp only
  rw [cycle.period_of_lies hlies, sub_add_cancel]

/-- What tiles time: the periods of a cycle, for each moment. -/
structure TrafficCycle.Tiles (cycle : TrafficCycle) (now : ℤ) : Prop where
  mem : (cycle.period now).1 ≤ now ∧ now < (cycle.period now).2
  midnights : (cycle.period now).1 % 86400 = 0 ∧ (cycle.period now).2 % 86400 = 0
  same : ∀ t, (cycle.period now).1 ≤ t → t < (cycle.period now).2 →
    cycle.period t = cycle.period now
  next : (cycle.period (cycle.period now).2).1 = (cycle.period now).2
  last : (cycle.period ((cycle.period now).1 - 1)).2 = (cycle.period now).1
  /-- what the view names is this period -/
  view : ∀ dates, cycle.viewPeriod (now / 86400) = some dates →
    cycle.period now = (dates.1 * 86400, dates.2 * 86400)
  /-- and it names one on every date the database's clock comes near -/
  viewed : now / 86400 < daysFromCivil 294275 1 1 → (cycle.viewPeriod (now / 86400)).isSome = true

theorem TrafficCycle.tiles (cycle : TrafficCycle) (now : ℤ) : cycle.Tiles now := by
  obtain ⟨hstart, hstop, hlow, hhigh⟩ := cycle.period_mem now
  exact ⟨⟨hlow, hhigh⟩, ⟨hstart, hstop⟩, fun t => cycle.period_unique, cycle.period_next now,
    cycle.period_last now, fun dates => cycle.viewPeriod_eq, cycle.viewPeriod_isSome⟩

/-- **Every accepted cycle's periods tile time, and the view names them.** -/
theorem periods_tile {kind : NodeTrafficCycleKind} {resetMonth : Option UInt8} {resetDay : UInt8}
    (h : ResetAccepted kind resetMonth resetDay) :
    (∃ cycle, validateReset kind resetMonth resetDay = .ok cycle ∧ cycle.kind = kind
      ∧ cycle.resetMonth = resetMonth.map (fun month => (month.toNat : ℤ))
      ∧ cycle.resetDay = resetDay.toNat
      ∧ ∀ now, cycle.Tiles now)
    ∧ (∀ days, Valid (civilFromDays days).1 (civilFromDays days).2.1 (civilFromDays days).2.2
        ∧ daysFromCivil (civilFromDays days).1 (civilFromDays days).2.1 (civilFromDays days).2.2
          = days)
    ∧ ∀ year month day, Valid year month day →
        civilFromDays (daysFromCivil year month day) = (year, month, day) := by
  refine ⟨?_, ?_, fun year month day => civilFromDays_daysFromCivil⟩
  · unfold validateReset
    rw [dif_pos h]
    exact ⟨_, rfl, rfl, rfl, rfl, fun now => TrafficCycle.tiles _ now⟩
  · intro days
    obtain ⟨year, month, day, hvalid, hdays⟩ := exists_civil days
    rw [← hdays, civilFromDays_daysFromCivil hvalid]
    exact ⟨hvalid, rfl⟩

/-- A yearly cycle from the end of February. -/
theorem periods_tile_february :
    ResetAccepted .yearly (some 2) 29 ∧ ∃ cycle, validateReset .yearly (some 2) 29 = .ok cycle
      ∧ ∀ now, cycle.Tiles now := by
  have h : ResetAccepted .yearly (some 2) 29 := ⟨by decide, 2, rfl, by decide, by decide⟩
  obtain ⟨⟨cycle, hcycle, -, -, -, htiles⟩, -⟩ := periods_tile h
  exact ⟨h, cycle, hcycle, htiles⟩

end Brocade.Traffic
