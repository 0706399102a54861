/-
The proleptic Gregorian calendar, by days since the first of January 1970.

`daysFromCivil` and `civilFromDays` convert with a few divisions, in a year that begins in
March so that the leap day comes last.  They are inverse to each other on the dates that
exist (`civilFromDays_daysFromCivil`, `exists_civil`), and everything else about months is
read off that: the last day of a month is the day before the next one.
-/
import Mathlib.Order.SuccPred.IntervalSucc
import Mathlib.Tactic.IntervalCases
import Mathlib.Data.Int.ConditionallyCompleteOrder

namespace Calendar

def isLeap (year : ℤ) : Bool := year % 4 = 0 && (year % 100 ≠ 0 || year % 400 = 0)

def daysInMonth (year month : ℤ) : ℤ :=
  if month = 2 then (if isLeap year then 29 else 28)
  else if month = 4 ∨ month = 6 ∨ month = 9 ∨ month = 11 then 30
  else 31

/-- The dates that exist. -/
structure Valid (year month day : ℤ) : Prop where
  month_pos : 1 ≤ month
  month_le : month ≤ 12
  day_pos : 1 ≤ day
  day_le : day ≤ daysInMonth year month

/-- Months counted from March. -/
def marchMonth (month : ℤ) : ℤ := if 2 < month then month - 3 else month + 9

/-- Days since the first of March. -/
def marchDay (month day : ℤ) : ℤ := (153 * marchMonth month + 2) / 5 + day - 1

/-- The day of a date. -/
def daysFromCivil (year month day : ℤ) : ℤ :=
  let year := if month ≤ 2 then year - 1 else year
  let era := year / 400
  let yoe := year - era * 400
  era * 146097 + yoe * 365 + yoe / 4 - yoe / 100 + marchDay month day - 719468

/-- The date of a day. -/
def civilFromDays (days : ℤ) : ℤ × ℤ × ℤ :=
  let z := days + 719468
  let era := z / 146097
  let doe := z - era * 146097
  let yoe := (doe - doe / 1460 + doe / 36524 - doe / 146096) / 365
  let doy := doe - (365 * yoe + yoe / 4 - yoe / 100)
  let mp := (5 * doy + 2) / 153
  let day := doy - (153 * mp + 2) / 5 + 1
  let month := if mp < 10 then mp + 3 else mp - 9
  (yoe + era * 400 + (if month ≤ 2 then 1 else 0), month, day)

/-! ### Days of a year and of an era -/

/-- A day of a March-based year: the leap day is the last one, and not in every year. -/
structure InEra (yoe doy : ℤ) : Prop where
  yoe_nonneg : 0 ≤ yoe
  yoe_le : yoe ≤ 399
  doy_nonneg : 0 ≤ doy
  doy_le : doy ≤ 365
  leap : doy = 365 → (yoe + 1) % 4 = 0 ∧ ((yoe + 1) % 100 ≠ 0 ∨ yoe = 399)

def dayOfEra (yoe doy : ℤ) : ℤ := yoe * 365 + yoe / 4 - yoe / 100 + doy

theorem dayOfEra_range {yoe doy : ℤ} (h : InEra yoe doy) :
    0 ≤ dayOfEra yoe doy ∧ dayOfEra yoe doy ≤ 146096 := by
  obtain ⟨h₀, h₁, h₂, h₃, -⟩ := h
  unfold dayOfEra
  omega

theorem yearOfEra_eq {yoe doy doe : ℤ} (h : InEra yoe doy) (hdoe : doe = dayOfEra yoe doy) :
    (doe - doe / 1460 + doe / 36524 - doe / 146096) / 365 = yoe := by
  obtain ⟨h₀, h₁, h₂, h₃, hleap⟩ := h
  unfold dayOfEra at hdoe
  by_cases hlast : yoe = 399 ∧ doy = 365
  · obtain ⟨rfl, rfl⟩ := hlast
    omega
  -- split the year into its century and its group of four
  obtain ⟨c, hc⟩ : ∃ c, c = yoe / 100 := ⟨_, rfl⟩
  obtain ⟨q, hq⟩ : ∃ q, q = yoe / 4 := ⟨_, rfl⟩
  rw [← hc, ← hq] at hdoe
  have hcentury : doe = 36524 * c + (365 * (yoe - 100 * c) + (q - 25 * c) + doy) := by omega
  have hin : 365 * (yoe - 100 * c) + (q - 25 * c) + doy ≤ 36523 := by omega
  have hcenturies : doe / 36524 = c := by omega
  have hera : doe / 146096 = 0 := by omega
  obtain ⟨e, he⟩ : ∃ e, e = (q - c + 365 * (yoe - 4 * q) + doy) / 1460 := ⟨_, rfl⟩
  have hfours : doe / 1460 = q + e := by omega
  have hlow : 0 ≤ doy - e := by omega
  have hhigh : doy - e ≤ 364 := by omega
  omega

theorem exists_inEra {doe : ℤ} (h₀ : 0 ≤ doe) (h₁ : doe ≤ 146096) :
    ∃ yoe doy, InEra yoe doy ∧ dayOfEra yoe doy = doe := by
  obtain ⟨c, hc⟩ : ∃ c, c = min (doe / 36524) 3 := ⟨_, rfl⟩
  obtain ⟨q, hq⟩ : ∃ q, q = (doe - 36524 * c) / 1461 := ⟨_, rfl⟩
  obtain ⟨s, hs⟩ : ∃ s, s = min ((doe - 36524 * c - 1461 * q) / 365) 3 := ⟨_, rfl⟩
  have hc₀ : 0 ≤ c ∧ c ≤ 3 := by omega
  have hin : 0 ≤ doe - 36524 * c ∧ doe - 36524 * c ≤ 36524 := by omega
  have hlast : doe - 36524 * c = 36524 → c = 3 := by omega
  have hq₀ : 0 ≤ q ∧ q ≤ 24 := by omega
  have hin' : 0 ≤ doe - 36524 * c - 1461 * q ∧ doe - 36524 * c - 1461 * q ≤ 1460 := by omega
  have hs₀ : 0 ≤ s ∧ s ≤ 3 := by omega
  refine ⟨100 * c + 4 * q + s, doe - 36524 * c - 1461 * q - 365 * s, ⟨?_, ?_, ?_, ?_, ?_⟩, ?_⟩
  · omega
  · omega
  · omega
  · omega
  · intro hleap
    have hs₃ : s = 3 := by omega
    refine ⟨by omega, ?_⟩
    by_cases hq₄ : q = 24
    · have hc₃ : c = 3 := hlast (by omega)
      omega
    · omega
  · have hfours : (100 * c + 4 * q + s) / 4 = 25 * c + q := by omega
    have hcenturies : (100 * c + 4 * q + s) / 100 = c := by omega
    unfold dayOfEra
    rw [hfours, hcenturies]
    omega

/-! ### Both ways -/

/-- The year a March-based year began in. -/
def marchYear (year month : ℤ) : ℤ := if month ≤ 2 then year - 1 else year

theorem daysFromCivil_eq (year month day : ℤ) :
    daysFromCivil year month day = marchYear year month / 400 * 146097
        + dayOfEra (marchYear year month % 400) (marchDay month day) - 719468 := by
  have hmod : marchYear year month - marchYear year month / 400 * 400
      = marchYear year month % 400 := by omega
  show marchYear year month / 400 * 146097 + (marchYear year month - marchYear year month / 400 * 400)
      * 365 + (marchYear year month - marchYear year month / 400 * 400) / 4
      - (marchYear year month - marchYear year month / 400 * 400) / 100 + marchDay month day - 719468
    = _
  rw [hmod]
  unfold dayOfEra
  omega

theorem isLeap_iff {year : ℤ} :
    isLeap year = true ↔ year % 4 = 0 ∧ (year % 100 ≠ 0 ∨ year % 400 = 0) := by
  simp [isLeap]

variable {year month day : ℤ}

theorem marchDay_spec (h : Valid year month day) :
    InEra (marchYear year month % 400) (marchDay month day)
      ∧ (5 * marchDay month day + 2) / 153 = marchMonth month := by
  obtain ⟨hm₁, hm₂, hd₁, hd₂⟩ := h
  by_cases hfeb : month = 2
  · subst hfeb
    have hday : marchDay 2 day = 336 + day := by
      unfold marchDay marchMonth
      omega
    have hyear : marchYear year 2 = year - 1 := rfl
    have hmonth : marchMonth 2 = 11 := rfl
    have hleap : day ≤ 29 ∧ (day = 29 → isLeap year = true) := by
      unfold daysInMonth at hd₂
      rw [if_pos rfl] at hd₂
      split at hd₂
      · rename_i hleap
        exact ⟨hd₂, fun _ => hleap⟩
      · omega
    rw [hday, hyear, hmonth]
    refine ⟨⟨by omega, by omega, by omega, by omega, ?_⟩, by omega⟩
    intro hlast
    have hyes := isLeap_iff.mp (hleap.2 (by omega))
    omega
  · have hbound : marchDay month day ≤ 364 ∧ 0 ≤ marchDay month day
        ∧ (5 * marchDay month day + 2) / 153 = marchMonth month := by
      unfold daysInMonth at hd₂
      rw [if_neg hfeb] at hd₂
      unfold marchDay marchMonth
      interval_cases month <;> simp at hd₂ hfeb ⊢ <;> omega
    exact ⟨⟨by omega, by omega, by omega, by omega, by omega⟩, hbound.2.2⟩

/-- **Converting a date to days and back returns the date.** -/
theorem civilFromDays_daysFromCivil (h : Valid year month day) :
    civilFromDays (daysFromCivil year month day) = (year, month, day) := by
  obtain ⟨hin, hmp⟩ := marchDay_spec h
  obtain ⟨hlow, hhigh⟩ := dayOfEra_range hin
  obtain ⟨doe, hdoe⟩ : ∃ doe, doe = dayOfEra (marchYear year month % 400) (marchDay month day) :=
    ⟨_, rfl⟩
  have hyoe := yearOfEra_eq hin hdoe
  rw [daysFromCivil_eq, ← hdoe]
  rw [← hdoe] at hlow hhigh
  have hera : (marchYear year month / 400 * 146097 + doe - 719468 + 719468) / 146097
      = marchYear year month / 400 := by omega
  have hrest : marchYear year month / 400 * 146097 + doe - 719468 + 719468
      - marchYear year month / 400 * 146097 = doe := by omega
  have hdoy : doe - (365 * (marchYear year month % 400) + marchYear year month % 400 / 4
      - marchYear year month % 400 / 100) = marchDay month day := by
    rw [hdoe]
    unfold dayOfEra
    omega
  have hmonth : (if marchMonth month < 10 then marchMonth month + 3 else marchMonth month - 9)
      = month := by
    have hm₁ := h.month_pos
    have hm₂ := h.month_le
    unfold marchMonth
    split_ifs <;> omega
  have hday : marchDay month day - (153 * marchMonth month + 2) / 5 + 1 = day := by
    unfold marchDay
    omega
  have hyear : marchYear year month % 400 + marchYear year month / 400 * 400
      + (if month ≤ 2 then 1 else 0) = year := by
    unfold marchYear
    split_ifs <;> omega
  unfold civilFromDays
  simp only [hera, hrest, hyoe, hdoy, hmp, hmonth, hday, hyear]

/-- **Every day is a date that exists.** -/
theorem exists_civil (days : ℤ) :
    ∃ year month day, Valid year month day ∧ daysFromCivil year month day = days := by
  obtain ⟨era, hera⟩ : ∃ era, era = (days + 719468) / 146097 := ⟨_, rfl⟩
  obtain ⟨yoe, doy, hin, hdoe⟩ := @exists_inEra (days + 719468 - era * 146097)
    (by omega) (by omega)
  obtain ⟨h₀, h₁, h₂, h₃, hleap⟩ := hin
  obtain ⟨mp, hmp⟩ : ∃ mp, mp = (5 * doy + 2) / 153 := ⟨_, rfl⟩
  obtain ⟨day, hday⟩ : ∃ day, day = doy - (153 * mp + 2) / 5 + 1 := ⟨_, rfl⟩
  have hmp₀ : 0 ≤ mp ∧ mp ≤ 11 := by omega
  have hsplit : ∀ year month, marchYear year month = era * 400 + yoe → marchMonth month = mp →
      daysFromCivil year month day = days := by
    intro year month hyear hmonth
    rw [daysFromCivil_eq, hyear]
    have hmod : (era * 400 + yoe) % 400 = yoe := by omega
    have hdiv : (era * 400 + yoe) / 400 = era := by omega
    have hdoy : marchDay month day = doy := by
      unfold marchDay
      rw [hmonth]
      omega
    rw [hmod, hdiv, hdoy, hdoe]
    omega
  by_cases hlate : mp < 10
  · refine ⟨era * 400 + yoe, mp + 3, day, ⟨by omega, by omega, by omega, ?_⟩, hsplit _ _ ?_ ?_⟩
    · have hne : ¬ mp + 3 = 2 := by omega
      unfold daysInMonth
      rw [if_neg hne]
      split <;> omega
    · unfold marchYear
      rw [if_neg (by omega)]
    · unfold marchMonth
      rw [if_pos (by omega)]
      omega
  · refine ⟨era * 400 + yoe + 1, mp - 9, day, ⟨by omega, by omega, by omega, ?_⟩, hsplit _ _ ?_ ?_⟩
    · by_cases hfeb : mp = 11
      · subst hfeb
        unfold daysInMonth
        rw [if_pos (by omega)]
        split
        · omega
        · rename_i hnot
          rw [isLeap_iff] at hnot
          by_cases hlast : doy = 365
          · have hyes := hleap hlast
            omega
          · omega
      · unfold daysInMonth
        rw [if_neg (by omega)]
        split <;> omega
    · unfold marchYear
      rw [if_pos (by omega)]
      omega
    · unfold marchMonth
      rw [if_neg (by omega)]
      omega

/-! ### Months

Counted in one sequence, twelve a year; `monthStart` is the day each begins. -/

def monthStart (index : ℤ) : ℤ := daysFromCivil (index / 12) (index % 12 + 1) 1

theorem daysInMonth_range (year month : ℤ) :
    28 ≤ daysInMonth year month ∧ daysInMonth year month ≤ 31 := by
  unfold daysInMonth
  split_ifs <;> omega

theorem valid_first {year month : ℤ} (h₁ : 1 ≤ month) (h₂ : month ≤ 12) : Valid year month 1 :=
  ⟨h₁, h₂, le_refl 1, by have := daysInMonth_range year month; omega⟩

theorem daysFromCivil_add (year month day : ℤ) :
    daysFromCivil year month day = daysFromCivil year month 1 + (day - 1) := by
  rw [daysFromCivil_eq, daysFromCivil_eq]
  unfold dayOfEra marchDay
  omega

theorem daysFromCivil_monthStart (day : ℤ) (h₁ : 1 ≤ month) (h₂ : month ≤ 12) :
    daysFromCivil year month day = monthStart (12 * year + month - 1) + (day - 1) := by
  have hyear : (12 * year + month - 1) / 12 = year := by omega
  have hmonth : (12 * year + month - 1) % 12 + 1 = month := by omega
  rw [daysFromCivil_add]
  unfold monthStart
  rw [hyear, hmonth]

theorem daysFromCivil_nextMonth (h₁ : 1 ≤ month) (h₂ : month ≤ 12) :
    daysFromCivil (if month = 12 then year + 1 else year) (if month = 12 then 1 else month + 1) 1
      = daysFromCivil year month 1 + daysInMonth year month := by
  by_cases hfeb : month = 2
  · subst hfeb
    rw [if_neg (by decide), if_neg (by decide)]
    show daysFromCivil year 3 1 = daysFromCivil year 2 1 + if isLeap year then 29 else 28
    have hmarch : marchYear year 3 = year ∧ marchDay 3 1 = 0 := ⟨rfl, rfl⟩
    have hfebruary : marchYear year 2 = year - 1 ∧ marchDay 2 1 = 337 := ⟨rfl, rfl⟩
    have hleap := @isLeap_iff year
    rw [daysFromCivil_eq, daysFromCivil_eq, hmarch.1, hmarch.2, hfebruary.1, hfebruary.2]
    unfold dayOfEra
    -- the year before may belong to the era before
    by_cases hfirst : year % 400 = 0
    · have hera : (year - 1) / 400 = year / 400 - 1 := by omega
      have hyoe : (year - 1) % 400 = 399 := by omega
      rw [if_pos (hleap.mpr ⟨by omega, .inr hfirst⟩), hera, hyoe, hfirst]
      omega
    · have hera : (year - 1) / 400 = year / 400 := by omega
      have hyoe : (year - 1) % 400 = year % 400 - 1 := by omega
      obtain ⟨yoe, hyoe'⟩ : ∃ yoe, yoe = year % 400 := ⟨_, rfl⟩
      have hfour : year % 4 = yoe % 4 := by omega
      have hhundred : year % 100 = yoe % 100 := by omega
      have hrange : 1 ≤ yoe ∧ yoe ≤ 399 := by omega
      rw [hera, hyoe, ← hyoe']
      rw [hfour, hhundred, ← hyoe'] at hleap
      clear hyoe hera hfour hhundred hfirst
      split
      · rename_i h
        obtain ⟨hfour, hhundred⟩ := hleap.mp h
        have hcentury : (yoe - 1) / 100 = yoe / 100 := by omega
        rw [hcentury]
        omega
      · rename_i h
        by_cases hfour : yoe % 4 = 0
        · have hhundred : yoe % 100 = 0 := by
            by_contra hne
            exact h (hleap.mpr ⟨hfour, .inl hne⟩)
          omega
        · have hcentury : (yoe - 1) / 100 = yoe / 100 := by omega
          rw [hcentury]
          omega
  · unfold daysInMonth daysFromCivil marchDay marchMonth
    rw [if_neg hfeb]
    interval_cases month <;> simp at hfeb ⊢ <;> omega

theorem monthStart_succ (index : ℤ) :
    monthStart (index + 1) = monthStart index + daysInMonth (index / 12) (index % 12 + 1) := by
  have hmonth : 1 ≤ index % 12 + 1 ∧ index % 12 + 1 ≤ 12 := by omega
  show daysFromCivil ((index + 1) / 12) ((index + 1) % 12 + 1) 1
    = daysFromCivil (index / 12) (index % 12 + 1) 1 + _
  rw [← daysFromCivil_nextMonth hmonth.1 hmonth.2]
  by_cases h : index % 12 + 1 = 12
  · rw [if_pos h, if_pos h]
    congr 1 <;> omega
  · rw [if_neg h, if_neg h]
    congr 1 <;> omega

theorem monthStart_strictMono : StrictMono monthStart := by
  refine strictMono_int_of_lt_succ fun index => ?_
  rw [monthStart_succ]
  have hdays := daysInMonth_range (index / 12) (index % 12 + 1)
  omega

theorem monthStart_le (h : Valid year month day) :
    monthStart (12 * year + month - 1) ≤ daysFromCivil year month day
      ∧ daysFromCivil year month day < monthStart (12 * year + month - 1 + 1) := by
  have hyear : (12 * year + month - 1) / 12 = year := by
    have h₁ := h.month_pos
    have h₂ := h.month_le
    omega
  have hmonth : (12 * year + month - 1) % 12 + 1 = month := by
    have h₁ := h.month_pos
    have h₂ := h.month_le
    omega
  rw [daysFromCivil_monthStart day h.month_pos h.month_le, monthStart_succ, hyear, hmonth]
  have h₁ := h.day_pos
  have h₂ := h.day_le
  omega

/-- The first of the month of a day. -/
def truncMonth (days : ℤ) : ℤ :=
  let date := civilFromDays days
  daysFromCivil date.1 date.2.1 1

/-- The same day of a later month, or its last one. -/
def addMonths (days months : ℤ) : ℤ :=
  let date := civilFromDays days
  let index := 12 * date.1 + date.2.1 - 1 + months
  daysFromCivil (index / 12) (index % 12 + 1)
    (min date.2.2 (daysInMonth (index / 12) (index % 12 + 1)))

/-- The last day of the month of a day. -/
def lastDayOfMonth (days : ℤ) : ℤ := (civilFromDays (addMonths (truncMonth days) 1 - 1)).2.2

theorem civilFromDays_monthStart (index : ℤ) :
    civilFromDays (monthStart index) = (index / 12, index % 12 + 1, 1) :=
  civilFromDays_daysFromCivil (valid_first (by omega) (by omega))

theorem addMonths_monthStart (index months : ℤ) :
    addMonths (monthStart index) months = monthStart (index + months) := by
  have hindex : 12 * (index / 12) + (index % 12 + 1) - 1 + months = index + months := by omega
  have hdays := daysInMonth_range ((index + months) / 12) ((index + months) % 12 + 1)
  unfold addMonths
  simp only [civilFromDays_monthStart, hindex]
  rw [min_eq_left (by omega)]
  rfl

theorem truncMonth_eq (h : Valid year month day) :
    truncMonth (daysFromCivil year month day) = monthStart (12 * year + month - 1) := by
  unfold truncMonth
  simp only [civilFromDays_daysFromCivil h]
  rw [daysFromCivil_monthStart 1 h.month_pos h.month_le]
  omega

theorem lastDayOfMonth_eq (h : Valid year month day) :
    lastDayOfMonth (daysFromCivil year month day) = daysInMonth year month := by
  have hyear : (12 * year + month - 1) / 12 = year := by
    have h₁ := h.month_pos
    have h₂ := h.month_le
    omega
  have hmonth : (12 * year + month - 1) % 12 + 1 = month := by
    have h₁ := h.month_pos
    have h₂ := h.month_le
    omega
  have hdays := daysInMonth_range year month
  have hlast : monthStart (12 * year + month - 1 + 1) - 1
      = daysFromCivil year month (daysInMonth year month) := by
    rw [monthStart_succ, hyear, hmonth, daysFromCivil_monthStart _ h.month_pos h.month_le]
    omega
  unfold lastDayOfMonth
  rw [truncMonth_eq h, addMonths_monthStart, hlast,
    civilFromDays_daysFromCivil ⟨h.month_pos, h.month_le, by omega, le_refl _⟩]

end Calendar
