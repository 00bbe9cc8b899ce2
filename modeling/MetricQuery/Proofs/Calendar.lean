import Mathlib.Order.Monotone.Basic
import MetricQuery.Time.Instant

/-!
# Dates and their numbers

The date of a number is one of the calendar and has that number. Within a cycle
of 400 years the year of a day is found by a quotient; as this quotient does not
decrease with the day, it is enough to know it on the first and the last day of
each year.
-/

set_option autoImplicit false

namespace MetricQuery.Date

/-- The number of the first day of a year within a cycle, the years beginning in
March. -/
def startOfYear (year : Int) : Int :=
  365 * year + year / 4 - year / 100

/-- The days of a cycle up to a day, without the leap days. -/
def daysWithoutLeap (day : Int) : Int :=
  day - day / 1460 + day / 36524 - day / 146096

def yearOfDay (day : Int) : Int :=
  daysWithoutLeap day / 365

theorem daysWithoutLeap_mono {day later : Int} (order : day ≤ later) :
    daysWithoutLeap day ≤ daysWithoutLeap later := by
  have step : ∀ day, daysWithoutLeap day ≤ daysWithoutLeap (day + 1) := by
    intro day
    unfold daysWithoutLeap
    omega
  exact monotone_int_of_le_succ step order

theorem daysWithoutLeap_startOfYear :
    ∀ year : Fin 400, 365 * (year : Int) ≤ daysWithoutLeap (startOfYear year) ∧
      daysWithoutLeap (startOfYear (year + 1) - 1) < 365 * ((year : Int) + 1) := by
  decide +kernel

theorem yearOfDay_bounds {day : Int} (nonneg : 0 ≤ day) (inside : day < 146097) :
    0 ≤ yearOfDay day ∧ yearOfDay day < 400 := by
  have low : daysWithoutLeap 0 ≤ daysWithoutLeap day := daysWithoutLeap_mono nonneg
  have high : daysWithoutLeap day ≤ daysWithoutLeap 146096 :=
    daysWithoutLeap_mono (Int.le_of_lt_add_one inside)
  have first : daysWithoutLeap 0 = 0 := by decide
  have last : daysWithoutLeap 146096 = 145999 := by decide
  unfold yearOfDay
  omega

/-- A day lies in its year; the last day of a cycle is an additional one. -/
theorem startOfYear_yearOfDay {day : Int} (nonneg : 0 ≤ day) (inside : day < 146097) :
    startOfYear (yearOfDay day) ≤ day ∧
      (day < startOfYear (yearOfDay day + 1) ∨ yearOfDay day = 399 ∧ day = 146096) := by
  obtain ⟨low, high⟩ := yearOfDay_bounds nonneg inside
  obtain ⟨year, shown⟩ := Int.eq_ofNat_of_zero_le low
  have quotient : 365 * (year : Int) ≤ daysWithoutLeap day ∧
      daysWithoutLeap day < 365 * ((year : Int) + 1) := by
    unfold yearOfDay at shown
    omega
  rw [shown] at high ⊢
  constructor
  · refine Int.not_lt.1 fun before => ?_
    cases year with
    | zero =>
      have zero : startOfYear ((0 : Nat) : Int) = 0 := by decide
      omega
    | succ year =>
      have ends := (daysWithoutLeap_startOfYear ⟨year, by omega⟩).2
      have least : daysWithoutLeap day ≤ daysWithoutLeap (startOfYear ((year : Int) + 1) - 1) :=
        daysWithoutLeap_mono (by push_cast at before; omega)
      push_cast at quotient
      simp only at ends
      omega
  · rcases Int.lt_or_le day (startOfYear ((year : Int) + 1)) with before | after
    · exact Or.inl before
    · refine Or.inr ?_
      have most : daysWithoutLeap (startOfYear ((year : Int) + 1)) ≤ daysWithoutLeap day :=
        daysWithoutLeap_mono after
      rcases Nat.lt_or_ge (year + 1) 400 with earlier | last
      · have starts := (daysWithoutLeap_startOfYear ⟨year + 1, earlier⟩).1
        push_cast at starts
        omega
      · have final : year = 399 := by omega
        subst final
        have next : startOfYear (((399 : Nat) : Int) + 1) = 146096 := by decide
        omega

/-! ## Months -/

def monthFromMarch (dayOfYear : Int) : Int :=
  (5 * dayOfYear + 2) / 153

def monthOfDay (dayOfYear : Int) : Nat :=
  if monthFromMarch dayOfYear < 10 then (monthFromMarch dayOfYear + 3).toNat
  else (monthFromMarch dayOfYear - 9).toNat

def dayOfMonth (dayOfYear : Int) : Int :=
  dayOfYear - (153 * monthFromMarch dayOfYear + 2) / 5 + 1

/-- Only the additional day of a leap year does not exist in the year 1. -/
theorem monthOfDay_cases : ∀ day : Fin 366,
    0 ≤ monthFromMarch day ∧ monthFromMarch day ≤ 11 ∧
      1 ≤ monthOfDay day ∧ monthOfDay day ≤ 12 ∧ 1 ≤ dayOfMonth day ∧
      (dayOfMonth day ≤ daysInMonth 1 (monthOfDay day) ∨
        day = 365 ∧ monthOfDay day = 2 ∧ dayOfMonth day = 29) := by
  decide +kernel

theorem daysInMonth_le (year : Int) (month : Nat) :
    daysInMonth 1 month ≤ daysInMonth year month := by
  unfold daysInMonth
  split
  · rw [if_neg (by decide)]
    split <;> omega
  all_goals exact Nat.le_refl _

theorem isLeapYear_iff (year : Int) :
    isLeapYear year = true ↔ year % 4 = 0 ∧ (year % 100 ≠ 0 ∨ year % 400 = 0) := by
  simp [isLeapYear]

/-! ## The date of a number -/

def cycleDay (days : Int) : Int :=
  (days + epochOffset) % daysInCycle

def yearDay (days : Int) : Int :=
  cycleDay days - startOfYear (yearOfDay (cycleDay days))

/-- The year that a number falls into, counted from March. -/
def marchYear (days : Int) : Int :=
  (days + epochOffset) / daysInCycle * 400 + yearOfDay (cycleDay days)

theorem ofDays_eq (days : Int) :
    ofDays days =
      ⟨if monthFromMarch (yearDay days) < 10 then marchYear days else marchYear days + 1,
        monthOfDay (yearDay days), (dayOfMonth (yearDay days)).toNat⟩ := by
  have split : ofDays days =
      if monthFromMarch (yearDay days) < 10 then
        ⟨marchYear days, (monthFromMarch (yearDay days) + 3).toNat,
          (dayOfMonth (yearDay days)).toNat⟩
      else
        ⟨marchYear days + 1, (monthFromMarch (yearDay days) - 9).toNat,
          (dayOfMonth (yearDay days)).toNat⟩ :=
    rfl
  rw [split, monthOfDay]
  split <;> rfl

theorem cycleDay_bounds (days : Int) : 0 ≤ cycleDay days ∧ cycleDay days < 146097 := by
  unfold cycleDay daysInCycle
  omega

/-- A year that begins in March has 366 days if February has 29. -/
theorem isLeapYear_of_long {year day : Int} (low : 0 ≤ year) (high : year < 400)
    (long : startOfYear year + 365 ≤ day)
    (ends : day < startOfYear (year + 1) ∨ year = 399 ∧ day = 146096) (cycle : Int) :
    isLeapYear (cycle * 400 + year + 1) = true := by
  rw [isLeapYear_iff]
  unfold startOfYear at long ends
  rcases ends with before | ⟨rfl, rfl⟩
  · have fourth : (year + 1) / 4 = year / 4 + 1 := by omega
    have century : (year + 1) / 100 = year / 100 := by omega
    constructor
    · omega
    · refine Or.inl ?_
      omega
  · omega

theorem yearDay_bounds (days : Int) :
    0 ≤ yearDay days ∧ yearDay days ≤ 365 ∧
      (yearDay days = 365 → isLeapYear (marchYear days + 1) = true) := by
  obtain ⟨nonneg, inside⟩ := cycleDay_bounds days
  obtain ⟨low, high⟩ := yearOfDay_bounds nonneg inside
  obtain ⟨starts, ends⟩ := startOfYear_yearOfDay nonneg inside
  unfold yearDay
  refine ⟨by omega, ?_, fun long => isLeapYear_of_long low high (by omega) ends _⟩
  unfold startOfYear at *
  omega

theorem monthOfDay_yearDay (days : Int) :
    0 ≤ monthFromMarch (yearDay days) ∧ monthFromMarch (yearDay days) ≤ 11 ∧
      1 ≤ monthOfDay (yearDay days) ∧ monthOfDay (yearDay days) ≤ 12 ∧
      1 ≤ dayOfMonth (yearDay days) ∧
      (dayOfMonth (yearDay days) ≤ daysInMonth 1 (monthOfDay (yearDay days)) ∨
        yearDay days = 365 ∧ monthOfDay (yearDay days) = 2 ∧ dayOfMonth (yearDay days) = 29) := by
  obtain ⟨low, high, _⟩ := yearDay_bounds days
  obtain ⟨day, shown⟩ := Int.eq_ofNat_of_zero_le low
  have cases := monthOfDay_cases ⟨day, by omega⟩
  rw [shown]
  obtain ⟨first, last, one, twelve, begun, ends⟩ := cases
  refine ⟨first, last, one, twelve, begun, ?_⟩
  rcases ends with inside | ⟨final, rest⟩
  · exact Or.inl inside
  · have number : day = 365 := congrArg Fin.val final
    exact Or.inr ⟨by omega, rest⟩

theorem toDays_ofDays (days : Int) : (ofDays days).toDays = days := by
  obtain ⟨nonneg, inside⟩ := cycleDay_bounds days
  obtain ⟨low, high⟩ := yearOfDay_bounds nonneg inside
  obtain ⟨first, last, one, twelve, begun, _⟩ := monthOfDay_yearDay days
  have day : ((dayOfMonth (yearDay days)).toNat : Int) = dayOfMonth (yearDay days) :=
    Int.toNat_of_nonneg (by omega)
  have whole : cycleDay days = startOfYear (yearOfDay (cycleDay days)) + yearDay days := by
    unfold yearDay
    omega
  have cycle : days + epochOffset = daysInCycle * ((days + epochOffset) / daysInCycle) +
      cycleDay days := (Int.mul_ediv_add_emod _ _).symm
  have number : ∀ year month : Int, year = marchYear days → month = monthFromMarch (yearDay days) →
      year / 400 * daysInCycle + (year % 400 * 365 + year % 400 / 4 - year % 400 / 100 +
        ((153 * month + 2) / 5 + dayOfMonth (yearDay days) - 1)) - epochOffset = days := by
    intro year month sameYear sameMonth
    have quotient : year / 400 = (days + epochOffset) / daysInCycle := by
      unfold marchYear at sameYear
      omega
    have remainder : year % 400 = yearOfDay (cycleDay days) := by
      unfold marchYear at sameYear
      omega
    rw [quotient, remainder, sameMonth]
    unfold startOfYear at whole
    unfold dayOfMonth
    unfold daysInCycle at cycle ⊢
    omega
  rw [ofDays_eq, toDays]
  simp only [day]
  by_cases spring : monthFromMarch (yearDay days) < 10
  · have late : ¬monthOfDay (yearDay days) ≤ 2 := by
      unfold monthOfDay
      rw [if_pos spring]
      omega
    rw [if_pos spring, if_neg late, if_neg late]
    refine number _ _ rfl ?_
    unfold monthOfDay
    rw [if_pos spring]
    omega
  · have early : monthOfDay (yearDay days) ≤ 2 := by
      unfold monthOfDay
      rw [if_neg spring]
      omega
    rw [if_neg spring, if_pos early, if_pos early]
    refine number _ _ (by omega) ?_
    unfold monthOfDay
    rw [if_neg spring]
    omega

theorem marchYear_eq (days : Int) :
    days + epochOffset = 365 * marchYear days + marchYear days / 4 - marchYear days / 100 +
      marchYear days / 400 + yearDay days := by
  obtain ⟨nonneg, inside⟩ := cycleDay_bounds days
  obtain ⟨low, high⟩ := yearOfDay_bounds nonneg inside
  have cycle : days + epochOffset = 146097 * ((days + epochOffset) / daysInCycle) +
      cycleDay days := (Int.mul_ediv_add_emod _ _).symm
  unfold yearDay marchYear startOfYear
  omega

/-- The days from the first one of the calendar to the last. -/
theorem isValid_ofDays {days : Int} (low : (Date.mk firstYear 1 1).toDays ≤ days)
    (high : days ≤ (Date.mk lastYear 12 31).toDays) : (ofDays days).isValid = true := by
  have least : (Date.mk firstYear 1 1).toDays = -96465292 := by decide
  have greatest : (Date.mk lastYear 12 31).toDays = 95026236 := by decide
  obtain ⟨first, last, one, twelve, begun, ends⟩ := monthOfDay_yearDay days
  obtain ⟨nonneg, long, leap⟩ := yearDay_bounds days
  have number := marchYear_eq days
  rw [ofDays_eq, isValid]
  unfold epochOffset at number
  have inYears : firstYear ≤ (if monthFromMarch (yearDay days) < 10 then marchYear days
        else marchYear days + 1) ∧
      (if monthFromMarch (yearDay days) < 10 then marchYear days
        else marchYear days + 1) ≤ lastYear := by
    -- The first and the last year from March on are not whole.
    have notBefore : -262144 ≤ marchYear days := by omega
    have notAfter : marchYear days ≤ 262142 := by omega
    have starts : marchYear days = -262144 → 306 ≤ yearDay days := by
      intro same
      rw [same] at number
      omega
    have stops : marchYear days = 262142 → yearDay days ≤ 305 := by
      intro same
      rw [same] at number
      omega
    unfold monthFromMarch firstYear lastYear
    split
    · omega
    · omega
  have inMonth : (dayOfMonth (yearDay days)).toNat ≤
      daysInMonth (if monthFromMarch (yearDay days) < 10 then marchYear days
        else marchYear days + 1) (monthOfDay (yearDay days)) := by
    rcases ends with inside | ⟨final, february, day⟩
    · have least := daysInMonth_le (if monthFromMarch (yearDay days) < 10 then marchYear days
        else marchYear days + 1) (monthOfDay (yearDay days))
      omega
    · have late : ¬monthFromMarch (yearDay days) < 10 := by
        rw [final]
        decide
      rw [if_neg late, february, day, daysInMonth, leap final]
      decide
  simp only [Bool.and_eq_true, decide_eq_true_eq]
  exact ⟨⟨⟨⟨⟨inYears.1, inYears.2⟩, one⟩, twelve⟩, by omega⟩, inMonth⟩

end MetricQuery.Date
