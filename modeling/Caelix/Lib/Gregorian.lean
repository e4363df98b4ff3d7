import Mathlib.Tactic.IntervalCases
import Mathlib.Tactic.Ring

/-!
# The proleptic Gregorian calendar

Dates of the Gregorian calendar, extended to all years, and their number counted from
1 January 1970.

* `Date`: a year, a month and a day that exists in this month.
* `daysFromCivil_next`: the number of the next date is the next number.
* `daysFromCivil_march`: the same number in years that begin in March, which end with their
  leap day.
* `daysFromCivil_injective`, `EraDay.exists_date`: each number is that of one date, whose
  year is found in the era of 400 years around the day.
-/

namespace Gregorian

def isLeapYear (year : Int) : Bool := year % 4 = 0 && (year % 100 ≠ 0 || year % 400 = 0)

def daysInMonth (year : Int) (month : Nat) : Nat :=
  if month = 2 then if isLeapYear year then 29 else 28
  else if month = 4 ∨ month = 6 ∨ month = 9 ∨ month = 11 then 30
  else 31

@[ext] structure Date where
  year : Int
  month : Nat
  day : Nat
  month_pos : 1 ≤ month
  month_le : month ≤ 12
  day_pos : 1 ≤ day
  day_le : day ≤ daysInMonth year month
  deriving DecidableEq, Repr

theorem daysInMonth_pos (year : Int) (month : Nat) : 1 ≤ daysInMonth year month := by
  unfold daysInMonth
  split <;> split <;> omega

theorem daysInMonth_le (year : Int) (month : Nat) : daysInMonth year month ≤ 31 := by
  unfold daysInMonth
  split <;> split <;> omega

/-- The day after a date. -/
def Date.next (date : Date) : Date :=
  if hDay : date.day < daysInMonth date.year date.month then
    ⟨date.year, date.month, date.day + 1, date.month_pos, date.month_le, Nat.le_add_left .., hDay⟩
  else if hMonth : date.month < 12 then
    ⟨date.year, date.month + 1, 1, Nat.le_add_left .., hMonth, le_rfl, daysInMonth_pos ..⟩
  else
    ⟨date.year + 1, 1, 1, le_rfl, by decide, le_rfl, daysInMonth_pos ..⟩

/-! ## Counting days -/

/-- The days from 1 January of year 1 to 1 January of a year. -/
def daysBeforeYear (year : Int) : Int :=
  365 * (year - 1) + (year - 1) / 4 - (year - 1) / 100 + (year - 1) / 400

/-- The days of a year before a month. -/
def daysBeforeMonth (year : Int) (month : Nat) : Nat :=
  ((List.range (month - 1)).map fun m => daysInMonth year (m + 1)).sum

/-- The days from 1 January 1970 to a date. -/
def Date.daysFromCivil (date : Date) : Int :=
  daysBeforeYear date.year - daysBeforeYear 1970 + daysBeforeMonth date.year date.month +
    (date.day - 1)

example : Date.daysFromCivil ⟨2000, 3, 1, by decide, by decide, by decide, by decide⟩ = 11017 := by
  decide

/-- The additional day of a leap year. -/
def leapDay (year : Int) : Nat := if isLeapYear year then 1 else 0

theorem leapDay_eq (year : Int) :
    (leapDay year : Int) = year / 4 - (year - 1) / 4 - (year / 100 - (year - 1) / 100) +
      (year / 400 - (year - 1) / 400) := by
  unfold leapDay isLeapYear
  split
  · next h =>
    simp only [Bool.and_eq_true, Bool.or_eq_true, decide_eq_true_eq] at h
    omega
  · next h =>
    simp only [Bool.and_eq_true, Bool.or_eq_true, decide_eq_true_eq] at h
    omega

theorem daysBeforeYear_succ (year : Int) :
    daysBeforeYear (year + 1) = daysBeforeYear year + 365 + leapDay year := by
  have hLeap := leapDay_eq year
  unfold daysBeforeYear
  rw [show year + 1 - 1 = year by omega]
  omega

theorem daysBeforeMonth_succ (year : Int) {month : Nat} (h : 1 ≤ month) :
    daysBeforeMonth year (month + 1) = daysBeforeMonth year month + daysInMonth year month := by
  obtain ⟨month, rfl⟩ := Nat.exists_eq_add_of_le' h
  simp [daysBeforeMonth, List.range_succ]

theorem daysInMonth_february (year : Int) : daysInMonth year 2 = 28 + leapDay year := by
  unfold daysInMonth leapDay
  rw [if_pos rfl]
  split <;> rfl

/-- The days before a month, once the leap day is behind. -/
theorem daysBeforeMonth_march (year : Int) {month : Nat} (hMarch : 3 ≤ month) (hLe : month ≤ 12) :
    daysBeforeMonth year month = (153 * (month - 3) + 2) / 5 + 59 + leapDay year := by
  have hFebruary := daysInMonth_february year
  interval_cases month <;>
    simp [daysBeforeMonth, List.range_succ, hFebruary] <;> simp [daysInMonth] <;> omega

theorem daysBeforeMonth_winter (year : Int) {month : Nat} (hPos : 1 ≤ month) (hLe : month ≤ 2) :
    daysBeforeMonth year month + 306 = (153 * (month + 9) + 2) / 5 := by
  interval_cases month <;> rfl

theorem Date.daysFromCivil_next (date : Date) : date.next.daysFromCivil = date.daysFromCivil + 1 := by
  have hPos := date.month_pos
  have hLe := date.month_le
  have hDayLe := date.day_le
  unfold Date.next
  split
  · unfold Date.daysFromCivil
    push_cast
    omega
  · next hDay =>
    have hLast : date.day = daysInMonth date.year date.month := by omega
    split
    · unfold Date.daysFromCivil
      dsimp only
      rw [daysBeforeMonth_succ _ hPos, hLast]
      push_cast
      omega
    · next hMonth =>
      have hDecember : date.month = 12 := by omega
      have hDays : daysInMonth date.year 12 = 31 := rfl
      have hBefore : daysBeforeMonth date.year 12 = 334 + leapDay date.year :=
        daysBeforeMonth_march date.year (by decide) le_rfl
      have hJanuary : daysBeforeMonth (date.year + 1) 1 = 0 := rfl
      unfold Date.daysFromCivil
      dsimp only
      rw [daysBeforeYear_succ, hLast, hDecember, hDays, hBefore, hJanuary]
      push_cast
      omega

/-! ## Years that begin in March -/

/-- The days from 1 March of year 0 to 1 March of a year. -/
def daysBeforeMarch (year : Int) : Int := 365 * year + year / 4 - year / 100 + year / 400

/-- The days of a year that begins in March before its month; March is month 0. -/
def daysBeforeMarchMonth (month : Int) : Int := (153 * month + 2) / 5

def monthFromMarch (month : Nat) : Int := if month ≤ 2 then month + 9 else month - 3

def Date.marchMonth (date : Date) : Int := monthFromMarch date.month

/-- The year that begins in March and holds a date. -/
def Date.marchYear (date : Date) : Int := if date.month ≤ 2 then date.year - 1 else date.year

theorem daysBeforeMarch_eq (year : Int) :
    daysBeforeMarch year = daysBeforeYear year + 365 + leapDay year := by
  have hNext := daysBeforeYear_succ year
  unfold daysBeforeMarch
  unfold daysBeforeYear at hNext ⊢
  rw [show year + 1 - 1 = year by omega] at hNext
  omega

/-- The year that begins in March ends with the leap day of the next year. -/
theorem daysBeforeMarch_succ (year : Int) :
    daysBeforeMarch (year + 1) = daysBeforeMarch year + 365 + leapDay (year + 1) := by
  rw [daysBeforeMarch_eq (year + 1), daysBeforeYear_succ, daysBeforeMarch_eq]

theorem daysBeforeMarch_mono {year later : Int} (h : year ≤ later) :
    daysBeforeMarch year ≤ daysBeforeMarch later := by
  unfold daysBeforeMarch
  omega

/-- Each 400 years have the same days. -/
theorem daysBeforeMarch_era (year era : Int) :
    daysBeforeMarch (year + era * 400) = daysBeforeMarch year + era * 146097 := by
  unfold daysBeforeMarch
  omega

theorem leapDay_le (year : Int) : leapDay year ≤ 1 := by
  unfold leapDay
  split <;> omega

theorem Date.daysFromCivil_march (date : Date) :
    date.daysFromCivil + 719468 =
      daysBeforeMarch date.marchYear + daysBeforeMarchMonth date.marchMonth + (date.day - 1) := by
  have hEpoch : daysBeforeYear 1970 = 719162 := by decide
  unfold Date.daysFromCivil Date.marchYear Date.marchMonth monthFromMarch daysBeforeMarchMonth
  rw [hEpoch]
  split
  · next hWinter =>
    have hBefore := daysBeforeMonth_winter date.year date.month_pos hWinter
    have hYear := daysBeforeMarch_eq (date.year - 1)
    have hNext := daysBeforeYear_succ (date.year - 1)
    rw [show date.year - 1 + 1 = date.year by omega] at hNext
    omega
  · next hMarch =>
    have hBefore := daysBeforeMonth_march date.year (by omega) date.month_le
    have hYear := daysBeforeMarch_eq date.year
    omega

theorem daysInMonth_eq (year : Int) {month : Nat} (hPos : 1 ≤ month) (hLe : month ≤ 12)
    (hOther : month ≠ 2) :
    (daysInMonth year month : Int) =
      daysBeforeMarchMonth (monthFromMarch month + 1) - daysBeforeMarchMonth (monthFromMarch month) := by
  interval_cases month <;> first | rfl | exact absurd rfl hOther

/-- The days of a month end before those of the next month, and in the same year. -/
theorem Date.day_march (date : Date) :
    daysBeforeMarchMonth date.marchMonth + (date.day - 1) <
        daysBeforeMarchMonth (date.marchMonth + 1) ∧
      daysBeforeMarchMonth date.marchMonth + (date.day - 1) < 365 + leapDay (date.marchYear + 1) := by
  have hDay := date.day_le
  have hLe := date.month_le
  by_cases hFebruary : date.month = 2
  · have hYear : date.marchYear + 1 = date.year := by
      rw [Date.marchYear, if_pos (by omega)]
      omega
    have hMonth : date.marchMonth = 11 := by rw [Date.marchMonth, hFebruary]; rfl
    have hLeap := leapDay_le date.year
    rw [hFebruary, daysInMonth_february] at hDay
    rw [hYear, hMonth]
    unfold daysBeforeMarchMonth
    omega
  · have hLength := daysInMonth_eq date.year date.month_pos hLe hFebruary
    have hMonth : date.marchMonth ≤ 10 := by
      unfold Date.marchMonth monthFromMarch
      split <;> omega
    have hNext : daysBeforeMarchMonth (date.marchMonth + 1) ≤ 337 := by
      unfold daysBeforeMarchMonth
      omega
    rw [← Date.marchMonth] at hLength
    omega

theorem Date.marchMonth_nonneg (date : Date) : 0 ≤ date.marchMonth := by
  unfold Date.marchMonth monthFromMarch
  split <;> omega

theorem Date.month_eq_march (date : Date) :
    (date.month : Int) = date.marchMonth + if date.marchMonth < 10 then 3 else -9 := by
  have hPos := date.month_pos
  have hLe := date.month_le
  unfold Date.marchMonth monthFromMarch
  split <;> split <;> omega

theorem Date.year_eq_march (date : Date) :
    date.year = date.marchYear + if (date.month : Int) ≤ 2 then 1 else 0 := by
  unfold Date.marchYear
  split <;> split <;> omega

/-! ## The days are the integers -/

theorem Date.ext_march {date other : Date} (hYear : date.marchYear = other.marchYear)
    (hMonth : date.marchMonth = other.marchMonth) (hDay : date.day = other.day) : date = other := by
  have hSame : date.month = other.month := by
    have hDate := date.month_eq_march
    rw [hMonth, ← other.month_eq_march] at hDate
    exact Int.ofNat_inj.mp hDate
  refine Date.ext ?_ hSame hDay
  rw [date.year_eq_march, other.year_eq_march, hYear, hSame]

theorem Date.day_pos_march (date : Date) : 0 ≤ daysBeforeMarchMonth date.marchMonth + (date.day - 1) := by
  have hPos := date.day_pos
  have hMonth := date.marchMonth_nonneg
  unfold daysBeforeMarchMonth
  omega

/-- Dates in different years that begin in March have different numbers. -/
theorem Date.marchYear_le {date other : Date} (h : date.daysFromCivil ≤ other.daysFromCivil) :
    date.marchYear ≤ other.marchYear := by
  by_contra hLater
  have hMono := daysBeforeMarch_mono (show other.marchYear + 1 ≤ date.marchYear by omega)
  have hDate := date.daysFromCivil_march
  have hOther := other.daysFromCivil_march
  have hFirst := date.day_pos_march
  have hLast := other.day_march.2
  have hYear := daysBeforeMarch_succ other.marchYear
  omega

theorem Date.marchMonth_le {date other : Date} (hYear : date.marchYear = other.marchYear)
    (h : date.daysFromCivil ≤ other.daysFromCivil) : date.marchMonth ≤ other.marchMonth := by
  by_contra hLater
  have hDate := date.daysFromCivil_march
  have hOther := other.daysFromCivil_march
  have hPos := date.day_pos
  have hLast := other.day_march.1
  rw [hYear] at hDate
  have hMono : daysBeforeMarchMonth (other.marchMonth + 1) ≤ daysBeforeMarchMonth date.marchMonth := by
    unfold daysBeforeMarchMonth
    omega
  omega

theorem Date.daysFromCivil_injective {date other : Date}
    (h : date.daysFromCivil = other.daysFromCivil) : date = other := by
  have hYear : date.marchYear = other.marchYear :=
    le_antisymm (Date.marchYear_le h.le) (Date.marchYear_le h.ge)
  have hMonth : date.marchMonth = other.marchMonth :=
    le_antisymm (Date.marchMonth_le hYear h.le) (Date.marchMonth_le hYear.symm h.ge)
  refine Date.ext_march hYear hMonth ?_
  have hDate := date.daysFromCivil_march
  have hOther := other.daysFromCivil_march
  rw [hYear, hMonth] at hDate
  omega

theorem exists_month {month : Int} (hFirst : 0 ≤ month) (hLast : month ≤ 11) :
    ∃ m : Nat, 1 ≤ m ∧ m ≤ 12 ∧ monthFromMarch m = month := by
  unfold monthFromMarch
  by_cases h : month < 10
  · refine ⟨(month + 3).toNat, by omega, by omega, ?_⟩
    rw [if_neg (by omega)]
    omega
  · refine ⟨(month - 9).toNat, by omega, by omega, ?_⟩
    rw [if_pos (by omega)]
    omega

/-- The date of a day of a year that begins in March. -/
theorem exists_date_march {year day : Int} (hFirst : 0 ≤ day)
    (hLast : day < 365 + leapDay (year + 1)) :
    ∃ date : Date, date.marchYear = year ∧ date.marchMonth = (5 * day + 2) / 153 ∧
      date.day = day - daysBeforeMarchMonth ((5 * day + 2) / 153) + 1 := by
  have hLeap := leapDay_le (year + 1)
  obtain ⟨month, hMonth⟩ : ∃ month, month = (5 * day + 2) / 153 := ⟨_, rfl⟩
  rw [← hMonth]
  have hFrom : daysBeforeMarchMonth month ≤ day := by
    unfold daysBeforeMarchMonth
    omega
  have hTo : day < daysBeforeMarchMonth (month + 1) := by
    unfold daysBeforeMarchMonth
    omega
  have hRange : 0 ≤ month ∧ month ≤ 11 := by omega
  obtain ⟨dayOfMonth, hDay⟩ : ∃ n : Nat, (n : Int) = day - daysBeforeMarchMonth month + 1 :=
    ⟨(day - daysBeforeMarchMonth month + 1).toNat, by omega⟩
  rw [← hDay]
  by_cases hFebruary : month = 11
  · subst hFebruary
    refine ⟨⟨year + 1, 2, dayOfMonth, by decide, by decide, by omega, ?_⟩, ?_, rfl, rfl⟩
    · rw [daysInMonth_february]
      unfold daysBeforeMarchMonth at hDay
      omega
    · exact add_sub_cancel_right year 1
  · obtain ⟨civilMonth, hPos, hLe, hCivil⟩ := exists_month hRange.1 hRange.2
    have hOther : civilMonth ≠ 2 := by
      rintro rfl
      exact hFebruary hCivil.symm
    have hLength := fun year => daysInMonth_eq year hPos hLe hOther
    rw [hCivil] at hLength
    by_cases hWinter : civilMonth ≤ 2
    · refine ⟨⟨year + 1, civilMonth, dayOfMonth, hPos, hLe, by omega, ?_⟩, ?_, hCivil, rfl⟩
      · have := hLength (year + 1)
        omega
      · rw [Date.marchYear, if_pos hWinter]
        exact add_sub_cancel_right year 1
    · refine ⟨⟨year, civilMonth, dayOfMonth, hPos, hLe, by omega, ?_⟩, ?_, hCivil, rfl⟩
      · have := hLength year
        omega
      · rw [Date.marchYear, if_neg hWinter]

/-- A day of an era of 400 years: its century, the four years within the century, the year
within these, and the day of the year. The last day of a century of four years, and of four
years, is a leap day. -/
structure EraDay (day century four single rest : Int) : Prop where
  century_nonneg : 0 ≤ century
  century_le : century ≤ 3
  four_nonneg : 0 ≤ four
  four_le : four ≤ 24
  single_nonneg : 0 ≤ single
  single_le : single ≤ 3
  day_eq : day = 36524 * century + 1461 * four + 365 * single + rest
  rest_nonneg : 0 ≤ rest
  rest_le : rest < 365 ∨ rest = 365 ∧ single = 3 ∧ (four < 24 ∨ century = 3)

theorem exists_eraDay {day : Int} (hFirst : 0 ≤ day) (hLast : day < 146097) :
    ∃ century four single rest, EraDay day century four single rest := by
  obtain ⟨century, inCentury, hCentury, hCenturyLe, hInCentury, hCenturyRest, hCenturyEnd⟩ :
      ∃ c r : Int, 0 ≤ c ∧ c ≤ 3 ∧ day = 36524 * c + r ∧ 0 ≤ r ∧
        (r < 36524 ∨ r = 36524 ∧ c = 3) := by
    by_cases hLeap : day = 146096
    · exact ⟨3, 36524, by omega⟩
    · exact ⟨day / 36524, day % 36524, by omega⟩
  obtain ⟨four, inFour, hFour, hFourLe, hInFour, hFourRest, hFourEnd⟩ :
      ∃ q r : Int, 0 ≤ q ∧ q ≤ 24 ∧ inCentury = 1461 * q + r ∧ 0 ≤ r ∧
        (r < 1460 ∨ r = 1460 ∧ (q < 24 ∨ century = 3)) :=
    ⟨inCentury / 1461, inCentury % 1461, by omega⟩
  obtain ⟨single, rest, hSingle, hSingleLe, hInSingle, hRest, hSingleEnd⟩ :
      ∃ s r : Int, 0 ≤ s ∧ s ≤ 3 ∧ inFour = 365 * s + r ∧ 0 ≤ r ∧
        (r < 365 ∨ r = 365 ∧ s = 3 ∧ inFour = 1460) := by
    by_cases hLeap : inFour = 1460
    · exact ⟨3, 365, by omega⟩
    · exact ⟨inFour / 365, inFour % 365, by omega⟩
  exact ⟨century, four, single, rest, hCentury, hCenturyLe, hFour, hFourLe, hSingle, hSingleLe,
    by omega, hRest, by omega⟩

section EraDay

variable {day century four single rest : Int}

theorem EraDay.year_nonneg (h : EraDay day century four single rest) :
    0 ≤ 100 * century + 4 * four + single := by
  obtain ⟨_, _, _, _, _, _, _, _, _⟩ := h
  omega

theorem EraDay.year_lt (h : EraDay day century four single rest) :
    100 * century + 4 * four + single < 400 := by
  obtain ⟨_, _, _, _, _, _, _, _, _⟩ := h
  omega

theorem EraDay.rest_le_year (h : EraDay day century four single rest) : rest ≤ 365 := by
  obtain ⟨_, _, _, _, _, _, _, _, hRest⟩ := h
  omega

theorem EraDay.daysBeforeMarch (h : EraDay day century four single rest) :
    daysBeforeMarch (100 * century + 4 * four + single) = day - rest := by
  obtain ⟨_, _, _, _, _, _, hDay, _, _⟩ := h
  have hFours : (100 * century + 4 * four + single) / 4 = 25 * century + four := by omega
  have hCenturies : (100 * century + 4 * four + single) / 100 = century := by omega
  have hEras : (100 * century + 4 * four + single) / 400 = 0 := by omega
  rw [Gregorian.daysBeforeMarch, hFours, hCenturies, hEras]
  omega

theorem EraDay.rest_lt (h : EraDay day century four single rest) :
    rest < 365 + leapDay (100 * century + 4 * four + single + 1) := by
  have hLeap := leapDay_eq (100 * century + 4 * four + single + 1)
  obtain ⟨_, _, _, _, _, _, _, _, hRest⟩ := h
  rcases hRest with hRest | ⟨hRest, hSingle, hYear⟩
  · omega
  · have hLater : leapDay (100 * century + 4 * four + single + 1) = 1 := by
      unfold leapDay isLeapYear
      rw [if_pos]
      simp only [Bool.and_eq_true, Bool.or_eq_true, decide_eq_true_eq]
      omega
    omega

end EraDay

theorem leapDay_era (year era : Int) : leapDay (year + era * 400) = leapDay year := by
  have hFour : (year + era * 400) % 4 = year % 4 := by omega
  have hCentury : (year + era * 400) % 100 = year % 100 := by omega
  have hEra : (year + era * 400) % 400 = year % 400 := by omega
  unfold leapDay isLeapYear
  rw [hFour, hCentury, hEra]

/-- The date of a day of an era. -/
theorem EraDay.exists_date {day century four single rest : Int}
    (h : EraDay day century four single rest) (era : Int) :
    ∃ date : Date, date.daysFromCivil + 719468 = era * 146097 + day ∧
      date.marchYear = 100 * century + 4 * four + single + era * 400 ∧
      date.marchMonth = (5 * rest + 2) / 153 ∧
      date.day = rest - daysBeforeMarchMonth ((5 * rest + 2) / 153) + 1 := by
  have hRest := h.rest_lt
  rw [← leapDay_era _ era, show ∀ year : Int, year + 1 + era * 400 = year + era * 400 + 1 by
    intro year
    omega] at hRest
  obtain ⟨date, hYear, hMonth, hDay⟩ := exists_date_march h.rest_nonneg hRest
  refine ⟨date, ?_, hYear, hMonth, hDay⟩
  rw [date.daysFromCivil_march, hYear, hMonth, hDay, daysBeforeMarch_era, h.daysBeforeMarch]
  omega

end Gregorian
