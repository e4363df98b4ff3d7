import Caelix.Lib.Checked
import Caelix.Lib.Gregorian
import Caelix.Core.Clock

/-!
# The dates in the log

`current_timestamp` and `civil_from_days` of `logging.rs`. Divisions of `i64` truncate; those
here are by positive constants, so only sums, differences and products can overflow.

* `yearOfEra_eq`: the corrections by the days of 4, 100 and 400 years give the year of an era.
* `civilFromDays_date`: the body for one day.
* `civilFromDays_gregorian`: the dates of all days, and the timestamps.
-/

namespace Caelix

open Checked Gregorian

/-! ## The code -/

def i64 {ρ : Type} (n : Int) : Body ρ Int := signed 64 n

/-- A cast to `u32`. -/
def asU32 (n : Int) : Nat := (n % 2 ^ 32).toNat

/-- A cast to `i64`. -/
def asI64 (n : Nat) : Int := (n : Int).bmod (2 ^ 64)

def civilFromDays (daysSinceEpoch : Int) : Body (Int × Nat × Nat) (Int × Nat × Nat) := do
  let z ← i64 (daysSinceEpoch + 719468)
  let shifted ← (if 0 ≤ z then .ok z else i64 (z - 146096))
  let era := shifted.tdiv 146097
  let doe ← i64 (z - (← i64 (era * 146097)))
  let days ← i64 (doe - doe.tdiv 1460)
  let days ← i64 (days + doe.tdiv 36524)
  let days ← i64 (days - doe.tdiv 146096)
  let yoe := days.tdiv 365
  let year ← i64 (yoe + (← i64 (era * 400)))
  let before ← i64 (365 * yoe)
  let before ← i64 (before + yoe.tdiv 4)
  let before ← i64 (before - yoe.tdiv 100)
  let doy ← i64 (doe - before)
  let mp := (← i64 ((← i64 (5 * doy)) + 2)).tdiv 153
  let first := (← i64 ((← i64 (153 * mp)) + 2)).tdiv 5
  let day ← i64 ((← i64 (doy - first)) + 1)
  let month ← i64 (mp + if mp < 10 then 3 else -9)
  let year ← i64 (year + if month ≤ 2 then 1 else 0)
  return (year, asU32 month, asU32 day)

/-- `{n:0width}` for a number that is not negative. -/
def padded (width n : Nat) : String :=
  String.ofList (List.replicate (width - (toString n).length) '0') ++ toString n

/-- `{n:0width}`: the sign counts as one character. -/
def paddedSigned (width : Nat) (n : Int) : String :=
  if n < 0 then "-" ++ padded (width - 1) n.natAbs else padded width n.natAbs

/-- The text of a date and a time. -/
def timestampText (date : Int × Nat × Nat) (secondsOfDay millis : Nat) : String :=
  let hour := secondsOfDay / 3600
  let minute := secondsOfDay % 3600 / 60
  let second := secondsOfDay % 60
  paddedSigned 4 date.1 ++ "-" ++ padded 2 date.2.1 ++ "-" ++ padded 2 date.2.2 ++ "T" ++
    padded 2 hour ++ ":" ++ padded 2 minute ++ ":" ++ padded 2 second ++ "." ++ padded 3 millis

/-- The day that `current_timestamp` asks for. -/
def epochDay (duration : Duration) : Int := asI64 (duration.asSecs / 86400)

/-- The timestamp of a reading of the system clock, as the time since the epoch. -/
def currentTimestamp (duration : Duration) : Except Panic String := do
  let date ← run (civilFromDays (epochDay duration))
  return timestampText date (duration.asSecs % 86400) (duration.subsecNanos / 1000000)

/-! ## The year of an era -/

theorem yearOfEra_eq {doe century four single rest : Int}
    (h : EraDay doe century four single rest) :
    (doe - doe / 1460 + doe / 36524 - doe / 146096) / 365 = 100 * century + 4 * four + single := by
  obtain ⟨hCentury, hCenturyLe, hFour, hFourLe, hSingle, hSingleLe, hDay, hFirst, hLast⟩ := h
  by_cases hEnd : doe = 146096
  · subst hEnd
    omega
  · have hCenturies : doe / 36524 = century := by omega
    have hEras : doe / 146096 = 0 := by omega
    rw [hCenturies, hEras]
    by_cases hLate : 24 * century + four + 365 * single + rest < 1460
    · have hFours : doe / 1460 = 25 * century + four := by omega
      rw [hFours]
      omega
    · have hFours : doe / 1460 = 25 * century + four + 1 := by omega
      rw [hFours]
      omega

/-! ## The body -/

theorem i64_bind {ρ α : Type} {n : Int} {next : Int → Body ρ α} (hLow : -2 ^ 63 ≤ n)
    (hHigh : n < 2 ^ 63) : (i64 n >>= next) = next n := by
  rw [i64, signed_ok hLow hHigh, ok_bind]

/-- The quotient by a positive number, rounded down. -/
theorem tdiv_shifted (z : Int) :
    (if 0 ≤ z then z else z - 146096).tdiv 146097 = z / 146097 := by
  split
  · next h => exact Int.tdiv_eq_ediv_of_nonneg h
  · next h =>
    have hSign : Int.sign 146097 = 1 := rfl
    rw [Int.tdiv_eq_ediv, hSign]
    split <;> omega

theorem shifted_ok {ρ : Type} {z : Int} (hLow : -2 ^ 62 ≤ z) :
    (if 0 ≤ z then .ok z else i64 (z - 146096) : Body ρ Int) =
      .ok (if 0 ≤ z then z else z - 146096) := by
  split
  · rfl
  · next h => exact signed_ok (by omega) (by omega)

/-- The body, once the year of the era and the day of this year are known. -/
theorem civilFromDays_eq {days doe era yoe doy : Int}
    (hDays : days + 719468 = era * 146097 + doe) (hRange : days.natAbs < 2 ^ 62) (hDoe : 0 ≤ doe)
    (hDoeLt : doe < 146097)
    (hYear : (doe - doe / 1460 + doe / 36524 - doe / 146096) / 365 = yoe) (hYoe : 0 ≤ yoe)
    (hYoeLt : yoe < 400) (hDoy : doe - (365 * yoe + yoe / 4 - yoe / 100) = doy) (hDoyPos : 0 ≤ doy) (hDoyLe : doy ≤ 365) :
    civilFromDays days =
      let mp := (5 * doy + 2) / 153
      let month := mp + if mp < 10 then 3 else -9
      .ok (yoe + era * 400 + (if month ≤ 2 then 1 else 0), asU32 month,
        asU32 (doy - daysBeforeMarchMonth mp + 1)) := by
  have hEra : (days + 719468) / 146097 = era := by omega
  have hTrunc : ∀ {n : Int} (m : Int), 0 ≤ n → n.tdiv m = n / m := fun m h =>
    Int.tdiv_eq_ediv_of_nonneg h
  unfold civilFromDays
  rw [i64_bind (by omega) (by omega), shifted_ok (by omega), ok_bind]
  dsimp only
  rw [tdiv_shifted, hEra, i64_bind (by omega) (by omega), i64_bind (by omega) (by omega)]
  rw [← eq_sub_iff_add_eq'.mpr hDays.symm]
  rw [hTrunc 1460 hDoe, hTrunc 36524 hDoe, hTrunc 146096 hDoe]
  rw [i64_bind (by omega) (by omega), i64_bind (by omega) (by omega),
    i64_bind (by omega) (by omega), hTrunc 365 (by omega), hYear]
  -- From here on only the year matters, not how it was found.
  clear hYear
  rw [i64_bind (by omega) (by omega), i64_bind (by omega) (by omega)]
  rw [hTrunc 4 hYoe, hTrunc 100 hYoe]
  rw [i64_bind (by omega) (by omega), i64_bind (by omega) (by omega),
    i64_bind (by omega) (by omega), i64_bind (by omega) (by omega), hDoy]
  clear hDoy
  rw [i64_bind (by omega) (by omega), i64_bind (by omega) (by omega), hTrunc 153 (by omega)]
  rw [i64_bind (by omega) (by omega), i64_bind (by omega) (by omega), hTrunc 5 (by omega)]
  have hMonth : 1 ≤ (5 * doy + 2) / 153 + (if (5 * doy + 2) / 153 < 10 then 3 else -9) ∧
      (5 * doy + 2) / 153 + (if (5 * doy + 2) / 153 < 10 then 3 else -9) ≤ 12 := by
    split <;> omega
  rw [i64_bind (by omega) (by omega), i64_bind (by omega) (by omega),
    i64_bind (by omega) (by omega), i64_bind (by split <;> omega) (by split <;> omega)]
  rfl

/-- The fields of a date, as `civil_from_days` returns them. -/
def dateFields (date : Date) : Int × Nat × Nat := (date.year, date.month, date.day)

theorem asU32_natCast {n : Nat} (h : n < 2 ^ 32) : asU32 n = n := by
  unfold asU32
  omega

theorem civilFromDays_date {days : Int} (h : days.natAbs < 2 ^ 62) :
    ∃ date : Date, civilFromDays days = .ok (dateFields date) ∧ date.daysFromCivil = days := by
  obtain ⟨era, doe, hDays, hDoe, hDoeLt⟩ :
      ∃ era doe : Int, days + 719468 = era * 146097 + doe ∧ 0 ≤ doe ∧ doe < 146097 :=
    ⟨(days + 719468) / 146097, (days + 719468) % 146097, by omega⟩
  obtain ⟨century, four, single, rest, hEraDay⟩ := exists_eraDay hDoe hDoeLt
  obtain ⟨date, hNumber, hYear, hMonth, hDay⟩ := hEraDay.exists_date era
  refine ⟨date, ?_, by omega⟩
  have hNonneg := hEraDay.year_nonneg
  have hLt := hEraDay.year_lt
  have hDoy := hEraDay.daysBeforeMarch
  rw [daysBeforeMarch, Int.ediv_eq_zero_of_lt hNonneg hLt] at hDoy
  have hRest : doe - (365 * (100 * century + 4 * four + single) +
      (100 * century + 4 * four + single) / 4 - (100 * century + 4 * four + single) / 100) =
        rest := by omega
  rw [civilFromDays_eq hDays h hDoe hDoeLt (yearOfEra_eq hEraDay) hNonneg hLt hRest
    hEraDay.rest_nonneg hEraDay.rest_le_year]
  have hDateMonth := date.month_eq_march
  rw [hMonth] at hDateMonth
  have hMonthLe := date.month_le
  have hDayLe : date.day ≤ 31 := date.day_le.trans (daysInMonth_le ..)
  dsimp only
  rw [← hDateMonth, ← hDay, asU32_natCast (by omega), asU32_natCast (by omega), dateFields,
    date.year_eq_march, hYear]

/-! ## Days and timestamps -/

theorem epochDay_eq {duration : Duration} (h : duration ≤ Duration.max) :
    epochDay duration = (duration.asSecs / 86400 : Nat) ∧
      (epochDay duration).natAbs < 2 ^ 62 := by
  have hSecs : duration.asSecs < 2 ^ 64 := by
    unfold Duration.asSecs
    refine Nat.div_lt_of_lt_mul ?_
    refine Nat.lt_of_le_of_lt h ?_
    decide
  have hSame : epochDay duration = (duration.asSecs / 86400 : Nat) := by
    unfold epochDay asI64
    refine Int.bmod_eq_of_le ?_ ?_ <;> omega
  refine ⟨hSame, ?_⟩
  rw [hSame]
  omega

/-- For every day in range no operation overflows, and the result is a date of the
calendar, with the day as its number. It is the only date with this number, and the result
for the next day is the next date. The days of all timestamps are in range, so each
timestamp shows the date of its day. -/
theorem civilFromDays_gregorian :
    (∀ days : Int, days.natAbs < 2 ^ 62 → ∃ date : Date,
      run (civilFromDays days) = .ok (dateFields date) ∧
      date.daysFromCivil = days ∧
      (∀ other : Date, other.daysFromCivil = days → other = date) ∧
      ((days + 1).natAbs < 2 ^ 62 →
        run (civilFromDays (days + 1)) = .ok (dateFields date.next))) ∧
    ∀ duration : Duration, duration ≤ Duration.max →
      (epochDay duration).natAbs < 2 ^ 62 ∧
      ∃ date : Date, date.daysFromCivil = (duration.asSecs / 86400 : Nat) ∧
        currentTimestamp duration = .ok (timestampText (dateFields date)
          (duration.asSecs % 86400) (duration.subsecNanos / 1000000)) := by
  refine ⟨?_, ?_⟩
  · intro days hDays
    obtain ⟨date, hRun, hNumber⟩ := civilFromDays_date hDays
    refine ⟨date, by rw [hRun, run_ok], hNumber, ?_, ?_⟩
    · intro other hOther
      exact Date.daysFromCivil_injective (hOther.trans hNumber.symm)
    · intro hNext
      obtain ⟨next, hRunNext, hNumberNext⟩ := civilFromDays_date hNext
      have hSame : next = date.next := by
        refine Date.daysFromCivil_injective ?_
        rw [hNumberNext, Date.daysFromCivil_next, hNumber]
      rw [hRunNext, run_ok, hSame]
  · intro duration hDuration
    obtain ⟨hDay, hRange⟩ := epochDay_eq hDuration
    obtain ⟨date, hRun, hNumber⟩ := civilFromDays_date hRange
    refine ⟨hRange, date, hNumber.trans hDay, ?_⟩
    rw [currentTimestamp, hRun, run_ok]
    rfl

/-- 29 February 2000. -/
def leapDate : Date := ⟨2000, 2, 29, by decide, by decide, by decide, by decide⟩

theorem civilFromDays_gregorian_leap : run (civilFromDays 11016) = .ok (2000, 2, 29) := by
  obtain ⟨date, hRun, -, hOnly, -⟩ := civilFromDays_gregorian.1 11016 (by decide)
  have hLeap : leapDate = date := hOnly leapDate (by decide)
  rw [hRun, ← hLeap]
  rfl

end Caelix
