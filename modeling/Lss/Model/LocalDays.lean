import Lss.Library.Blocks
import Lss.Model.Text

/-!
# Local days

A time zone says at which second every calendar day starts: the days of a zone with summer time
have 23, 24 or 25 hours. The calendar is the Gregorian one, its days and months counted from
1970 on, its years carried backwards and forwards without end.
-/

set_option autoImplicit false

namespace Lss.Model

open Lss.Library

/-! ## The calendar -/

/-- The days before a year of the count, which begins in March, so that the leap day is its
last one. -/
def yearDays (year : ℤ) : ℤ := 365 * year + year / 4 - year / 100 + year / 400

/-- The day a month starts with. -/
def monthFirst (month : ℤ) : ℤ :=
  yearDays ((month - 2) / 12) + (153 * ((month - 2) % 12) + 2) / 5 - 719468

/-- A month that starts at most a month before a day, or a month after it. -/
def monthGuess (day : ℤ) : ℤ := (day + 719468) * 4800 / 146097 + 2

/-- The month of a day, counted from the month January of the year nought. -/
def monthOf (day : ℤ) : ℤ :=
  let guess := monthGuess day
  if day < monthFirst guess then guess - 1
  else if day < monthFirst (guess + 1) then guess
  else guess + 1

theorem yearDays_add_one (year : ℤ) :
    yearDays year + 365 ≤ yearDays (year + 1) ∧ yearDays (year + 1) ≤ yearDays year + 366 := by
  unfold yearDays
  omega

theorem monthFirst_add_one (month : ℤ) :
    monthFirst month + 28 ≤ monthFirst (month + 1) ∧
      monthFirst (month + 1) ≤ monthFirst month + 31 := by
  unfold monthFirst
  by_cases hlast : (month - 2) % 12 = 11
  · have hyear : (month + 1 - 2) / 12 = (month - 2) / 12 + 1 := by omega
    have hmonth : (month + 1 - 2) % 12 = 0 := by omega
    have hstep := yearDays_add_one ((month - 2) / 12)
    rw [hyear, hmonth, hlast]
    omega
  · have hyear : (month + 1 - 2) / 12 = (month - 2) / 12 := by omega
    have hmonth : (month + 1 - 2) % 12 = (month - 2) % 12 + 1 := by omega
    rw [hyear, hmonth]
    omega

theorem yearDays_bounds (year : ℤ) :
    146097 * year - 1000 ≤ 400 * yearDays year ∧ 400 * yearDays year ≤ 146097 * year + 1000 := by
  unfold yearDays
  omega

/-- Four thousand and eight hundred months have 146097 days, and no month is far from where
equal months would put it. -/
theorem monthFirst_bounds (month : ℤ) :
    146097 * (month - 2) - 30000 ≤ 4800 * (monthFirst month + 719468) ∧
      4800 * (monthFirst month + 719468) ≤ 146097 * (month - 2) + 30000 := by
  have hyear := yearDays_bounds ((month - 2) / 12)
  unfold monthFirst
  omega

theorem monthOf_bracket (day : ℤ) :
    monthFirst (monthOf day) ≤ day ∧ day < monthFirst (monthOf day + 1) := by
  have hbefore : monthFirst (monthGuess day - 1) ≤ day := by
    have hbounds := monthFirst_bounds (monthGuess day - 1)
    unfold monthGuess at *
    omega
  have hafter : day < monthFirst (monthGuess day + 2) := by
    have hbounds := monthFirst_bounds (monthGuess day + 2)
    unfold monthGuess at *
    omega
  unfold monthOf
  dsimp only
  split
  · rw [sub_add_cancel]
    omega
  · split
    · omega
    · rw [show monthGuess day + 1 + 1 = monthGuess day + 2 by ring]
      omega

/-- The months, as blocks of days. -/
def months : Blocks :=
  Blocks.ofBrackets monthFirst monthOf
    (fun month => by
      have hlength := monthFirst_add_one month
      omega)
    monthOf_bracket

def dayOfMonth (day : ℤ) : ℤ := day - monthFirst (monthOf day) + 1

def yearOf (day : ℤ) : ℤ := monthOf day / 12

def dayOfYear (day : ℤ) : ℤ := day - monthFirst (12 * yearOf day) + 1

/-- The day of the week, Monday the first. -/
def weekday (day : ℤ) : ℤ := (day + 3) % 7 + 1

/-- How many days a month has. -/
def monthDays (month : ℤ) : ℤ := monthFirst (month + 1) - monthFirst month

/-- The 29th of February 2024 was a Thursday, and the day after it the first of March. -/
example : (yearOf 19782, monthOf 19782 % 12 + 1, dayOfMonth 19782, weekday 19782) =
    (2024, 2, 29, 4) ∧ dayOfMonth 19783 = 1 := by
  decide

/-- The date of a day, such as 2024-02-29. -/
def fmtDate (day : ℤ) : String :=
  let year := yearOf day
  let digits := toString year.natAbs
  let padded := String.ofList (List.replicate (4 - digits.length) '0') ++ digits
  let sign := if year < 0 then "-" else if 9999 < year then "+" else ""
  sign ++ padded ++ "-" ++ twoDigits (monthOf day % 12 + 1) ++ "-" ++ twoDigits (dayOfMonth day)

/-! ## The zone -/

/-- A time zone: the seconds cut into local days. -/
abbrev Zone := Blocks

/-- The most recent local midnight at or before a time.
SOURCE: lss-core/src/timeutil.rs:51-59 -/
def Zone.localMidnight (zone : Zone) (now : ℤ) : ℤ := zone.start (zone.index now)

end Lss.Model
