import Mathlib.Data.Rat.Defs
import Mathlib.Algebra.Order.Ring.Rat
import Std.Data.ExtTreeMap
import Lss.Library.Steps

/-!
# Electricity prices

A rate table says what a kilowatt hour costs at a time, either one flat number or by the hour,
the season and the kind of day. Power readings and energies of buckets are priced with it,
each at the price that applies at its own start.

The calendar of the machine is a parameter: it turns a timestamp into the local date and hour,
or says that it cannot.
-/

set_option autoImplicit false

namespace Lss.Model

open Lss.Library.Steps

/-- A local time, as far as a price depends on it. -/
structure LocalTime where
  year : ℤ
  month : ℕ
  day : ℕ
  hour : ℕ
  weekend : Bool

/-- The local time of a timestamp, when the machine's calendar has exactly one. -/
abbrev Calendar := ℤ → Option LocalTime

/-- SOURCE: lss-core/src/rates.rs:56-60 -/
structure DayContext where
  hour : ℕ
  isSummer : Bool
  isWeekendOrHoliday : Bool

/-- A named price window.
SOURCE: lss-core/src/rates.rs:21-32 -/
structure Period where
  name : String
  usdPerKwh : ℚ
  season : String
  dayKind : String
  startHour : ℕ
  endHour : ℕ

/-- SOURCE: lss-core/src/rates.rs:35-47 -/
def Period.matches (p : Period) (ctx : DayContext) : Bool :=
  let seasonOk :=
    if p.season = "summer" then ctx.isSummer
    else if p.season = "winter" then !ctx.isSummer
    else true
  let dayOk :=
    if p.dayKind = "weekday" then !ctx.isWeekendOrHoliday
    else if p.dayKind = "weekend_or_holiday" then ctx.isWeekendOrHoliday
    else true
  seasonOk && dayOk && p.startHour ≤ ctx.hour && ctx.hour < p.endHour

/-- SOURCE: lss-core/src/rates.rs:67-78 -/
inductive RatePlan where
  | flat (usdPerKwh : ℚ)
  | timeOfUse (summerStartMonth summerEndMonth : ℕ) (holidays : List String)
      (periods : List Period)

/-- The rate table, its holidays parsed.
SOURCE: lss-core/src/rates.rs:84-103 -/
structure RateTable where
  name : String := ""
  effectiveDate : String := ""
  plan : RatePlan
  fixedUsdPerDay : Option ℚ := none
  unresolvedUsdPerKwh : Option ℚ := none
  source : Option String := none
  /-- year, month and day -/
  holidays : List (ℤ × ℕ × ℕ) := []

namespace RateTable

/-- SOURCE: lss-core/src/rates.rs:129-131 -/
def isFlat (t : RateTable) : Bool :=
  match t.plan with
  | .flat _ => true
  | .timeOfUse .. => false

/-- The price of a kilowatt hour and the name of its period; nothing in a gap of the table.
SOURCE: lss-core/src/rates.rs:135-140 -/
def priceFor (t : RateTable) (ctx : DayContext) : Option (ℚ × String) :=
  match t.plan with
  | .flat usdPerKwh => some (usdPerKwh, "flat")
  | .timeOfUse _ _ _ periods =>
    (periods.find? fun p => p.matches ctx).map fun p => (p.usdPerKwh, p.name)

/-- SOURCE: lss-core/src/rates.rs:142-144 -/
def isHoliday (t : RateTable) (year : ℤ) (month day : ℕ) : Bool :=
  t.holidays.contains (year, month, day)

variable (calendar : Calendar)

/-- SOURCE: lss-core/src/rates.rs:149-161 -/
def dayContextAt (t : RateTable) (ts : ℤ) : Option DayContext :=
  (calendar ts).map fun dt =>
    let (summerStart, summerEnd) :=
      match t.plan with
      | .timeOfUse summerStart summerEnd _ _ => (summerStart, summerEnd)
      | .flat _ => (0, 0)
    { hour := dt.hour
      isSummer :=
        if summerStart < summerEnd then summerStart ≤ dt.month && dt.month < summerEnd else true
      isWeekendOrHoliday := dt.weekend || t.isHoliday dt.year dt.month dt.day }

/-- The price at a timestamp.
SOURCE: lss-core/src/rates.rs:164-167 -/
def usdPerKwhAt (t : RateTable) (ts : ℤ) : Option (ℚ × String) :=
  (t.dayContextAt calendar ts).bind t.priceFor

end RateTable

/-- A gap wider than this between two readings is not bridged.
SOURCE: lss-core/src/rates.rs:172 -/
def maxStepSecs : ℤ := 30

/-- What some energy cost.
SOURCE: lss-core/src/rates.rs:175-191 -/
structure CostBreakdown where
  kwh : ℚ := 0
  usd : ℚ := 0
  /-- energy and cost by the name of the period -/
  byPeriod : Std.ExtTreeMap String (ℚ × ℚ) := ∅
  intervalsPriced : ℕ := 0
  intervalsSkipped : ℕ := 0
  /-- the first time that was priced -/
  earliestTs : Option ℤ := none

namespace CostBreakdown

def skip (out : CostBreakdown) : CostBreakdown :=
  { out with intervalsSkipped := out.intervalsSkipped + 1 }

/-- Adds some energy that begins at `ts` and has a price.
SOURCE: lss-core/src/rates.rs:214-223 -/
def add (out : CostBreakdown) (ts : ℤ) (kwh price : ℚ) (name : String) : CostBreakdown :=
  let was := out.byPeriod.getD name (0, 0)
  { kwh := out.kwh + kwh
    usd := out.usd + kwh * price
    byPeriod := out.byPeriod.insert name (was.1 + kwh, was.2 + kwh * price)
    intervalsPriced := out.intervalsPriced + 1
    intervalsSkipped := out.intervalsSkipped
    earliestTs := out.earliestTs.or (some ts) }

/-- Adds some energy that begins at `ts`, at the price that applies there, if any. -/
def price (calendar : Calendar) (table : RateTable) (out : CostBreakdown) (ts : ℤ) (kwh : ℚ) :
    CostBreakdown :=
  match table.usdPerKwhAt calendar ts with
  | none => out.skip
  | some (price, name) => out.add ts kwh price name

end CostBreakdown

/-- The energy of the step between two readings of the power, by the trapezoid, in watt
seconds. -/
def stepJoules (p q : ℤ × ℚ) : ℚ := (p.2 + q.2) / 2 * (q.1 - p.1 : ℤ)

/-- A step that is not bridged: it goes nowhere, or it is too long.
SOURCE: lss-core/src/rates.rs:204 -/
def Gap (t0 t1 : ℤ) : Prop := t1 - t0 ≤ 0 ∨ maxStepSecs < t1 - t0

instance (t0 t1 : ℤ) : Decidable (Gap t0 t1) :=
  inferInstanceAs (Decidable (t1 - t0 ≤ 0 ∨ maxStepSecs < t1 - t0))

section Accumulate

variable (calendar : Calendar) (table : RateTable)

/-- One step between two readings.
SOURCE: lss-core/src/rates.rs:201-223 -/
def accumulateStep (out : CostBreakdown) (step : (ℤ × ℚ) × (ℤ × ℚ)) : CostBreakdown :=
  if Gap step.1.1 step.2.1 then out.skip
  else out.price calendar table step.1.1 (stepJoules step.1 step.2 / 3600000)

/-- The energy and the cost of power readings in order of time.
SOURCE: lss-core/src/rates.rs:198-226 -/
def accumulate (samples : List (ℤ × ℚ)) : CostBreakdown :=
  (steps samples).foldl (accumulateStep calendar table) {}

/-- One step between two readings that say whether the engine was idle: it goes where its
start belongs.
SOURCE: lss-core/src/rates.rs:239-261 -/
def accumulateSplitStep (out : CostBreakdown × CostBreakdown)
    (step : (ℤ × ℚ × Bool) × (ℤ × ℚ × Bool)) : CostBreakdown × CostBreakdown :=
  let priced := fun b : CostBreakdown =>
    accumulateStep calendar table b ((step.1.1, step.1.2.1), (step.2.1, step.2.2.1))
  if step.1.2.2 then (out.1, priced out.2) else (priced out.1, out.2)

/-- The energy and the cost of the work, and of standing by.
SOURCE: lss-core/src/rates.rs:236-264 -/
def accumulateSplit (samples : List (ℤ × ℚ × Bool)) : CostBreakdown × CostBreakdown :=
  (steps samples).foldl (accumulateSplitStep calendar table) ({}, {})

/-- The energy and the cost of buckets whose energy is known.
SOURCE: lss-core/src/rates.rs:277-295 -/
def accumulateBucketedKwh (buckets : List (ℤ × ℚ)) : CostBreakdown :=
  buckets.foldl (fun out b => out.price calendar table b.1 b.2) {}

end Accumulate

/-- Dollars per million tokens; nothing when there are none.
SOURCE: lss-core/src/rates.rs:343-345 -/
def usdPerMillionTokens (usd tokens : ℚ) : Option ℚ :=
  if 0 < tokens then some (usd / tokens * 1000000) else none

end Lss.Model
