import Lss.Model.Cost
import Lss.Model.LocalDays

/-!
# What was spent

The collector prices the energy of every local day and sums the days of windows with a name:
yesterday, this week, the last seven and thirty days, this month and this year. The midnights
the windows begin at are found by stepping back from today's midnight.
-/

set_option autoImplicit false

namespace Lss.Model

/-- A window at least so long may be projected.
SOURCE: lss-core/src/rates.rs:707 -/
def projectionMinDays : ℤ := 7

def projectionMinCoverage : ℚ := 4 / 5

/-- What one local day cost. The key is its midnight.
SOURCE: lss-core/src/rates.rs:620-628 -/
structure DaySpend where
  date : String
  ts : ℤ
  usd : ℚ
  kwh : ℚ
  coveredSecs : ℤ
deriving DecidableEq

/-- What was spent in a window, and how much of it was priced.
SOURCE: lss-core/src/rates.rs:638-645 -/
structure SpendWindow where
  usd : Option ℚ := none
  kwh : Option ℚ := none
  coveredSecs : ℤ := 0
  nominalSecs : ℤ := 0

/-- What the loop over the days of a window carries. -/
structure SpendSum where
  usd : ℚ := 0
  kwh : ℚ := 0
  covered : ℤ := 0
  any : Bool := false

def SpendSum.add (acc : SpendSum) (d : DaySpend) : SpendSum where
  usd := acc.usd + d.usd
  kwh := acc.kwh + d.kwh
  covered := acc.covered + d.coveredSecs
  any := true

namespace SpendWindow

/-- Sums the days whose midnight lies in `[start, stop)`.
SOURCE: lss-core/src/rates.rs:649-666 -/
def of (days : List DaySpend) (start stop nominalSecs : ℤ) : SpendWindow :=
  let sum := (days.filter fun d => start ≤ d.ts ∧ d.ts < stop).foldl SpendSum.add {}
  { usd := if sum.any then some sum.usd else none
    kwh := if sum.any then some sum.kwh else none
    coveredSecs := sum.covered
    nominalSecs := nominalSecs }

/-- SOURCE: lss-core/src/rates.rs:670-672 -/
def isWellCovered (w : SpendWindow) (frac : ℚ) : Bool :=
  0 < w.nominalSecs ∧ w.nominalSecs * frac ≤ w.coveredSecs

end SpendWindow

/-- SOURCE: lss-core/src/rates.rs:784-791 -/
def fmtDays (secs : ℤ) : String :=
  let d : ℚ := secs / 86400
  if d < 1 then fixedDecimals 1 d ++ " days" else fixedDecimals 0 d ++ " days"

/-- SOURCE: lss-core/src/rates.rs:679-702 -/
structure SpendingStatus where
  today : SpendWindow
  yesterday : SpendWindow
  thisWeek : SpendWindow
  last7d : SpendWindow
  thisMonth : SpendWindow
  last30d : SpendWindow
  thisYear : SpendWindow
  yearFirstDay : Option String
  daily : List DaySpend
  monthProjectionUsd : Option ℚ
  projectionNote : String

/-- The local midnights and the lengths that need the time zone. -/
structure SpendBounds where
  todayStart : ℤ
  yesterdayStart : ℤ
  weekStart : ℤ
  monthStart : ℤ
  daysInMonth : ℤ
  elapsedDaysInMonth : ℤ
  yearStart : ℤ

/-- The projection of the month, or why there is none.
SOURCE: lss-core/src/rates.rs:738-765 -/
def projectMonth (thisMonth : SpendWindow) (daysInMonth elapsedDays : ℤ) : Option ℚ × String :=
  if elapsedDays < projectionMinDays then
    (none, "too early to project: " ++ toString elapsedDays ++ " of " ++ toString daysInMonth ++
      " days into the month (needs " ++ toString projectionMinDays ++ ")")
  else if !thisMonth.isWellCovered projectionMinCoverage then
    (none, "not enough data to project: only " ++ fmtDays thisMonth.coveredSecs ++ " of the " ++
      toString elapsedDays ++ " days so far were priced")
  else
    match thisMonth.usd with
    | some usd =>
      if 0 < elapsedDays then
        (some (usd / elapsedDays * daysInMonth),
          "projected from " ++ toString elapsedDays ++ " days at this rate")
      else (none, "nothing priced this month yet")
    | none => (none, "nothing priced this month yet")

/-- The earlier of two dated days, the date deciding between equal times. -/
def earlierDay (a b : ℤ × String) : ℤ × String :=
  if b.1 < a.1 ∨ (b.1 = a.1 ∧ b.2 < a.2) then b else a

/-- The windows of a series of days.
SOURCE: lss-core/src/rates.rs:714-777 -/
def spendingWindows (days : List DaySpend) (now : ℤ) (bounds : SpendBounds) : SpendingStatus :=
  let day := 86400
  let thisMonth :=
    SpendWindow.of days bounds.monthStart (now + day) (max (now - bounds.monthStart) 0)
  let projection := projectMonth thisMonth bounds.daysInMonth bounds.elapsedDaysInMonth
  let ofYear := (days.filter fun d => bounds.yearStart ≤ d.ts ∧ d.ts < now + day).map
    fun d => (d.ts, d.date)
  { today := SpendWindow.of days bounds.todayStart (bounds.todayStart + day)
      (max (now - bounds.todayStart) 0)
    yesterday := SpendWindow.of days bounds.yesterdayStart bounds.todayStart day
    thisWeek := SpendWindow.of days bounds.weekStart (now + day) (max (now - bounds.weekStart) 0)
    last7d := SpendWindow.of days (bounds.todayStart - 6 * day) (now + day) (7 * day)
    thisMonth := thisMonth
    last30d := SpendWindow.of days (bounds.todayStart - 29 * day) (now + day) (30 * day)
    thisYear := SpendWindow.of days bounds.yearStart (now + day) (max (now - bounds.yearStart) 0)
    yearFirstDay :=
      match ofYear with
      | [] => none
      | d :: rest => some (rest.foldl earlierDay d).2
    daily := days
    monthProjectionUsd := projection.1
    projectionNote := projection.2 }

section Local

variable (zone : Zone)

/-- SOURCE: lss-collector/src/cost_run.rs:182-186 -/
def yearStart (now : ℤ) : ℤ :=
  let approx := zone.localMidnight now - max (dayOfYear (zone.index now) - 1) 0 * 86400
  zone.localMidnight (approx + 12 * 3600)

/-- SOURCE: lss-collector/src/cost_run.rs:189-194 -/
def weekStart (now : ℤ) : ℤ :=
  let midnight := zone.localMidnight now
  midnight - max (weekday (zone.index midnight) - 1) 0 * 86400

/-- Steps on by days of 24 hours until the month is another.
SOURCE: lss-collector/src/cost_run.rs:203-205 -/
def probeMonthEnd (month probe : ℤ) : ℤ :=
  if monthOf (zone.index probe) = month then probeMonthEnd month (probe + 86400) else probe
termination_by (zone.start (monthFirst (month + 1)) - probe).toNat
decreasing_by
  rename_i hmonth
  have hin := (monthOf_bracket (zone.index probe)).2
  rw [hmonth] at hin
  have hlt := (zone.lt_start_iff _ probe).2 hin
  omega

/-- The start of the month, its days, and the days elapsed with today.
SOURCE: lss-collector/src/cost_run.rs:197-209 -/
def monthBounds (now : ℤ) : ℤ × ℤ × ℤ :=
  let day := dayOfMonth (zone.index now)
  let monthStart := zone.localMidnight now - max (day - 1) 0 * 86400
  let probe := probeMonthEnd zone (monthOf (zone.index monthStart)) (monthStart + 28 * 86400)
  (monthStart, (probe - monthStart) / 86400, day)

/-- SOURCE: lss-collector/src/cost_run.rs:154-172 -/
def spendBounds (now : ℤ) : SpendBounds :=
  let todayStart := zone.localMidnight now
  let month := monthBounds zone now
  { todayStart := todayStart
    yesterdayStart := todayStart - 86400
    weekStart := weekStart zone now
    monthStart := month.1
    daysInMonth := month.2.1
    elapsedDaysInMonth := month.2.2
    yearStart := yearStart zone now }

/-- Puts a row of energy to the buckets of its day. -/
def addToDay (byDay : Std.ExtTreeMap ℤ (List (ℤ × ℚ))) (row : ℤ × Agg) :
    Std.ExtTreeMap ℤ (List (ℤ × ℚ)) :=
  let day := zone.localMidnight row.1
  byDay.insert day (byDay.getD day [] ++ [(row.1, row.2.sum / 3600000)])

/-- The priced energy of every local day of `[start, now]`; a day that could not be priced has
none.
SOURCE: lss-collector/src/cost_run.rs:123-147 -/
def dailySpend (calendar : Calendar) (db : RollupDb) (table : RateTable) (start now : ℤ) :
    List DaySpend :=
  let byDay := (db.rollupRows res10m "sum_energy_j" start (now + 1)).foldl (addToDay zone) ∅
  byDay.toList.filterMap fun entry =>
    let b := accumulateBucketedKwh calendar table entry.2
    if 0 < b.intervalsPriced then
      some { date := fmtDate (zone.index entry.1)
             ts := entry.1
             usd := b.usd
             kwh := b.kwh
             coveredSecs := b.intervalsPriced * res10m }
    else none

/-- SOURCE: lss-collector/src/cost_run.rs:152-177 -/
def spending (calendar : Calendar) (db : RollupDb) (table : RateTable) (now : ℤ) :
    SpendingStatus :=
  let chartFrom := zone.localMidnight now - 31 * 86400
  let days := dailySpend zone calendar db table (min (yearStart zone now) chartFrom) now
  let sp := spendingWindows days now (spendBounds zone now)
  { sp with daily := sp.daily.filter fun d => chartFrom ≤ d.ts }

end Local

end Lss.Model
