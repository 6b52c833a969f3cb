import Lss.Library.Bounded
import Lss.Model.Incidents
import Lss.Model.Query

/-!
# The request for series

A request carries its range and its step as texts. They are read as seconds and planned with
machine integers: every operation is checked, so that one that leaves 64 bits shows.
-/

set_option autoImplicit false

namespace Lss.Model

open Lss.Library.Bounded

def minI64 : ℤ := -2 ^ 63

def maxI64 : ℤ := 2 ^ 63 - 1

/-- The result of an operation on machine integers. -/
def i64 (v : ℤ) : Checked ℤ := checked minI64 maxI64 v

/-- A machine integer as the language reads it. -/
def parseI64 (t : List Char) : Option ℤ :=
  let digits := if t.head? = some '-' ∨ t.head? = some '+' then t.tail else t
  if digits = [] ∨ ¬digits.all Char.isDigit then none
  else
    let n : ℤ := Nat.ofDigitChars 10 digits 0
    let v := if t.head? = some '-' then -n else n
    if minI64 ≤ v ∧ v ≤ maxI64 then some v else none

/-- The text in front of the unit, and the seconds of the unit.
SOURCE: lss-core/src/series.rs:30-36 -/
def splitUnit (t : List Char) (last : Char) : List Char × ℤ :=
  if last = 's' then (t.dropLast, 1)
  else if last = 'm' then (t.dropLast, 60)
  else if last = 'h' then (t.dropLast, 3600)
  else if last = 'd' then (t.dropLast, 86400)
  else (t, 1)

/-- The number of a range, where it is one above zero, and the seconds of its unit.
SOURCE: lss-core/src/series.rs:29-37 -/
def readRange (text : String) : Option (ℤ × ℤ) :=
  let t := (trim text).toList
  t.getLast?.bind fun last =>
    let split := splitUnit t last
    ((parseI64 split.1).filter fun n => 0 < n).map fun n => (n, split.2)

/-- SOURCE: lss-core/src/series.rs:28-38 -/
def parseRange (text : String) : Checked (Option ℤ) :=
  match readRange text with
  | none => .ok none
  | some (n, mult) => (i64 (n * mult)).map some

/-- A division rounded up, as the source writes it: `(a + b - 1) / b`. -/
def ceilDivI64 (a b : ℤ) : Checked ℤ := do
  let sum ← i64 (a + b)
  let sum ← i64 (sum - 1)
  i64 (sum.tdiv b)

/-- Where the cells of an answer lie, once its step is known.
SOURCE: lss-core/src/series.rs:424-426 -/
def cellsI64 (now rangeS stepS : ℤ) (tier : Tier) : Checked Plan := do
  let past ← i64 (now - now % stepS)
  let stop ← i64 (past + stepS)
  let cells ← ceilDivI64 rangeS stepS
  let points := max 1 (min cells.toNat maxPoints)
  let length ← i64 (points * stepS)
  let startTs ← i64 (stop - length)
  return ⟨tier, rangeS, stepS, startTs, points⟩

/-- The wanted step made a multiple of the resolution of the tier.
SOURCE: lss-core/src/series.rs:422-426 -/
def stepsI64 (now rangeS want : ℤ) (tier : Tier) : Checked Plan := do
  let steps ← ceilDivI64 want tier.res
  let stepS ← i64 (steps * tier.res)
  cellsI64 now rangeS stepS tier

/-- The plan of a request on machine integers.
SOURCE: lss-core/src/series.rs:411-427 -/
def planI64 (now rangeS : ℤ) (step : Option ℤ) (keep : Retention) : Checked Plan := do
  let rangeS := max 60 (min rangeS (max keep.m10 60))
  let floor ← ceilDivI64 rangeS maxPoints
  let want := max (max (step.getD 1) floor) 1
  stepsI64 now rangeS want (planTier want rangeS keep)

/-- SOURCE: lss-collector/src/query.rs:11 -/
def defaultRange : ℤ := 3600

/-- What a request for series says of its time. -/
structure SeriesParams where
  range : Option String
  step : Option String

/-- SOURCE: lss-collector/src/query.rs:64-69 -/
def rangeOf (q : SeriesParams) : Checked (Except String ℤ) :=
  match q.range with
  | none => .ok (.ok defaultRange)
  | some r => do
    match ← parseRange r with
    | some v => return .ok v
    | none => return .error "range must look like 15m, 1h, 6h, 24h, 7d (or plain seconds)"

/-- SOURCE: lss-collector/src/query.rs:145-151 -/
def stepOf (q : SeriesParams) : Checked (Except String (Option ℤ)) :=
  match q.step with
  | none => .ok (.ok none)
  | some s =>
    if s = "auto" ∨ s = "" then .ok (.ok none)
    else do
      match ← parseRange s with
      | some v => return .ok (some v)
      | none => return .error "step must be `auto` or a duration like 60, 60s, 10m"

/-- The plan a request is answered by, or why it is refused.
SOURCE: lss-collector/src/query.rs:141-152 -/
def seriesPlan (now : ℤ) (q : SeriesParams) (keep : Retention) : Checked (Except String Plan) := do
  match ← rangeOf q with
  | .error e => return .error e
  | .ok range =>
    match ← stepOf q with
    | .error e => return .error e
    | .ok step => return .ok (← planI64 now range step keep)

end Lss.Model
