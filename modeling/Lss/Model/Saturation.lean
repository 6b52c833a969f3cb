import Lss.Model.BenchWatch
import Lss.Model.LoadoutAcc
import Mathlib.Data.List.Destutter
import Mathlib.Data.List.DropRight
import Mathlib.Data.List.Sort

/-!
# Where total speed stops growing

The concurrency curve as rows, one for each number of users at once, with the rows of a benchmark
laid on it. The lowest level that no higher one beats by more than the noise is where total speed
stops growing, unless something that was seen says otherwise.
-/

set_option autoImplicit false

namespace Lss.Model

/-- Two speeds closer than this are the same.
SOURCE: lss-core/src/loadout.rs:24-25 -/
def noise : ℚ := 3 / 100

/-- SOURCE: lss-core/src/loadout.rs:37-38 -/
def minSaturationSamples : ℕ := 120
def minSaturationShare : ℚ := 5 / 100

/-- SOURCE: lss-core/src/loadout.rs:795-797 -/
def round1 (v : ℚ) : ℚ := roundTo 10 v

/-! ## The rows of a curve -/

/-- What was measured with so many requests running at once.
SOURCE: lss-core/src/loadout.rs:290-303 -/
structure CurveRow where
  running : ℕ := 0
  samples : ℕ := 0
  tokS : Option ℚ := none
  perRequestTokS : Option ℚ := none
  ttftMs : Option ℚ := none
  specAcceptLength : Option ℚ := none
  source : String := ""
deriving DecidableEq, Inhabited

/-- The row of `n` requests at once.
SOURCE: lss-core/src/loadout.rs:272-282 -/
def CurveCell.row (c : CurveCell) (n : ℕ) : CurveRow :=
  let tokS := if 0 < c.samples then some (round1 (c.tokSSum / c.samples)) else none
  { running := n
    samples := c.samples
    tokS := tokS
    perRequestTokS := tokS.map fun t => round1 (t / n)
    ttftMs := if 0 < c.ttftN then some (round1 (c.ttftSumS / c.ttftN * 1000)) else none
    specAcceptLength := if 0 < c.specN then some (roundTo 100 (c.specLenSum / c.specN)) else none
    source := "live" }

/-- The highest level of a curve that was ever seen, counted from one.
SOURCE: lss-core/src/loadout.rs:269 -/
def Curve.topSeen (c : Curve) : ℕ := (c.cells.rdropWhile fun x => ¬ 0 < x.samples).length

/-- The rows from one up to the slots, and further where more was seen running.
SOURCE: lss-core/src/loadout.rs:268-285 -/
def Curve.rows (c : Curve) (slots : ℕ) : List CurveRow :=
  let top := min (max (max slots c.topSeen) 1) curveMaxLevels
  (List.range top).map fun i => (c.cells.getD i {}).row (i + 1)

/-- A cell of a benchmark: the speed of so many users with so much in their conversations.
SOURCE: lss-core/src/bench.rs:981-995 -/
structure DecodeCell where
  concurrency : ℕ
  context : ℕ
  perUserTokS : ℚ
  totalTokS : ℚ
  ttftMs : Option ℚ := none

/-- The cells with empty conversations, as rows of a curve.
SOURCE: lss-core/src/bench.rs:1196-1203 -/
def curveRows (decode : List DecodeCell) : List CurveRow :=
  (decode.filter fun c => c.context = 0).map fun c =>
    { running := c.concurrency
      samples := 1
      tokS := some c.totalTokS
      perRequestTokS := some c.perUserTokS
      ttftMs := c.ttftMs
      source := "bench" }

/-- A live row, or the benchmark's row of the same level with its samples and accept length.
SOURCE: lss-core/src/bench.rs:1261-1265 -/
def layOver (measured : List CurveRow) (l : CurveRow) : CurveRow :=
  match measured.find? fun b => b.running = l.running with
  | some b => { b with samples := l.samples, specAcceptLength := l.specAcceptLength }
  | none => l

/-- Adds the row of a level that is not there yet.
SOURCE: lss-core/src/bench.rs:1268-1270 -/
def pushNew (out : List CurveRow) (b : CurveRow) : List CurveRow :=
  if out.any fun r => r.running = b.running then out else out ++ [b]

/-- The live curve with the rows of a benchmark on it.
SOURCE: lss-core/src/bench.rs:1258-1274 -/
def mergeCurve (live : List CurveRow) (decode : List DecodeCell) : List CurveRow :=
  let measured := curveRows decode
  (measured.foldl pushNew (live.map (layOver measured))).insertionSort
    fun a b => a.running ≤ b.running

/-! ## Which rows are evidence -/

/-- SOURCE: lss-core/src/loadout.rs:376-378 -/
def qualifies (row : CurveRow) (liveSamples : ℕ) : Bool :=
  row.source = "bench" ||
    (minSaturationSamples ≤ row.samples && liveSamples * minSaturationShare ≤ row.samples)

/-- SOURCE: lss-core/src/loadout.rs:381-383 -/
def liveSamples (rows : List CurveRow) : ℕ := (rows.map CurveRow.samples).sum

/-- The levels that are evidence, with the total speed at each.
SOURCE: lss-core/src/loadout.rs:386-389 -/
def curvePoints (rows : List CurveRow) : List (ℕ × ℚ) :=
  (rows.filter fun r => qualifies r (liveSamples rows)).filterMap fun r =>
    r.tokS.map fun t => (r.running, t)

/-- How many levels are evidence, and whether a benchmark measured one of them.
SOURCE: lss-core/src/loadout.rs:393-397 -/
def curveEvidence (rows : List CurveRow) : ℕ × Bool :=
  let good := rows.filter fun r => qualifies r (liveSamples rows) && r.tokS.isSome
  (good.length, good.any fun r => r.source = "bench")

/-! ## Where it stops growing -/

/-- Where adding users stops adding total speed.
SOURCE: lss-core/src/loadout.rs:308-322 -/
inductive Saturation where
  | notEnough
  | after (users : ℕ) (totalTokS : ℚ) (fromBench : Bool)
  | stillGrowing (users : ℕ) (totalTokS : ℚ)
deriving DecidableEq

/-- The first point that no later one beats by more than the noise; the last point does not
count, having none behind it.
SOURCE: lss-core/src/loadout.rs:366-370 -/
def firstPlateau : List (ℕ × ℚ) → Option (ℕ × ℚ)
  | [] => none
  | [_] => none
  | p :: q :: rest =>
    if (q :: rest).all fun later => later.2 ≤ p.2 * (1 + noise) then some p
    else firstPlateau (q :: rest)

/-- The points in the order of their levels, one for each level.
SOURCE: lss-core/src/loadout.rs:360-362 -/
def saturationPoints (rows : List (ℕ × ℚ)) : List (ℕ × ℚ) :=
  ((rows.filter fun p => 0 < p.1 ∧ 0 < p.2).insertionSort fun p q => p.1 ≤ q.1).destutter
    fun p q => p.1 ≠ q.1

/-- SOURCE: lss-core/src/loadout.rs:359-373 -/
def saturation (rows : List (ℕ × ℚ)) : Saturation :=
  let pts := saturationPoints rows
  if pts.length < 2 then .notEnough
  else
    match firstPlateau pts with
    | some (n, total) => .after n (round1 total) false
    | none =>
      match pts.getLast? with
      | some (n, total) => .stillGrowing n (round1 total)
      | none => .notEnough

/-- What the evidence says, unless a level that was seen at all, or the best speed on record,
says otherwise.
SOURCE: lss-core/src/loadout.rs:343-355 -/
def saturationOf (curve : List CurveRow) (peakTokS : Option ℚ) : Saturation :=
  match saturation (curvePoints curve) with
  | .after users total _ =>
    let ceiling := total * (1 + noise)
    let beatenByALevel :=
      ((curve.filter fun r => users < r.running).filterMap CurveRow.tokS).any fun t => ceiling < t
    let beatenByPeak := peakTokS.any fun p => ceiling < p
    if beatenByALevel || beatenByPeak then .notEnough
    else .after users total (curveEvidence curve).2
  | claim => claim

end Lss.Model
