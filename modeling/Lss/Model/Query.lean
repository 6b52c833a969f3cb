import Mathlib.Data.List.TakeWhile
import Lss.Model.Cost
import Lss.Model.Number
import Mathlib.Data.List.Infix

/-!
# Series that are asked for

A request names metrics, a range and perhaps a step. The plan says which tier is read and how
the answer is cut into cells; a builder folds the rows of the tier into the cells, and a cell
answers with its mean, its extremes or its total.
-/

set_option autoImplicit false

namespace Lss.Model

/-! ## What a metric is asked for -/

/-- SOURCE: lss-core/src/series.rs:40-50 -/
inductive AggKind where
  | avg
  | min
  | max
  | sum
deriving DecidableEq

/-- SOURCE: lss-core/src/series.rs:53-61 -/
def AggKind.parse (s : List Char) : Option AggKind :=
  if s = "avg".toList ∨ s = "mean".toList then some .avg
  else if s = "min".toList then some .min
  else if s = "max".toList then some .max
  else if s = "sum".toList then some .sum
  else none

/-- SOURCE: lss-core/src/series.rs:69 -/
def spiky : List String :=
  ["queue", "running", "waiters", "inflight", "budget_used", "users_active", "_temp_c",
    "kv_usage", "_thr_", "_p99_ms", "_p90_ms", "c1_invalid"]

/-- How a metric is summed up when the request does not say.
SOURCE: lss-core/src/series.rs:64-71 -/
def defaultAgg (metric : List Char) : AggKind :=
  if "tok_".toList <+: metric ∨ "sum_".toList <+: metric ∨ metric = "gate_requests".toList then .sum
  else if spiky.any fun s => decide (s.toList <:+: metric) then .max
  else .avg

/-- The text before and after the last of some character. -/
def rsplitOnce (c : Char) (t : List Char) : Option (List Char × List Char) :=
  match t.reverse.dropWhile (· != c) with
  | [] => none
  | _ :: front => some (front.reverse, (t.reverse.takeWhile (· != c)).reverse)

theorem rsplitOnce_eq_some {c : Char} {t h p : List Char} :
    rsplitOnce c t = some (h, p) ↔ t = h ++ c :: p ∧ c ∉ p := by
  have kept : ∀ d : Char, (d != c) = true ↔ d ≠ c := fun d => bne_iff_ne
  unfold rsplitOnce
  constructor
  · intro split
    have whole := List.takeWhile_append_dropWhile (p := (· != c)) (l := t.reverse)
    cases back : t.reverse.dropWhile (· != c) with
    | nil => simp [back] at split
    | cons d front =>
        simp only [back, Option.some.injEq, Prod.mk.injEq] at split
        obtain ⟨rfl, rfl⟩ := split
        have found : d = c := by
          have stops := List.head_dropWhile_not (· != c) (l := t.reverse) (by simp [back])
          simpa [back] using stops
        rw [back, found] at whole
        refine ⟨?_, ?_⟩
        · calc t = t.reverse.reverse := (List.reverse_reverse t).symm
            _ = (t.reverse.takeWhile (· != c) ++ c :: front).reverse := by rw [whole]
            _ = front.reverse ++ c :: (t.reverse.takeWhile (· != c)).reverse := by simp
        · intro mem
          have before := List.mem_takeWhile_imp (List.mem_reverse.mp mem)
          simp at before
  · rintro ⟨rfl, behind⟩
    have pass : ∀ d ∈ p.reverse, (d != c) = true := by
      intro d hd
      rw [kept]
      rintro rfl
      exact behind (List.mem_reverse.mp hd)
    have reversed : (h ++ c :: p).reverse = p.reverse ++ c :: h.reverse := by simp
    rw [reversed, List.dropWhile_append_of_pos pass, List.takeWhile_append_of_pos pass]
    simp

theorem rsplitOnce_eq_none {c : Char} {t : List Char} : rsplitOnce c t = none ↔ c ∉ t := by
  constructor
  · intro none_found mem
    obtain ⟨p, h, reversed, behind⟩ := List.eq_append_cons_of_mem (List.mem_reverse.mpr mem)
    have split : t = h.reverse ++ c :: p.reverse := by
      rw [← List.reverse_reverse t, reversed]
      simp
    rw [rsplitOnce_eq_some.mpr ⟨split, by simpa using behind⟩] at none_found
    cases none_found
  · intro outside
    cases found : rsplitOnce c t with
    | none => rfl
    | some s =>
        obtain ⟨split, -⟩ := rsplitOnce_eq_some.mp found
        exact absurd (split ▸ by simp) outside

/-- A metric, perhaps with what is asked of it behind a colon.
SOURCE: lss-core/src/series.rs:429-435 -/
def parseMetricToken (token : String) : String × AggKind :=
  match rsplitOnce ':' token.toList with
  | some (name, agg) =>
    match AggKind.parse agg with
    | some kind => (String.ofList name, kind)
    | none => (token, defaultAgg token.toList)
  | none => (token, defaultAgg token.toList)

/-- SOURCE: lss-core/src/series.rs:109-116 -/
def Agg.pick (a : Agg) : AggKind → ℚ
  | .avg => a.avg
  | .min => a.min
  | .max => a.max
  | .sum => a.sum

/-! ## The plan of a request -/

/-- SOURCE: lss-core/src/series.rs:16 -/
def resRaw : ℤ := 5

/-- SOURCE: lss-core/src/series.rs:20 -/
def maxPoints : ℕ := 600

/-- SOURCE: lss-core/src/series.rs:22 -/
def rawMaxRange : ℤ := 2 * 3600

/-- SOURCE: lss-core/src/series.rs:374-379 -/
inductive Tier where
  | raw
  | m1
  | m10
deriving DecidableEq

/-- SOURCE: lss-core/src/series.rs:389-395 -/
def Tier.res : Tier → ℤ
  | .raw => resRaw
  | .m1 => res1m
  | .m10 => res10m

/-- Where a request reads from and how its answer is laid out.
SOURCE: lss-core/src/series.rs:400-407 -/
structure Plan where
  tier : Tier
  rangeS : ℤ
  stepS : ℤ
  startTs : ℤ
  points : ℕ
deriving DecidableEq

/-- What is kept of the samples and of the two tiers, in seconds. -/
structure Retention where
  raw : ℤ
  m1 : ℤ
  m10 : ℤ

/-- The tier a request reads: the coarsest one its step allows, where it reaches back far enough.
SOURCE: lss-core/src/series.rs:415-421 -/
def planTier (want rangeS : ℤ) (keep : Retention) : Tier :=
  if want < res1m ∧ rangeS ≤ min rawMaxRange keep.raw then .raw
  else if want < res10m ∧ rangeS ≤ keep.m1 then .m1
  else .m10

/-- The plan of a request: without a step, the finest one that keeps the answer short.
SOURCE: lss-core/src/series.rs:411-427 -/
def plan (now rangeS : ℤ) (step : Option ℤ) (keep : Retention) : Plan :=
  let rangeS := max 60 (min rangeS (max keep.m10 60))
  let floor := (rangeS + maxPoints - 1) / maxPoints
  let want := max (max (step.getD 1) floor) 1
  let tier := planTier want rangeS keep
  let stepS := (want + tier.res - 1) / tier.res * tier.res
  let stop := now - now % stepS + stepS
  let points := max 1 (min ((rangeS + stepS - 1) / stepS).toNat maxPoints)
  ⟨tier, rangeS, stepS, stop - points * stepS, points⟩

/-- Where a cell of the answer starts.
SOURCE: lss-core/src/series.rs:461-464 -/
def Plan.tsOf (p : Plan) (index : ℕ) : ℤ := p.startTs + index * p.stepS

/-! ## The cells of an answer -/

/-- The cells of an answer, a list of them for each metric that is asked for.
SOURCE: lss-core/src/series.rs:467-473 -/
structure SeriesBuilder where
  plan : Plan
  tokens : List (String × String × AggKind)
  cells : List (List (Option Agg))
  seen : List Bool

namespace SeriesBuilder

/-- SOURCE: lss-core/src/series.rs:476-485 -/
def new (p : Plan) (tokens : List String) : SeriesBuilder where
  plan := p
  tokens := tokens.map fun t => (t, parseMetricToken t)
  cells := List.replicate tokens.length (List.replicate p.points none)
  seen := List.replicate tokens.length false

/-- The metrics that are asked for, each once.
SOURCE: lss-core/src/series.rs:491-497 -/
def names (b : SeriesBuilder) : List String :=
  ((b.tokens.map fun t => t.2.1).mergeSort fun s t => decide (s ≤ t)).dedup

/-- One more aggregate in a cell.
SOURCE: lss-core/src/series.rs:519-522 -/
def mergeCell (cell : Option Agg) (agg : Agg) : Option Agg :=
  match cell with
  | some a => some (a.merge agg)
  | none => some agg

/-- An aggregate of a metric goes to the cell of its time, wherever the metric is asked for.
SOURCE: lss-core/src/series.rs:506-525 -/
def add (b : SeriesBuilder) (metric : String) (ts : ℤ) (agg : Agg) : SeriesBuilder :=
  if ts < b.plan.startTs then b
  else
    let idx := ((ts - b.plan.startTs) / b.plan.stepS).toNat
    if b.plan.points ≤ idx then b
    else { b with
      seen := b.tokens.zipWith (fun t seen => seen || t.2.1 == metric) b.seen
      cells := b.tokens.zipWith (fun t row =>
        if t.2.1 == metric then row.modify idx fun cell => mergeCell cell agg else row) b.cells }

/-- A cell of the answer to one of the metrics. -/
def cell (b : SeriesBuilder) (i idx : ℕ) : Option Agg := (b.cells.getD i []).getD idx none

/-- Reads the rows of every metric that is asked for.
SOURCE: lss-collector/src/query.rs:154-183 -/
def readRows (b : SeriesBuilder) (db : RollupDb) : SeriesBuilder :=
  let stop := b.plan.startTs + b.plan.points * b.plan.stepS
  b.names.foldl (fun b' name =>
    (db.rollupRows b.plan.tier.res name b.plan.startTs stop).foldl
      (fun b' row => b'.add name row.1 row.2) b') b

/-- Reads single points.
SOURCE: lss-collector/src/query.rs:199-201 -/
def readPoints (b : SeriesBuilder) (points : List (String × ℤ × ℚ)) : SeriesBuilder :=
  points.foldl (fun b p => b.add p.1 p.2.1 (Agg.one p.2.2)) b

end SeriesBuilder

/-- The points of some samples, each with its time; the sample before the first is `prev`.
SOURCE: lss-collector/src/query.rs:188-195 -/
def rawPoints : Option Sample → List Sample → List (String × ℤ × ℚ)
  | _, [] => []
  | prev, s :: samples =>
    (samplePoints prev s).map (fun p => (p.1, s.ts, p.2)) ++ rawPoints (some s) samples

end Lss.Model
