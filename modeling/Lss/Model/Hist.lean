import Lss.Model.Sample
import Mathlib.Algebra.Order.Floor.Defs
import Mathlib.Data.Rat.Floor
import Mathlib.Tactic.Linarith

/-!
# Latency histograms

The engine publishes cumulative histograms. The collector keeps what happened between two
scrapes, cut into windows of one and of ten minutes; the percentiles of a window become
series of their own and the bucket counts are stored beside them.
-/

set_option autoImplicit false

namespace Lss.Model

/-- The latencies whose percentiles become series.
SOURCE: lss-core/src/hist.rs:13-18 -/
def latencyMetrics : List String := ["ttft", "e2e", "itl", "queue_time"]

/-- Every histogram the collector windows.
SOURCE: lss-core/src/hist.rs:23-30 -/
def histMetrics : List String :=
  ["ttft", "e2e", "itl", "queue_time", "prompt_tokens", "gen_tokens"]

/-- One scrape of one histogram: cumulative counts per upper bound, the last one being
everything.
SOURCE: lss-core/src/hist.rs:48-55 -/
structure HistSnapshot where
  le : List ℚ := []
  cum : List ℚ := []
  sum : ℚ := 0
  count : ℚ := 0
deriving DecidableEq, Inhabited

/-- One scrape: a snapshot for each of the histograms the engine published.
SOURCE: lss-core/src/hist.rs:57 -/
abbrev HistSet := Vector (Option HistSnapshot) 6

/-- What happened between two scrapes or inside one window: counts per bucket.
SOURCE: lss-core/src/hist.rs:125-132 -/
structure HistAccum where
  le : List ℚ := []
  counts : List ℚ := []
  sum : ℚ := 0
  count : ℚ := 0
deriving DecidableEq, Inhabited

/-- The percentiles of one window, in milliseconds.
SOURCE: lss-core/src/hist.rs:135-142 -/
structure HistSummary where
  p50Ms : ℚ
  p90Ms : ℚ
  p99Ms : ℚ
  avgMs : ℚ
  count : ℚ

/-- Rounds to the nearest whole number, a half away from zero. -/
def roundHalfAway (v : ℚ) : ℤ := if v < 0 then -⌊-v + 1 / 2⌋ else ⌊v + 1 / 2⌋

theorem roundHalfAway_spec {v : ℚ} (hv : 0 ≤ v) :
    (roundHalfAway v : ℚ) ≤ v + 1 / 2 ∧ v - 1 / 2 < roundHalfAway v := by
  rw [roundHalfAway, if_neg (not_lt.mpr hv)]
  have low := Int.floor_le (v + 1 / 2)
  have high := Int.lt_floor_add_one (v + 1 / 2)
  constructor <;> linarith

theorem roundHalfAway_nonneg {v : ℚ} (hv : 0 ≤ v) : 0 ≤ roundHalfAway v := by
  rw [roundHalfAway, if_neg (not_lt.mpr hv), Int.floor_nonneg]
  linarith

/-- What is not above a whole number is not rounded above it. -/
theorem roundHalfAway_le {v : ℚ} {n : ℤ} (hv : 0 ≤ v) (high : v ≤ n) : roundHalfAway v ≤ n := by
  have half : ⌊v + 1 / 2⌋ < n + 1 := by
    rw [Int.floor_lt]
    push_cast
    linarith
  rw [roundHalfAway, if_neg (not_lt.mpr hv)]
  omega

/-- SOURCE: lss-core/src/hist.rs:288-290 -/
def round3 (v : ℚ) : ℚ := roundHalfAway (v * 1000) / 1000

/-- SOURCE: lss-core/src/hist.rs:154-163 -/
def perBucket (cum : List ℚ) : List ℚ :=
  (cum.foldl (fun (acc : List ℚ × ℚ) c => (acc.1 ++ [max (c - acc.2) 0], max acc.2 c))
    ([], 0)).1

/-- What was counted since the previous scrape. A counter that went backwards or another
bucket layout makes the current totals the difference.
SOURCE: lss-core/src/hist.rs:166-173 -/
def histDelta (prev cur : HistSnapshot) : HistAccum :=
  let reset := decide (prev.le ≠ cur.le) || decide (cur.count < prev.count) ||
    (cur.cum.zip prev.cum).any (fun p => decide (p.1 < p.2))
  if reset then
    { le := cur.le, counts := perBucket cur.cum, sum := max cur.sum 0, count := max cur.count 0 }
  else
    { le := cur.le
      counts := perBucket ((cur.cum.zip prev.cum).map fun p => p.1 - p.2)
      sum := max (cur.sum - prev.sum) 0
      count := max (cur.count - prev.count) 0 }

namespace HistAccum

/-- SOURCE: lss-core/src/hist.rs:181-184 -/
def total (h : HistAccum) : ℚ := h.counts.sum

/-- SOURCE: lss-core/src/hist.rs:176-179 -/
def isEmpty (h : HistAccum) : Bool := decide (h.total ≤ 0)

/-- SOURCE: lss-core/src/hist.rs:186-200 -/
def add (h d : HistAccum) : HistAccum :=
  if d.counts = [] then h
  else if h.le ≠ d.le ∨ h.counts.length ≠ d.counts.length then d
  else { h with
    counts := (h.counts.zip d.counts).map fun p => p.1 + p.2
    sum := h.sum + d.sum
    count := h.count + d.count }

/-- Walks the buckets until the one that holds the rank, interpolating inside it. `i` is the
index of the first bucket of the list and `seen` the count of the buckets before it.
SOURCE: lss-core/src/hist.rs:209-222 -/
def quantileFrom (le : List ℚ) (rank : ℚ) : ℕ → ℚ → List ℚ → Option ℚ
  | _, _, [] => le.getLast?
  | i, seen, c :: counts =>
    if c ≤ 0 then quantileFrom le rank (i + 1) seen counts
    else if rank ≤ seen + c then
      match le[i]? with
      | none => le.getLast?
      | some upper =>
        let lower := if i = 0 then min 0 upper else le.getD (i - 1) 0
        some (lower + (upper - lower) * min (max ((rank - seen) / c) 0) 1)
    else quantileFrom le rank (i + 1) (seen + c) counts

/-- SOURCE: lss-core/src/hist.rs:203-223 -/
def quantile (h : HistAccum) (q : ℚ) : Option ℚ :=
  if h.total ≤ 0 ∨ h.le = [] then none
  else quantileFrom h.le (min (max q 0) 1 * h.total) 0 0 h.counts

/-- Counts the buckets up to the one that holds `x`, and a share of that one.
SOURCE: lss-core/src/hist.rs:231-244 -/
def fractionFrom (le : List ℚ) (x : ℚ) : ℕ → ℚ → List ℚ → ℚ
  | _, seen, [] => seen
  | i, seen, c :: counts =>
    match le[i]? with
    | none => seen
    | some upper =>
      let lower := if i = 0 then min 0 upper else le.getD (i - 1) 0
      if upper ≤ x then fractionFrom le x (i + 1) (seen + c) counts
      else if lower < x then seen + c * min (max ((x - lower) / (upper - lower)) 0) 1
      else seen

/-- The share of the observations at or under `x`.
SOURCE: lss-core/src/hist.rs:225-246 -/
def fractionLe (h : HistAccum) (x : ℚ) : Option ℚ :=
  if h.total ≤ 0 ∨ h.le = [] then none
  else some (min (max (fractionFrom h.le x 0 0 h.counts / h.total) 0) 1)

/-- SOURCE: lss-core/src/hist.rs:248-252 -/
def summary (h : HistAccum) : Option HistSummary :=
  let ms := fun q => (h.quantile q).map fun s => round3 (s * 1000)
  let n := if 0 < h.count then h.count else h.total
  match ms (1 / 2), ms (9 / 10), ms (99 / 100) with
  | some p50, some p90, some p99 => some ⟨p50, p90, p99, round3 (h.sum / n * 1000), h.total⟩
  | _, _, _ => none

end HistAccum

/-- A window that just ended, with one accumulator per histogram.
SOURCE: lss-core/src/hist.rs:294-300 -/
structure ClosedWindow where
  res : ℤ
  ts : ℤ
  accs : Vector HistAccum 6
deriving DecidableEq

/-- The suffixes of a latency's series.
SOURCE: lss-core/src/hist.rs:308 -/
def latencySuffixes : List String := ["p50_ms", "p90_ms", "p99_ms", "avg_ms"]

/-- The names of the series that only exist per closed window.
SOURCE: lss-core/src/hist.rs:306-310 -/
def latencyNames : List String :=
  latencyMetrics.flatMap fun short => latencySuffixes.map fun suffix => short ++ "_" ++ suffix

/-- The series points of a window: name, value and the number of observations behind it.
SOURCE: lss-core/src/hist.rs:304-313 -/
def ClosedWindow.points (w : ClosedWindow) : List (String × ℚ × ℚ) :=
  (latencyMetrics.zip w.accs.toList).flatMap fun (short, acc) =>
    match acc.summary with
    | none => []
    | some s =>
      (latencySuffixes.zip [s.p50Ms, s.p90Ms, s.p99Ms, s.avgMs]).map
        fun (suffix, v) => (short ++ "_" ++ suffix, v, s.count)

/-- Feeds on scrapes and cuts them into windows of one and of ten minutes.
SOURCE: lss-core/src/hist.rs:335-340 -/
structure LatencyTracker where
  prev : Option HistSet := none
  minute : Option (ℤ × Vector HistAccum 6) := none
  ten : Option (ℤ × Vector HistAccum 6) := none
  recent : List (ℤ × Vector HistAccum 6) := []
deriving Inhabited

namespace LatencyTracker

/-- SOURCE: lss-core/src/hist.rs:331 -/
def recentMinutes : ℕ := 10

/-- One open window: closed and handed out when `start` is another window's start, and then
opened again at `start`.
SOURCE: lss-core/src/hist.rs:347-363 -/
def turn (res start : ℤ) (slot : Option (ℤ × Vector HistAccum 6)) :
    Option (ℤ × Vector HistAccum 6) × List ClosedWindow :=
  match slot with
  | none => (some (start, Vector.replicate 6 {}), [])
  | some (t, accs) =>
    if t = start then (some (t, accs), [])
    else (some (start, Vector.replicate 6 {}),
      if accs.toList.any (fun a => !a.isEmpty) then [⟨res, t, accs⟩] else [])

/-- The accumulators of a window after one more scrape.
SOURCE: lss-core/src/hist.rs:365-379 -/
def addScrape (prev set : HistSet) (accs : Vector HistAccum 6) : Vector HistAccum 6 :=
  Vector.ofFn fun i =>
    match prev[i], set[i] with
    | some p, some c =>
      let d := histDelta p c
      if d.isEmpty then accs[i] else accs[i].add d
    | _, _ => accs[i]

/-- One scrape at `ts`, or none when the scrape failed: the windows still close on time.
SOURCE: lss-core/src/hist.rs:345-382 -/
def observe (t : LatencyTracker) (ts : ℤ) (set : Option HistSet) :
    LatencyTracker × List ClosedWindow :=
  let minute := turn 60 (ts - ts % 60) t.minute
  let ten := turn 600 (ts - ts % 600) t.ten
  let recent := match t.minute with
    | some (m, accs) =>
      if m = ts - ts % 60 then t.recent
      else (t.recent ++ [(m, accs)]).drop ((t.recent.length + 1) - recentMinutes)
    | none => t.recent
  let closed := minute.2 ++ ten.2
  match set with
  | none => ({ t with minute := minute.1, ten := ten.1, recent }, closed)
  | some set =>
    let grow := fun accs => match t.prev with
      | none => accs
      | some prev => addScrape prev set accs
    ({ prev := some set
       minute := minute.1.map fun w => (w.1, grow w.2)
       ten := ten.1.map fun w => (w.1, grow w.2)
       recent := recent.filter fun w => decide (ts - (recentMinutes + 1) * 60 < w.1) }, closed)

end LatencyTracker

end Lss.Model
