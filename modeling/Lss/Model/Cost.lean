import Lss.Model.History
import Lss.Model.Rates
import Lss.Model.Rollup

/-!
# What the power cost

The collector prices the GPU power of the stored samples since local midnight, and the
energies of the rollup for longer windows. Together with the growth of the engine's token
counters this gives a price per million tokens.
-/

set_option autoImplicit false

namespace Lss.Model

/-- The stored samples of `[start, stop)`.
SOURCE: lss-collector/src/db.rs:374-384 -/
def samplesBetween (stored : List Sample) (start stop : ℤ) : List Sample :=
  stored.filter fun s => start ≤ s.ts ∧ s.ts < stop

/-- The power of the stored samples of `[start, stop)`; a sample without a reading has none.
SOURCE: lss-collector/src/cost_run.rs:14-23 -/
def wattSeries (stored : List Sample) (start stop : ℤ) : List (ℤ × ℚ) :=
  (samplesBetween stored start stop).filterMap fun s => s.watts.map fun w => (s.ts, w)

/-- Whether the engine had nothing to do, or gave no metrics.
SOURCE: lss-collector/src/cost_run.rs:35 -/
def Sample.idle (s : Sample) : Bool := s.metrics.all fun m => m.running ≤ 0

/-- SOURCE: lss-collector/src/cost_run.rs:30-40 -/
def wattSeriesWithActivity (stored : List Sample) (start stop : ℤ) : List (ℤ × ℚ × Bool) :=
  (samplesBetween stored start stop).filterMap fun s => s.watts.map fun w => (s.ts, w, s.idle)

/-- The rows of a metric in `[start, stop)`, in order of time.
SOURCE: lss-collector/src/db.rs:363-371 -/
def RollupDb.rollupRows (db : RollupDb) (res : ℤ) (name : String) (start stop : ℤ) :
    List (ℤ × Agg) :=
  (List.range (stop - start).toNat).filterMap fun i : ℕ =>
    (db.rollup res name (start + i)).map fun row => (start + i, row.agg)

/-- The energy of the minutes, or of the ten minutes, of `[start, stop)` in kilowatt hours.
SOURCE: lss-collector/src/cost_run.rs:46-50 -/
def energyKwhBuckets (db : RollupDb) (res start stop : ℤ) : List (ℤ × ℚ) :=
  (db.rollupRows res "sum_energy_j" start stop).map fun row => (row.1, row.2.sum / 3600000)

/-- SOURCE: lss-collector/src/cost_run.rs:54-59 -/
structure TodayTokens where
  generated : Option ℚ := none
  prompt : Option ℚ := none
  cached : Option ℚ := none

/-- What the poll loop passes for the tokens since midnight.
SOURCE: lss-collector/src/main.rs:1188-1207 -/
def TodayTokens.ofHistory (h : History) (now midnight : ℤ) : TodayTokens where
  generated := h.counterWindow now (now - midnight) ServeMetrics.generationTokensTotal
  prompt := h.counterWindow now (now - midnight) ServeMetrics.promptTokensTotal
  cached := h.counterWindow now (now - midnight) ServeMetrics.cachedTokensTotal

/-- The tokens the engine really computed: the prompt's that were not cached, and the
generated ones.
SOURCE: lss-collector/src/cost_run.rs:82 -/
def TodayTokens.realWork (t : TodayTokens) : Option ℚ :=
  match t.prompt, t.cached, t.generated with
  | some p, some c, some g => some (max (p - c) 0 + g)
  | _, _, _ => none

/-- SOURCE: lss-core/src/model.rs:118-182 -/
structure CostStatus where
  rateName : String
  rateSource : String
  effectiveDate : String
  isFlat : Bool
  currentUsdPerKwh : Option ℚ
  currentPeriod : String
  liveUsdPerHour : Option ℚ
  todayKwh : Option ℚ
  todayUsd : Option ℚ
  todayUsdPerMillionGeneratedTokens : Option ℚ
  todayUsdPerMillionPromptTokens : Option ℚ
  todayUsdPerMillionRealWorkTokens : Option ℚ
  todayStandbyKwh : Option ℚ
  todayStandbyUsd : Option ℚ
  fixedUsdPerDay : Option ℚ
  unresolvedUsdPerKwh : Option ℚ
  last24hKwh : Option ℚ
  last24hUsd : Option ℚ
  todayCoveredSecs : Option ℤ
  last24hCoveredSecs : Option ℤ

/-- A figure that is there only when something was priced. -/
def CostBreakdown.figure {α : Type} (b : CostBreakdown) (v : Option α) : Option α :=
  if 0 < b.intervalsPriced then v else none

/-- SOURCE: lss-collector/src/cost_run.rs:66-112 -/
def computeCost (calendar : Calendar) (stored : List Sample) (db : RollupDb) (table : RateTable)
    (now midnight : ℤ) (liveWatts : Option ℚ) (tokens : TodayTokens) : CostStatus :=
  let current := table.usdPerKwhAt calendar now
  let (work, standby) :=
    accumulateSplit calendar table (wattSeriesWithActivity stored midnight (now + 1))
  let today := accumulate calendar table (wattSeries stored midnight (now + 1))
  let last24h :=
    accumulateBucketedKwh calendar table (energyKwhBuckets db res1m (now - 86400) (now + 1))
  { rateName := table.name
    rateSource := table.source.getD ""
    effectiveDate := table.effectiveDate
    isFlat := table.isFlat
    currentUsdPerKwh := current.map Prod.fst
    currentPeriod := current.elim "" Prod.snd
    liveUsdPerHour := liveWatts.bind fun w => current.map fun p => w / 1000 * p.1
    todayKwh := today.figure (some today.kwh)
    todayUsd := today.figure (some today.usd)
    todayUsdPerMillionGeneratedTokens :=
      today.figure (tokens.generated.bind (usdPerMillionTokens today.usd))
    todayUsdPerMillionPromptTokens :=
      today.figure (tokens.prompt.bind (usdPerMillionTokens today.usd))
    todayUsdPerMillionRealWorkTokens :=
      work.figure (tokens.realWork.bind (usdPerMillionTokens work.usd))
    todayStandbyKwh := standby.figure (some standby.kwh)
    todayStandbyUsd := standby.figure (some standby.usd)
    fixedUsdPerDay := table.fixedUsdPerDay
    unresolvedUsdPerKwh := table.unresolvedUsdPerKwh
    last24hKwh := last24h.figure (some last24h.kwh)
    last24hUsd := last24h.figure (some last24h.usd)
    todayCoveredSecs := today.earliestTs.map fun t => max (now - t) 0
    last24hCoveredSecs := last24h.earliestTs.map fun t => max (now - t) 0 }

end Lss.Model
