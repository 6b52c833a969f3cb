import Lss.Model.Hist
import Lss.Model.Series

/-!
# What is known about a loadout

A loadout is a model in an image with launch arguments. The collector adds up, sample by sample,
what the engine did while that loadout served, together with the speed probes it ran and the
latency windows that closed.
-/

set_option autoImplicit false

namespace Lss.Model

/-- SOURCE: lss-core/src/loadout.rs:23 -/
def curveMaxLevels : ℕ := 64

/-- SOURCE: lss-core/src/loadout.rs:32 -/
def c1SamplesKept : ℕ := 200

/-- SOURCE: lss-core/src/loadout.rs:41 -/
def readingStepTokens : ℚ := 2000

/-- SOURCE: lss-core/src/loadout.rs:816-818 -/
def readPeakMinTokens : ℚ := 4000
def readPeakMinSecs : ℚ := 1
def readPeakWindowSecs : ℤ := 60
def coldStartsKept : ℕ := 10

/-- The last `n` of a list. -/
def lastN {α : Type} (n : ℕ) (xs : List α) : List α := xs.drop (xs.length - n)

/-! ## Probes -/

/-- A finished speed probe.
SOURCE: lss-core/src/probe.rs:46-75 -/
structure ProbeRecord where
  ts : ℤ
  status : String
  ttftMs : Option ℚ := none
  decodeTokS : Option ℚ := none
  tokens : Option ℕ := none
  detail : String := ""
  httpStatus : Option ℕ := none
  valid : Bool := true
  invalidReason : Option String := none
  unverified : Bool := false

/-- SOURCE: lss-core/src/probe.rs:342-344 -/
def ProbeRecord.isReading (p : ProbeRecord) : Bool := p.status = "ok" && p.valid

/-! ## The concurrency curve -/

/-- SOURCE: lss-core/src/loadout.rs:210-220 -/
structure CurveCell where
  samples : ℕ := 0
  tokSSum : ℚ := 0
  ttftSumS : ℚ := 0
  ttftN : ℚ := 0
  specLenSum : ℚ := 0
  specN : ℕ := 0
deriving Inhabited

/-- Throughput by the number of running requests.
SOURCE: lss-core/src/loadout.rs:226-228 -/
structure Curve where
  cells : List CurveCell := []
deriving Inhabited

namespace Curve

/-- Changes the cell of a number of running requests, making room for it first.
SOURCE: lss-core/src/loadout.rs:231-240 -/
def cell (c : Curve) (running : ℚ) (change : CurveCell → CurveCell) : Curve :=
  if running < 1 / 2 then c
  else
    let level := min (max (roundHalfAway running).toNat 1) curveMaxLevels
    let cells := c.cells ++ List.replicate (level - c.cells.length) ({} : CurveCell)
    { c with cells := cells.modify (level - 1) change }

/-- SOURCE: lss-core/src/loadout.rs:242-250 -/
def observe (c : Curve) (running tokS : ℚ) : Curve :=
  c.cell running fun x => { x with samples := x.samples + 1, tokSSum := x.tokSSum + max tokS 0 }

/-- SOURCE: lss-core/src/loadout.rs:254-265 -/
def observeExtra (c : Curve) (running ttftSumS ttftN specLen : ℚ) : Curve :=
  c.cell running fun x =>
    let x := if 0 < ttftN ∧ 0 ≤ ttftSumS then
      { x with ttftSumS := x.ttftSumS + ttftSumS, ttftN := x.ttftN + ttftN } else x
    if 0 < specLen then
      { x with specLenSum := x.specLenSum + specLen, specN := x.specN + 1 } else x

end Curve

/-- The name of a conversation's length.
SOURCE: lss-core/src/loadout.rs:809-813 -/
def ctxBucket (contextTokens : ℚ) : String :=
  if contextTokens < 4096 then "0"
  else if contextTokens < 40000 then "16k"
  else if contextTokens < 98000 then "64k"
  else if contextTokens < 190000 then "128k"
  else "250k"

/-! ## The accumulator -/

/-- The minute of reading that is being filled: its start, the tokens read and the seconds. -/
structure ReadWindow where
  start : ℤ := 0
  tokens : ℚ := 0
  secs : ℚ := 0
deriving Inhabited

/-- Everything added up for one loadout.
SOURCE: lss-core/src/loadout.rs:402-475 -/
structure LoadoutAcc where
  runs : ℕ := 0
  lastStartedAt : ℤ := 0
  samples : ℕ := 0
  upSamples : ℕ := 0
  secs : ℚ := 0
  servingSecs : ℚ := 0
  joules : ℚ := 0
  servingJoules : ℚ := 0
  genTokens : ℚ := 0
  promptTokens : ℚ := 0
  cachedTokens : ℚ := 0
  requests : ℚ := 0
  prefillSecs : ℚ := 0
  prefillTokens : ℚ := 0
  readTokens : ℚ := 0
  readSecs : ℚ := 0
  readPeakTokS : ℚ := 0
  readWindow : ReadWindow := {}
  ctxSpeed : Std.ExtTreeMap String CurveCell := ∅
  coldStarts : List ℚ := []
  engineStartupS : ℚ := 0
  curve : Curve := {}
  specLenSum : ℚ := 0
  specRateSum : ℚ := 0
  specSamples : ℕ := 0
  specGenTokens : ℚ := 0
  specVerifyCalls : ℚ := 0
  kvPeak : ℚ := 0
  kvCapacityTokens : ℚ := 0
  contextLen : ℚ := 0
  slots : ℕ := 0
  evictedTokens : ℚ := 0
  retractedSamples : ℕ := 0
  e2eSecs : ℚ := 0
  prefillForwardSecs : ℚ := 0
  c1Probes : ℕ := 0
  c1Sum : ℚ := 0
  c1Best : ℚ := 0
  c1Samples : List ℚ := []
  ttft : HistAccum := {}
  itl : HistAccum := {}
  promptLen : HistAccum := {}
  genLen : HistAccum := {}
  gateRequests : ℕ := 0
  gate5xx : ℕ := 0
  gate429 : ℕ := 0
  gate503 : ℕ := 0
  gate499 : ℕ := 0
  ttfbBySize : Std.ExtTreeMap String TimeAgg := ∅
  promptMaxTokens : ℚ := 0
  lastTs : ℤ := 0
deriving Inhabited

namespace LoadoutAcc

/-- Another start of a container with this configuration.
SOURCE: lss-core/src/loadout.rs:479-484 -/
def noteRun (acc : LoadoutAcc) (startedAt : ℤ) : LoadoutAcc :=
  if startedAt ≠ acc.lastStartedAt ∨ acc.runs = 0 then
    { acc with runs := acc.runs + 1, lastStartedAt := startedAt }
  else acc

/-- SOURCE: lss-core/src/loadout.rs:487-493 -/
def noteColdStart (acc : LoadoutAcc) (secs : ℚ) : LoadoutAcc :=
  if 0 < secs then
    { acc with
      coldStarts :=
        lastN coldStartsKept (acc.coldStarts ++ [(roundHalfAway (secs * 10) : ℚ) / 10]) }
  else acc

/-- A longer step between two samples is not counted.
SOURCE: lss-core/src/loadout.rs:21 -/
def maxStepSecs : ℤ := 30

/-- The seconds between two samples that are counted.
SOURCE: lss-core/src/loadout.rs:500-501 -/
def stepSecs (prev : Option Sample) (cur : Sample) : ℚ :=
  match prev with
  | none => 0
  | some p =>
    if 1 ≤ cur.ts - p.ts ∧ cur.ts - p.ts ≤ maxStepSecs then ((cur.ts - p.ts : ℤ) : ℚ) else 0

/-- The power of a step: the mean of its ends, or the one that is there.
SOURCE: lss-core/src/loadout.rs:514-517 -/
def stepWatts (prev : Option Sample) (cur : Sample) : Option ℚ :=
  match prev.bind Sample.watts, cur.watts with
  | some a, some b => some ((a + b) / 2)
  | a, b => a.or b

/-- Time and energy of a step.
SOURCE: lss-core/src/loadout.rs:508-523 -/
def observeEnergy (acc : LoadoutAcc) (prev : Option Sample) (cur : Sample) (serving : Bool) :
    LoadoutAcc :=
  let dt := stepSecs prev cur
  if 0 < dt then
    let joules := ((stepWatts prev cur).map fun w => w * dt).getD 0
    { acc with
      secs := acc.secs + dt
      servingSecs := acc.servingSecs + if serving then dt else 0
      joules := acc.joules + joules
      servingJoules := acc.servingJoules + if serving then joules else 0 }
  else acc

/-- How many requests of a lane were answered with one of the statuses. -/
def statusCount (lane : LaneLog) (wanted : ℕ → Bool) : ℕ :=
  (lane.byStatus.toList.map fun e => if wanted e.1 then e.2 else 0).sum

/-- The gateway's view of one lane.
SOURCE: lss-core/src/loadout.rs:524-541 -/
def observeLane (acc : LoadoutAcc) (lane : LaneLog) : LoadoutAcc :=
  { acc with
    gateRequests := acc.gateRequests + lane.requests
    gate429 := acc.gate429 + statusCount lane (· == 429)
    gate499 := acc.gate499 + statusCount lane (· == 499)
    gate503 := acc.gate503 + statusCount lane (· == 503)
    gate5xx := acc.gate5xx + statusCount lane (· / 100 == 5)
    ttfbBySize := mergeEntries TimeAgg.merge acc.ttfbBySize lane.ttfbBySize
    promptMaxTokens := max acc.promptMaxTokens lane.promptMax }

/-- Whether a prompt was being read in the step, which says nothing about writing.
SOURCE: lss-core/src/loadout.rs:548 -/
def readingStep (prev : Option ServeMetrics) (m : ServeMetrics) : Bool :=
  0 < m.prefillInflightReqs ||
    prev.all fun pm => readingStepTokens ≤ m.computedPromptTokensSince pm

/-- What the engine's gauges say.
SOURCE: lss-core/src/loadout.rs:548-569 -/
def observeGauges (acc : LoadoutAcc) (prev : Option ServeMetrics) (m : ServeMetrics)
    (serving : Bool) : LoadoutAcc :=
  let alone := roundHalfAway m.running = 1 ∧ 0 < m.genThroughput ∧ 0 < m.decodeSumSeqLens
  let drafted := serving ∧ 0 < m.specAcceptLength
  { acc with
    curve := if readingStep prev m then acc.curve else acc.curve.observe m.running m.genThroughput
    ctxSpeed :=
      if alone then
        acc.ctxSpeed.alter (ctxBucket m.decodeSumSeqLens) fun old =>
          let c := old.getD {}
          some { c with samples := c.samples + 1, tokSSum := c.tokSSum + m.genThroughput }
      else acc.ctxSpeed
    engineStartupS := if 0 < m.startupTimeS then m.startupTimeS else acc.engineStartupS
    kvPeak := max acc.kvPeak m.kvUsage
    kvCapacityTokens := max acc.kvCapacityTokens m.maxTotalTokens
    contextLen := max acc.contextLen m.contextLen
    retractedSamples := acc.retractedSamples + if 0 < m.retracted then 1 else 0
    specLenSum := acc.specLenSum + if drafted then m.specAcceptLength else 0
    specRateSum := acc.specRateSum + if drafted then m.specAcceptRate else 0
    specSamples := acc.specSamples + if drafted then 1 else 0 }

/-- What a counter grew by, when the two samples carry the same counters.
SOURCE: lss-core/src/loadout.rs:574-575 -/
def grownSince (m pm : ServeMetrics) (pick : ServeMetrics → ℚ) : ℚ :=
  if m.comparable pm && pick pm ≤ pick m then pick m - pick pm else 0

/-- The reading speed: a full minute is compared with the best one, and a new one begun.
SOURCE: lss-core/src/loadout.rs:602-624 -/
def observeReading (acc : LoadoutAcc) (ts : ℤ) (computed readSecs : ℚ) : LoadoutAcc :=
  let acc := { acc with readTokens := acc.readTokens + computed, readSecs := acc.readSecs + readSecs }
  let acc :=
    if readPeakWindowSecs ≤ ts - acc.readWindow.start then
      let wallSecs : ℚ := (ts - acc.readWindow.start : ℤ)
      { acc with
        readPeakTokS :=
          if readPeakMinTokens ≤ acc.readWindow.tokens ∧ readPeakMinSecs ≤ wallSecs then
            max acc.readPeakTokS (acc.readWindow.tokens / wallSecs)
          else acc.readPeakTokS
        readWindow := { start := ts } }
    else acc
  { acc with
    readWindow :=
      { acc.readWindow with
        tokens := acc.readWindow.tokens + computed
        secs := acc.readWindow.secs + readSecs } }

/-- What the engine's counters grew by in a step.
SOURCE: lss-core/src/loadout.rs:571-626 -/
def observeCounters (acc : LoadoutAcc) (ts : ℤ) (dt : ℚ) (m pm : ServeMetrics) : LoadoutAcc :=
  let grown := grownSince m pm
  let generated := grown ServeMetrics.generationTokensTotal
  let verify := grown ServeMetrics.specVerifyCallsTotal
  let computed := m.computedPromptTokensSince pm
  let acc :=
    { acc with
      genTokens := acc.genTokens + generated
      promptTokens := acc.promptTokens + grown ServeMetrics.promptTokensTotal
      cachedTokens := acc.cachedTokens + grown ServeMetrics.cachedTokensTotal
      requests := acc.requests + grown ServeMetrics.requestsTotal
      evictedTokens := acc.evictedTokens + grown ServeMetrics.evictedTokensTotal
      e2eSecs := acc.e2eSecs + grown ServeMetrics.e2eSum
      prefillForwardSecs := acc.prefillForwardSecs + grown ServeMetrics.prefillForwardSum
      specVerifyCalls := if 0 < verify then acc.specVerifyCalls + verify else acc.specVerifyCalls
      specGenTokens := if 0 < verify then acc.specGenTokens + generated else acc.specGenTokens
      prefillSecs := if 0 < computed then acc.prefillSecs + dt else acc.prefillSecs
      prefillTokens := if 0 < computed then acc.prefillTokens + computed else acc.prefillTokens }
  if 0 < m.prefillForwardSum ∨ 0 < pm.prefillForwardSum then
    acc.observeReading ts computed (grown ServeMetrics.prefillForwardSum)
  else acc

/-- What the metrics of a sample add.
SOURCE: lss-core/src/loadout.rs:542-627 -/
def observeMetrics (acc : LoadoutAcc) (prev : Option Sample) (cur : Sample) (m : ServeMetrics) :
    LoadoutAcc :=
  let serving : Bool := 1 ≤ m.running
  let before := prev.bind Sample.metrics
  let acc := acc.observeGauges before m serving
  let dt := stepSecs prev cur
  let (acc, ttft) :=
    match before with
    | some pm =>
      if 0 < dt then
        (acc.observeCounters cur.ts dt m pm,
          (grownSince m pm ServeMetrics.ttftSum, grownSince m pm ServeMetrics.ttftCount))
      else (acc, (0, 0))
    | none => (acc, (0, 0))
  { acc with
    curve :=
      acc.curve.observeExtra m.running ttft.1 ttft.2 (if serving then m.specAcceptLength else 0) }

/-- One sample, after the one before it.
SOURCE: lss-core/src/loadout.rs:496-628 -/
def observe (acc : LoadoutAcc) (prev : Option Sample) (cur : Sample) : LoadoutAcc :=
  let serving : Bool := cur.metrics.any fun m => 1 ≤ m.running
  let acc :=
    { acc with
      samples := acc.samples + 1
      upSamples := acc.upSamples + if cur.serveUp then 1 else 0
      lastTs := cur.ts }
  let acc := acc.observeEnergy prev cur serving
  let acc := (acc.observeLane cur.log.publicLane).observeLane cur.log.trustedLane
  match cur.metrics with
  | none => acc
  | some m => acc.observeMetrics prev cur m

/-- A finished probe; only a valid reading counts.
SOURCE: lss-core/src/loadout.rs:630-640 -/
def observeProbe (acc : LoadoutAcc) (p : ProbeRecord) : LoadoutAcc :=
  match p.isReading, p.decodeTokS with
  | true, some v =>
    { acc with
      c1Probes := acc.c1Probes + 1
      c1Sum := acc.c1Sum + v
      c1Best := max acc.c1Best v
      c1Samples := lastN c1SamplesKept (acc.c1Samples ++ [v]) }
  | _, _ => acc

/-- The figures of the readings among some probes, in the place of those there were.
SOURCE: lss-core/src/loadout.rs:643-651 -/
def rebuildC1 (acc : LoadoutAcc) (probes : List ProbeRecord) : LoadoutAcc :=
  let readings := (probes.filter ProbeRecord.isReading).filterMap ProbeRecord.decodeTokS
  { acc with
    c1Probes := readings.length
    c1Sum := readings.sum
    c1Best := readings.foldl max 0
    c1Samples := lastN c1SamplesKept readings }

/-- A closed window of one minute.
SOURCE: lss-core/src/loadout.rs:653-662 -/
def observeWindow (acc : LoadoutAcc) (w : ClosedWindow) : LoadoutAcc :=
  if w.res ≠ 60 then acc
  else { acc with
    ttft := acc.ttft.add w.accs[0]
    itl := acc.itl.add w.accs[2]
    promptLen := acc.promptLen.add w.accs[4]
    genLen := acc.genLen.add w.accs[5] }

end LoadoutAcc

end Lss.Model
