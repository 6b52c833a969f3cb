import Lss.Model.GateIngest
import Lss.Model.HistStore
import Lss.Model.Incidents
import Lss.Model.Query
import Lss.Model.BenchWatch

/-!
# The owner's targets

The service levels the owner wants, and the share of a window that met each: the shares of the
requests and of the tokens come from the stored histograms and from the gateway's log, the share
of the time from the table of incidents.
-/

set_option autoImplicit false

namespace Lss.Model

/-- SOURCE: lss-core/src/targets.rs:15-28 -/
structure TargetsConfig where
  ttftP95S : ℚ := 5
  minTokSPerUser : ℚ := 30
  maxQueueWaitS : ℚ := 2
  uptimePct : ℚ := 99

/-- SOURCE: lss-core/src/targets.rs:32 -/
def shortPromptTokens : ℚ := 8000

/-- SOURCE: lss-core/src/targets.rs:34 -/
def minShortRequests : ℕ := 20

/-- SOURCE: lss-core/src/targets.rs:36 -/
def shortBasis : String := "requests under 8k tokens"

/-- The share of requests that must meet a latency target.
SOURCE: lss-core/src/targets.rs:44 -/
def requestShareGoalPct : ℚ := 95

/-- SOURCE: lss-core/src/targets.rs:46-63 -/
structure TargetRow where
  key : String
  label : String
  short : String
  /-- what met it, `none` when nothing was measured -/
  metPct : Option ℚ
  goalPct : ℚ
  basis : String
  ok : Option Bool

/-- SOURCE: lss-core/src/targets.rs:66-71 -/
structure TargetsStatus where
  window : String
  rows : List TargetRow

/-- What was measured over a window.
SOURCE: lss-core/src/targets.rs:84-96 -/
structure TargetInputs where
  ttft : HistAccum
  itl : HistAccum
  queueTime : HistAccum
  /-- the short requests of the log, and how many of them were in time -/
  ttftShort : Option (ℕ × ℕ)
  uptimePct : Option ℚ

/-! ## The shares of the targets -/

/-- SOURCE: lss-core/src/targets.rs:105-111 -/
def targetSecs (v : ℚ) : String :=
  if |v - roundHalfAway v| < 1 / 10 ^ 9 then fixedDecimals 0 v ++ " s"
  else fixedDecimals 1 v ++ " s"

/-- One row, judged when something was measured.
SOURCE: lss-core/src/targets.rs:112 -/
def targetRow (key label short : String) (met : Option ℚ) (goal : ℚ) (basis : String) :
    TargetRow where
  key := key
  label := label
  short := short
  metPct := met
  goalPct := goal
  basis := basis
  ok := met.map fun m => goal ≤ m + 1 / 10 ^ 9

/-- SOURCE: lss-core/src/targets.rs:111 -/
def share (h : HistAccum) (x : ℚ) : Option ℚ := (h.fractionLe x).map fun f => roundTo 10 (f * 100)

/-- The first word is judged on short prompts once there are enough of them.
SOURCE: lss-core/src/targets.rs:117-125 -/
def firstWordRow (cfg : TargetsConfig) (i : TargetInputs) : TargetRow :=
  match i.ttftShort.filter fun s => minShortRequests ≤ s.1 with
  | some (n, within) =>
    targetRow "ttft" ("first word within " ++ targetSecs cfg.ttftP95S ++ ", short prompts")
      "first word" (some (roundTo 10 ((within : ℚ) / n * 100))) requestShareGoalPct shortBasis
  | none =>
    targetRow "ttft" ("first word within " ++ targetSecs cfg.ttftP95S) "first word"
      (share i.ttft cfg.ttftP95S) requestShareGoalPct "requests"

/-- A target of nothing is switched off.
SOURCE: lss-core/src/targets.rs:113-140 -/
def evaluateTargets (cfg : TargetsConfig) (window : String) (i : TargetInputs) : TargetsStatus where
  window := window
  rows :=
    (if 0 < cfg.ttftP95S then [firstWordRow cfg i] else []) ++
    (if 0 < cfg.minTokSPerUser then
      [targetRow "speed" ("written at " ++ fixedDecimals 0 cfg.minTokSPerUser ++ " tok/s or faster")
        "speed" (share i.itl (1 / cfg.minTokSPerUser)) 90 "tokens"] else []) ++
    (if 0 < cfg.maxQueueWaitS then
      [targetRow "queue" ("waited under " ++ targetSecs cfg.maxQueueWaitS ++ " for a slot")
        "no wait" (share i.queueTime cfg.maxQueueWaitS) requestShareGoalPct "requests"] else []) ++
    (if 0 < cfg.uptimePct then
      [targetRow "uptime" "server up" "up" (i.uptimePct.map (roundTo 100)) cfg.uptimePct "time"]
      else [])

/-! ## What the database holds of a window -/

/-- The table of incidents: no two rows have one id.
SOURCE: lss-collector/src/db.rs:32-33 -/
structure IncidentTable where
  rows : List Incident := []
  unique : (rows.map Incident.id).Nodup := by simp

/-- The rows of the tables a window is measured from. -/
structure TargetsDb where
  incidents : IncidentTable := {}
  gatelog : List (ℤ × LogDelta) := []
  hist : HistDb := {}

/-- Newer incidents come first, by their starts and then by their ids. -/
def newerFirst (i j : Incident) : Prop := j.start < i.start ∨ (j.start = i.start ∧ j.id ≤ i.id)

instance : DecidableRel newerFirst := fun _ _ => inferInstanceAs (Decidable (_ ∨ _))

/-- What is still open, or ended after a time, or started after it.
SOURCE: lss-collector/src/db.rs:234 -/
def Incident.overlaps (i : Incident) (ts : ℤ) : Prop :=
  ts ≤ i.start ∨ i.endTs = none ∨ ∃ stop ∈ i.endTs, ts ≤ stop

instance (i : Incident) (ts : ℤ) : Decidable (i.overlaps ts) := inferInstanceAs (Decidable (_ ∨ _))

/-- The most rows the query returns.
SOURCE: lss-collector/src/db.rs:234 -/
def incidentLimit : ℕ := 500

/-- SOURCE: lss-collector/src/db.rs:232-238 -/
def incidentsSince (incidents : IncidentTable) (ts : ℤ) : List Incident :=
  ((incidents.rows.filter fun i => i.overlaps ts).insertionSort newerFirst).take incidentLimit

/-- SOURCE: lss-collector/src/db.rs:442-459 -/
def gatelogMerged (rows : List (ℤ × LogDelta)) (start stop : ℤ) : LogDelta :=
  (((rows.filter fun r => start ≤ r.1 ∧ r.1 < stop).insertionSort fun r s => r.1 ≤ s.1).map
    Prod.snd).foldl LogDelta.merge {}

/-- SOURCE: lss-collector/src/advice_run.rs:41-45 -/
def histOver (db : HistDb) (res : ℤ) (metric : String) (start stop : ℤ) : HistAccum :=
  ((db.histRows res metric start stop).map Prod.snd).foldl HistAccum.add {}

/-! ## The targets over a window -/

/-- SOURCE: lss-collector/src/advice_run.rs:14-16 -/
def windowTier (secs : ℤ) : ℤ := if secs ≤ 86400 then res1m else res10m

/-- How much of a window an incident lasts, an open one lasting until now.
SOURCE: lss-collector/src/advice_run.rs:68 -/
def Incident.clipped (now start : ℤ) (i : Incident) : ℤ :=
  max (min (i.endTs.getD now) now - max i.start start) 0

/-- The share of a window the server was up, in percent, from the incidents the query returns.
SOURCE: lss-collector/src/advice_run.rs:66-70 -/
def uptimePct (incidents : IncidentTable) (now start : ℤ) : Option ℚ :=
  if start < now then
    let down : ℤ := (((incidentsSince incidents start).filter fun i => i.kind = .serveDown).map
      (Incident.clipped now start)).sum
    some (max 0 (min 1 (1 - (down : ℚ) / ((now - start : ℤ) : ℚ))) * 100)
  else none

/-- The size classes of the log up to the short prompts.
SOURCE: lss-core/src/gatelog.rs:43, lss-collector/src/advice_run.rs:76-77 -/
def shortBuckets : List String :=
  ([("<1k", 1000), ("1-8k", 8000), ("8-32k", 32000), ("32-128k", 128000)].filter
    fun b : String × ℚ => b.2 ≤ shortPromptTokens).map Prod.fst

/-- How many requests were counted by their times, and how many of them took at most `ms`.
SOURCE: lss-core/src/gatelog.rs:99-101 -/
def TimeAgg.within (t : TimeAgg) (ms : ℚ) : ℕ × ℕ :=
  (t.leN, (((timeEdgesMs.zip t.le).toList.filter fun e => e.1 ≤ ms).map Prod.snd).sum)

/-- The times of the short requests of both lanes.
SOURCE: lss-collector/src/advice_run.rs:74-83 -/
def shortTimes (log : LogDelta) : TimeAgg :=
  ([log.publicLane, log.trustedLane].flatMap fun lane =>
    shortBuckets.filterMap fun bucket => lane.ttfbBySize[bucket]?).foldl TimeAgg.merge {}

/-- SOURCE: lss-collector/src/advice_run.rs:65-85 -/
def targetInputs (db : TargetsDb) (now secs firstSampleTs : ℤ) (cfg : TargetsConfig) :
    TargetInputs :=
  let since := now - secs
  let before := now + 1
  let res := windowTier secs
  let short := (shortTimes (gatelogMerged db.gatelog since before)).within (cfg.ttftP95S * 1000)
  { ttft := histOver db.hist res "ttft" since before
    itl := histOver db.hist res "itl" since before
    queueTime := histOver db.hist res "queue_time" since before
    ttftShort := (some short).filter fun s => 0 < s.1
    uptimePct := uptimePct db.incidents now (max since firstSampleTs) }

/-- SOURCE: lss-collector/src/advice_run.rs:62-87 -/
def targets (db : TargetsDb) (now : ℤ) (name : String) (secs firstSampleTs : ℤ)
    (cfg : TargetsConfig) : TargetsStatus :=
  evaluateTargets cfg name (targetInputs db now secs firstSampleTs cfg)

end Lss.Model
