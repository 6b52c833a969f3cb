import Lss.Model.Rollup

/-!
# Reading the gateway's log back

The gateway tables of more than an hour are added up from the stored ten minutes and from those
still open, which the poll loop hands out at the end of every cycle. A request takes the open ones
first and reads the stored ones after.
-/

set_option autoImplicit false

namespace Lss.Model

open Lss.Library.Buckets (bucket)

/-! ## The answer -/

/-- From when on, and whether everywhere, requests are broken down by key and code.
SOURCE: lss-core/src/series.rs:655-658 -/
structure CodeCoverage where
  since : Option ℤ := none
  gap : Bool := false

/-- SOURCE: lss-core/src/series.rs:662-674 -/
def CodeCoverage.observeLane (c : CodeCoverage) (ts : ℤ) (lane : LaneLog) : CodeCoverage :=
  if lane.requests = 0 then c
  else
    let coded := lane.byKeyStatus.foldl (fun n _ codes => codes.foldl (fun n _ k => n + k) n) 0
    if lane.requests ≤ coded then { c with since := c.since.or (some ts) }
    else ⟨none, true⟩

/-- SOURCE: lss-core/src/series.rs:661-675 -/
def CodeCoverage.observe (c : CodeCoverage) (ts : ℤ) (log : LogDelta) : CodeCoverage :=
  (c.observeLane ts log.publicLane).observeLane ts log.trustedLane

/-- How much of the range has codes.
SOURCE: lss-core/src/series.rs:677-684 -/
def CodeCoverage.label (c : CodeCoverage) : String :=
  if c.gap then if c.since.isSome then "partial" else "none" else "full"

/-- From when on there are codes, where they are only on a part of the range.
SOURCE: lss-core/src/series.rs:686-689 -/
def CodeCoverage.codesSince (c : CodeCoverage) : Option ℤ := c.since.filter fun _ => c.gap

/-- What the stretches of the log add up to. -/
structure GatewayLog where
  log : LogDelta := {}
  coverage : CodeCoverage := {}

/-- SOURCE: lss-collector/src/query.rs:272-275 -/
def GatewayLog.fold (g : GatewayLog) (entry : ℤ × LogDelta) : GatewayLog :=
  { log := g.log.merge entry.2, coverage := g.coverage.observe entry.1 entry.2 }

/-- The rows of a stretch of time, oldest first; they are kept by round ten minutes. -/
def rowsBetween {β : Type} (rows : ℤ → Option β) (start stop : ℤ) : List (ℤ × β) :=
  let first := -bucket res10m (-start)
  let starts := (List.range ((stop - first + res10m - 1) / res10m).toNat).map
    fun i : ℕ => first + res10m * i
  starts.filterMap fun t => (rows t).map fun row => (t, row)

/-- SOURCE: lss-collector/src/db.rs:442-452 -/
def eachGatelog (db : RollupDb) (start stop : ℤ) : List (ℤ × LogDelta) :=
  rowsBetween db.gatelog start stop

/-- What is added up for a range: the samples of an hour, else the stored ten minutes and the
open ones.
SOURCE: lss-collector/src/query.rs:276-284 -/
def gatewayEntries (samples : List Sample) (db : RollupDb) (now range : ℤ)
    (openBucket : Option (ℤ × LogDelta)) : List (ℤ × LogDelta) :=
  let start := now - range
  if range ≤ 3600 then
    (samples.filter fun s => start + 1 ≤ s.ts ∧ s.ts < now + 1).map fun s => (s.ts, s.log)
  else eachGatelog db (bucket res10m start) (now + 1) ++ openBucket.toList

/-- SOURCE: lss-collector/src/query.rs:263-284 -/
def gateway (samples : List Sample) (db : RollupDb) (now range : ℤ)
    (openBucket : Option (ℤ × LogDelta)) : GatewayLog :=
  (gatewayEntries samples db now range openBucket).foldl GatewayLog.fold {}

/-! ## The loop -/

/-- What the poll loop keeps, and what of it the requests see. -/
structure LoopState where
  pipeline : Pipeline := {}
  db : RollupDb := {}
  /-- the ten minutes open at the end of the last cycle -/
  gateOpen : Option (ℤ × LogDelta) := none

/-- What the poll loop does that a request can come between. -/
inductive LoopEvent where
  /-- one sample goes into the pipeline -/
  | push (feed : Feed)
  /-- the cycle ends -/
  | publish

/-- SOURCE: lss-collector/src/main.rs:1035, lss-collector/src/main.rs:1337 -/
def LoopState.step (st : LoopState) : LoopEvent → LoopState
  | .push f =>
    let pushed := st.pipeline.push st.db f.sample f.hists f.replace
    { st with pipeline := pushed.1, db := pushed.2 }
  | .publish => { st with gateOpen := st.pipeline.gate }

def LoopState.run (st : LoopState) (events : List LoopEvent) : LoopState :=
  events.foldl LoopState.step st

/-- The entries of a request that takes the open ten minutes after some events of the loop and
reads the stored ones after some more.
SOURCE: lss-collector/src/http.rs:114-117 -/
def LoopState.answer (st : LoopState) (before between : List LoopEvent) (samples : List Sample)
    (now range : ℤ) : List (ℤ × LogDelta) :=
  let taken := st.run before
  gatewayEntries samples (taken.run between).db now range taken.gateOpen

end Lss.Model
