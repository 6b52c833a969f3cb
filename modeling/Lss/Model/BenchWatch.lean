import Lss.Model.Hist
import Lss.Model.Number

/-!
# The safety watch of a benchmark

What one safety poll sees, what it makes of other people's requests, when it stops the run, and
how the polls of a run add up to the background load on the scorecard.
-/

set_option autoImplicit false

namespace Lss.Model

/-! ## One poll -/

/-- The lane whose counter holds the benchmark's own requests, which carry no priority.
SOURCE: lss-core/src/bench.rs:550-563 -/
inductive OwnLane where
  | trustedLane
  | publicLane
  | neither
deriving DecidableEq

/-- The priority an engine stamps on a request that asked for none.
SOURCE: lss-core/src/bench.rs:548 -/
def engineDefaultPriority : String := "0"

/-- SOURCE: lss-core/src/bench.rs:566-574 -/
def ownLaneFor (publicPriority trustedPriority : String) : OwnLane :=
  if trustedPriority = engineDefaultPriority then .trustedLane
  else if publicPriority = engineDefaultPriority then .publicLane
  else .neither

/-- What a safety poll sees.
SOURCE: lss-core/src/bench.rs:517-544 -/
structure SafetyObs where
  /-- the engine's own totals, when its metrics could be read -/
  running : Option ℚ := none
  queue : Option ℚ := none
  /-- requests running or queued with a lane's priority -/
  gatewayPublic : Option ℚ := none
  gatewayTrusted : Option ℚ := none
  /-- requests in flight of users other than the benchmark, when the gateway lists its users -/
  otherUsersInflight : Option ℕ := none
  /-- the benchmark's own requests through the gateway -/
  ownGatewayInflight : ℕ := 0
  ownLane : OwnLane := .trustedLane

/-- The most the benchmark itself can have on the engine.
SOURCE: lss-core/src/bench.rs:579-581 -/
def benchInflight (o : SafetyObs) (stepMaxConcurrency : ℕ) : ℚ :=
  stepMaxConcurrency + o.ownGatewayInflight

/-- Where a count of other people's requests came from.
SOURCE: lss-core/src/bench.rs:691-694 -/
inductive LoadSource where
  | users
  | lanes
  | engine
  | unmeasured
deriving DecidableEq

/-- How good the evidence is; below two it cannot prove quiet.
SOURCE: lss-core/src/bench.rs:697-704 -/
def LoadSource.rank : LoadSource → ℕ
  | users => 3
  | lanes => 2
  | engine => 1
  | unmeasured => 0

/-- Other people's requests as one poll saw them, from the best source it had.
SOURCE: lss-core/src/bench.rs:709-728 -/
def foreignNow (o : SafetyObs) (stepMaxConcurrency : ℕ) : Option (ℚ × LoadSource) :=
  match o.otherUsersInflight with
  | some n => some (n, .users)
  | none =>
    let own := benchInflight o stepMaxConcurrency
    match o.gatewayPublic, o.gatewayTrusted with
    | some publicCount, some trustedCount =>
      let n := match o.ownLane with
        | .trustedLane => publicCount + max (trustedCount - own) 0
        | .publicLane => max (publicCount - own) 0 + trustedCount
        | .neither => publicCount + trustedCount
      some (n, .lanes)
    | _, _ => o.running.map fun r => (max (r - own) 0, .engine)

/-- Why a run must stop now.
SOURCE: lss-core/src/bench.rs:599-615 -/
def abortReason (o : SafetyObs) (stepMaxConcurrency : ℕ) : Option String :=
  match (foreignNow o stepMaxConcurrency).filter fun f => 1 / 2 ≤ f.1 && f.2 ≠ .engine with
  | some (n, .users) =>
    some ("real traffic: " ++ F64.fixed 0 n ++
      " request(s) in flight from a user that is not the bench (gateway user table)")
  | some (n, _) =>
    some ("real traffic: " ++ F64.fixed 0 n ++
      " request(s) came in through the gateway while the bench was running")
  | none =>
    -- who went straight to the engine is in no table and perhaps in no lane
    o.running.bind fun r =>
      let allowed := benchInflight o stepMaxConcurrency
      if allowed + 1 / 2 < r then
        some ("real traffic: " ++ F64.fixed 0 r ++ " requests running, the bench launched at most " ++
          F64.fixed 0 allowed)
      else none

/-! ## A run of polls -/

/-- SOURCE: lss-core/src/bench.rs:734-745 -/
structure LoadSampler where
  samples : ℕ := 0
  pollsWithTraffic : ℕ := 0
  foreignSum : ℚ := 0
  foreignMax : ℚ := 0
  foreignSamples : ℕ := 0
  queueSum : ℚ := 0
  queueMax : ℚ := 0
  /-- the weakest source any poll had to fall back to -/
  weakest : Option LoadSource := none

/-- SOURCE: lss-core/src/bench.rs:748-765 -/
def LoadSampler.push (l : LoadSampler) (o : SafetyObs) (stepMaxConcurrency : ℕ) : LoadSampler :=
  let seen := foreignNow o stepMaxConcurrency
  let source := seen.elim .unmeasured Prod.snd
  { samples := l.samples + 1
    weakest := if l.weakest.all fun w => source.rank < w.rank then some source else l.weakest
    foreignSamples := l.foreignSamples + if seen.isSome then 1 else 0
    foreignSum := l.foreignSum + seen.elim 0 Prod.fst
    foreignMax := seen.elim l.foreignMax fun s => max l.foreignMax s.1
    pollsWithTraffic := l.pollsWithTraffic + if seen.any fun s => 1 / 2 ≤ s.1 then 1 else 0
    queueSum := l.queueSum + o.queue.getD 0
    queueMax := o.queue.elim l.queueMax (max l.queueMax) }

/-- The background load on a scorecard.
SOURCE: lss-core/src/bench.rs:798-816 -/
structure BackgroundLoad where
  samples : ℕ
  pollsWithTraffic : ℕ
  concurrentAvg : Option ℚ
  concurrentMax : Option ℚ
  source : LoadSource
  queueAvg : ℚ
  queueMax : ℚ
  engineTokS : Option ℚ

/-- A number to so many parts of a whole. -/
def roundTo (parts : ℕ) (v : ℚ) : ℚ := roundHalfAway (v * parts) / parts

/-- SOURCE: lss-core/src/bench.rs:768-784 -/
def LoadSampler.finish (l : LoadSampler) (engineTokS : Option ℚ) : Option BackgroundLoad :=
  if l.samples = 0 then none
  else some
    { samples := l.samples
      pollsWithTraffic := l.pollsWithTraffic
      concurrentAvg :=
        if 0 < l.foreignSamples then some (roundTo 100 (l.foreignSum / l.foreignSamples)) else none
      concurrentMax := if 0 < l.foreignSamples then some (roundTo 100 l.foreignMax) else none
      source := l.weakest.getD .unmeasured
      queueAvg := roundTo 100 (l.queueSum / l.samples)
      queueMax := roundTo 100 l.queueMax
      engineTokS := engineTokS.map (roundTo 10) }

/-- How a scorecard's numbers must be read.
SOURCE: lss-core/src/bench.rs:822-831 -/
inductive LoadClass where
  | quiet
  | loaded
  | unknown
deriving DecidableEq

/-- SOURCE: lss-core/src/bench.rs:852-867 -/
def BackgroundLoad.loadClass (b : BackgroundLoad) : LoadClass :=
  if b.samples = 0 ∨ b.source.rank = 0 then .unknown
  else if b.source.rank < 2 then
    -- the engine's own total can show traffic, not the absence of it
    if 0 < b.pollsWithTraffic then .loaded else .unknown
  else if b.pollsWithTraffic = 0 ∧ b.concurrentMax.any (fun m => m < 1 / 2) then .quiet
  else .loaded

end Lss.Model
