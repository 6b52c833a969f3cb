import Lss.Model.History
import Lss.Model.Loadouts
import Lss.Model.ProbeEvidence

/-!
# The idle gate

A benchmark starts only when nobody has used the engine for some time. What proves it is the
engine's count of generated tokens, without those of the collector's own probes.
-/

set_option autoImplicit false

namespace Lss.Model

/-- What was generated beside the probes.
SOURCE: lss-core/src/bench.rs:626-628 -/
def realTokensGenerated (rawGrowth : Option ℚ) (probeTokens : ℚ) : Option ℚ :=
  rawGrowth.map fun grown => max (grown - probeTokens - counterMarginTokens) 0

/-- What the idle gate looks at.
SOURCE: lss-core/src/bench.rs:632-647 -/
structure IdleObs where
  serveUp : Bool
  running : ℚ
  queue : ℚ
  /-- nothing when there are not two samples to compare -/
  tokensGenerated : Option ℚ
  idleSecs : ℤ
  /-- requests of other users the gateway has in flight -/
  otherUsersInflight : ℕ

/-- SOURCE: lss-core/src/bench.rs:650 -/
def idleWaysOut : String :=
  "Try again when it is quiet, pass --force to start anyway, or pass --under-load to measure " ++
    "WITH the traffic and have the scorecard say so"

/-- SOURCE: lss-core/src/bench.rs:664-682 -/
def idleGate (o : IdleObs) (skip : Bool) : Except String Unit :=
  if !o.serveUp then .error "the serve is not up: nothing to benchmark"
  else if skip then .ok ()
  else if 1 ≤ o.running ∨ 1 ≤ o.queue ∨ 0 < o.otherUsersInflight then
    .error ("the server is busy (" ++ F64.fixed 0 (max o.running (o.otherUsersInflight : ℚ)) ++
      " running, " ++ F64.fixed 0 o.queue ++
      " queued): a benchmark now would slow real users down and measure their traffic too. " ++
      idleWaysOut)
  else
    let mins := toString ((o.idleSecs + 59).tdiv 60)
    match o.tokensGenerated with
    | none =>
      .error ("not enough history yet to prove the engine has been quiet for " ++ mins ++
        " quiet minute(s): try again shortly, or pass --force")
    | some tok =>
      if 0 < tok then
        .error ("the engine generated " ++ F64.fixed 0 tok ++ " token(s) in the last " ++ mins ++
          " min: waiting for " ++ mins ++ " quiet minute(s) protects whoever is using it. " ++
          idleWaysOut)
      else .ok ()

/-- The tokens of the collector's own probes of the last while.
SOURCE: lss-collector/src/main.rs:1074-1080 -/
def ownProbeTokens (db : StoredRecords) (now idleSecs : ℤ) : ℚ :=
  ((db.probesBetween (now - idleSecs) (now + 1)).filterMap fun p =>
    p.tokens.map fun t : ℕ => (t : ℚ)).sum

/-- SOURCE: lss-collector/src/main.rs:1071-1082 -/
def recentTokensGenerated (history : History) (db : StoredRecords) (now idleSecs : ℤ) :
    Option ℚ :=
  realTokensGenerated (history.counterWindow now idleSecs ServeMetrics.generationTokensTotal)
    (ownProbeTokens db now idleSecs)

end Lss.Model
