import Lss.Model.Engines

/-!
# The polls of a running benchmark

The watch scrapes the engine and asks the gateway for its users at every safety poll, keeps count
of the benchmark's own requests, and adds what it saw to the background load.
-/

set_option autoImplicit false

namespace Lss.Model

/-! ## The benchmark's own requests -/

/-- Requests in flight, just ended, or given up by the client.
SOURCE: lss-collector/src/bench_run.rs:723-727 -/
structure OwnLoad where
  inflight : ℕ
  graceUntil : ℤ
  abandoned : ℕ

namespace OwnLoad

/-- SOURCE: lss-collector/src/bench_run.rs:730-732 -/
def new (now : ℤ) : OwnLoad := ⟨0, now, 0⟩

/-- SOURCE: lss-collector/src/bench_run.rs:734-736 -/
def start (o : OwnLoad) (n : ℕ) : OwnLoad := { o with inflight := n }

/-- SOURCE: lss-collector/src/bench_run.rs:739-743 -/
def finish (o : OwnLoad) (now poll : ℤ) (abandoned : ℕ) : OwnLoad :=
  { inflight := 0, graceUntil := now + poll * 2, abandoned := o.abandoned + abandoned }

/-- The abandoned requests are over once the engine runs no more than those in flight.
SOURCE: lss-collector/src/bench_run.rs:748-754 -/
def count (o : OwnLoad) (now : ℤ) (engineRunning : Option ℚ) : OwnLoad × ℕ :=
  let o :=
    if engineRunning.any fun r : ℚ => r ≤ o.inflight + 1 / 2 then { o with abandoned := 0 } else o
  let live := if 0 < o.inflight then o.inflight else if now < o.graceUntil then 1 else 0
  (o, live + o.abandoned)

end OwnLoad

/-! ## A poll -/

/-- A row of the gateway's user table.
SOURCE: lss-core/src/gate.rs:107-110 -/
structure GateUser where
  lane : String
  user : String
  inflight : ℕ

/-- What the watch is configured with. -/
structure WatchConfig where
  publicPriority : String
  trustedPriority : String
  hasGate : Bool
  /-- reads a number from a label -/
  parse : String → Option ℚ

/-- What answers at a poll. -/
structure PollReads where
  now : ℤ
  /-- the configured kind, else the detected one -/
  kind : Option EngineKind
  pages : Pages
  /-- the gateway's health, with a user table when it publishes one -/
  gate : Option (Option (List GateUser))

/-- The engine's metrics, when it says how many requests run.
SOURCE: lss-collector/src/bench_run.rs:370-378 -/
def PollReads.metrics (cfg : WatchConfig) (p : PollReads) : Option ServeMetrics :=
  p.kind.bind fun kind =>
    let scraped := scrape cfg.parse cfg.publicPriority cfg.trustedPriority p.pages kind
    if scraped.metrics.any fun m => m.running.isSome then scraped.serveMetrics else none

/-- The user table, when there is a gateway and it publishes one.
SOURCE: lss-collector/src/bench_run.rs:379 -/
def PollReads.users (cfg : WatchConfig) (p : PollReads) : Option (List GateUser) :=
  if cfg.hasGate then p.gate.bind id else none

/-- The requests in flight of everybody but the benchmark.
SOURCE: lss-collector/src/bench_run.rs:405 -/
def othersInflight (users : List GateUser) : ℕ :=
  ((users.filter fun u => !(u.lane == "trusted" && u.user == benchUser)).map GateUser.inflight).sum

/-- One safety poll.
SOURCE: lss-collector/src/bench_run.rs:365-410 -/
def observe (cfg : WatchConfig) (own : OwnLoad) (p : PollReads) : OwnLoad × SafetyObs :=
  let metrics := p.metrics cfg
  let counted := own.count p.now (metrics.map ServeMetrics.running)
  (counted.1,
    { running := metrics.map ServeMetrics.running
      queue := metrics.map ServeMetrics.queue
      gatewayPublic := metrics.map fun m => m.runningPublic + m.queuePublic
      gatewayTrusted := metrics.map fun m => m.runningTrusted + m.queueTrusted
      otherUsersInflight := (p.users cfg).map othersInflight
      ownGatewayInflight := counted.2
      ownLane := ownLaneFor cfg.publicPriority cfg.trustedPriority })

/-! ## A run -/

/-- What happens while a benchmark runs. -/
inductive WatchEvent where
  /-- requests of its own go through the gateway -/
  | start (n : ℕ)
  | finish (now poll : ℤ) (abandoned : ℕ)
  /-- a safety poll during a step that may launch so many requests -/
  | poll (reads : PollReads) (maxConcurrency : ℕ)

/-- SOURCE: lss-collector/src/bench_run.rs:340-355 -/
structure Watch where
  own : OwnLoad
  load : LoadSampler := {}

/-- SOURCE: lss-collector/src/bench_run.rs:413-429 -/
def Watch.step (cfg : WatchConfig) (w : Watch) : WatchEvent → Watch
  | .start n => { w with own := w.own.start n }
  | .finish now poll abandoned => { w with own := w.own.finish now poll abandoned }
  | .poll reads maxConcurrency =>
    let observed := observe cfg w.own reads
    { own := observed.1, load := w.load.push observed.2 maxConcurrency }

def Watch.run (cfg : WatchConfig) (w : Watch) (events : List WatchEvent) : Watch :=
  events.foldl (Watch.step cfg) w

end Lss.Model
