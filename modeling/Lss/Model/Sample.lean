import Lss.Model.GateLog

/-!
# The stored sample

One five-second poll of the collector, with the parts it is made of: the engine's
metrics, the GPU readings, the container states, the gateway's health and the gateway's
log since the previous poll.

A counter or a reading that the collector keeps as a double is a rational number here;
a timestamp is an integer number of seconds; an unsigned counter is a natural number.
-/

set_option autoImplicit false

namespace Lss.Model

/-- The engine's metrics of one poll. Every counter is nondecreasing while one engine
process lives.
SOURCE: lss-core/src/prom.rs:113-165 -/
structure ServeMetrics where
  running : ℚ := 0
  queue : ℚ := 0
  runningPublic : ℚ := 0
  runningTrusted : ℚ := 0
  queuePublic : ℚ := 0
  queueTrusted : ℚ := 0
  genThroughput : ℚ := 0
  tokenUsage : ℚ := 0
  fullTokenUsage : ℚ := 0
  kvUsedTokens : ℚ := 0
  maxTotalTokens : ℚ := 0
  cacheHitRate : ℚ := 0
  specAcceptLength : ℚ := 0
  specAcceptRate : ℚ := 0
  retracted : ℚ := 0
  promptTokensTotal : ℚ := 0
  generationTokensTotal : ℚ := 0
  requestsTotal : ℚ := 0
  ttftSum : ℚ := 0
  ttftCount : ℚ := 0
  itlSum : ℚ := 0
  itlCount : ℚ := 0
  queueTimeSum : ℚ := 0
  queueTimeCount : ℚ := 0
  cachedTokensTotal : ℚ := 0
  contextLen : ℚ := 0
  prefillComputeTokensTotal : ℚ := 0
  evictedTokensTotal : ℚ := 0
  specVerifyCallsTotal : ℚ := 0
  e2eSum : ℚ := 0
  prefillForwardSum : ℚ := 0
  decodeSumSeqLens : ℚ := 0
  prefillInflightReqs : ℚ := 0
  startupTimeS : ℚ := 0
  /-- which set of counters this sample carries; 0 for a sample from before this existed -/
  countersV : ℕ := 0
deriving DecidableEq, Inhabited

/-- What a counter grew by, nothing when it went backwards.
SOURCE: lss-core/src/prom.rs:184 -/
def grown (now was : ℚ) : ℚ := if was ≤ now then now - was else 0

namespace ServeMetrics

/-- Counters of two samples may be diffed only when both carry the same set of them.
SOURCE: lss-core/src/prom.rs:176-178 -/
def comparable (m before : ServeMetrics) : Bool := m.countersV == before.countersV

/-- Prompt tokens the GPUs really read between `before` and `m`: the engine's own count,
else prompt minus cached, else nothing.
SOURCE: lss-core/src/prom.rs:180-192 -/
def computedPromptTokensSince (m before : ServeMetrics) : ℚ :=
  if !m.comparable before then 0
  else if 0 < m.prefillComputeTokensTotal ∨ 0 < before.prefillComputeTokensTotal then
    grown m.prefillComputeTokensTotal before.prefillComputeTokensTotal
  else if 0 < m.cachedTokensTotal ∨ 0 < before.cachedTokensTotal then
    max (grown m.promptTokensTotal before.promptTokensTotal -
      grown m.cachedTokensTotal before.cachedTokensTotal) 0
  else 0

/-- KV-cache utilisation in `0..1`.
SOURCE: lss-core/src/prom.rs:196-203 -/
def kvUsage (m : ServeMetrics) : ℚ :=
  let reported := max m.tokenUsage m.fullTokenUsage
  if 0 < reported ∨ m.maxTotalTokens ≤ 0 then reported
  else min (max (m.kvUsedTokens / m.maxTotalTokens) 0) 1

end ServeMetrics

/-- The reading of one GPU.
SOURCE: lss-core/src/gpu.rs:26-43 -/
structure GpuSample where
  index : ℕ := 0
  tempC : Option ℚ := none
  powerW : Option ℚ := none
  powerLimitW : Option ℚ := none
  clockMhz : Option ℚ := none
  utilPct : Option ℚ := none
  memUsedMib : Option ℚ := none
  memTotalMib : Option ℚ := none
  fanPct : Option ℚ := none
  throttleMask : ℕ := 0
  memUtilPct : Option ℚ := none
  memTempC : Option ℚ := none
deriving Inhabited

/-- SOURCE: lss-core/src/gpu.rs:16 -/
def throttleSwPowerCap : ℕ := 0x4
/-- SOURCE: lss-core/src/gpu.rs:17 -/
def throttleHwSlowdown : ℕ := 0x8
/-- SOURCE: lss-core/src/gpu.rs:18 -/
def throttleSwThermal : ℕ := 0x20
/-- SOURCE: lss-core/src/gpu.rs:19 -/
def throttleHwThermal : ℕ := 0x40
/-- SOURCE: lss-core/src/gpu.rs:20 -/
def throttleHwPowerBrake : ℕ := 0x80
/-- The bits the thermal alert rule looks at.
SOURCE: lss-core/src/gpu.rs:22 -/
def throttleThermalMask : ℕ := throttleSwThermal ||| throttleHwThermal

/-- One line of the container runtime's `inspect`.
SOURCE: lss-core/src/docker.rs:11-18 -/
structure ContainerState where
  name : String := ""
  status : String := ""
  restartCount : ℕ := 0
  /-- unix seconds; 0 when the runtime reports the zero time -/
  startedAt : ℤ := 0
deriving Inhabited

/-- SOURCE: lss-core/src/docker.rs:21-23 -/
def ContainerState.running (c : ContainerState) : Bool := c.status == "running"

/-- The admission counters of one lane of the gateway.
SOURCE: lss-core/src/gate.rs:8-28 -/
structure LaneAdmission where
  admitted : ℕ := 0
  rejected413 : ℕ := 0
  rejected429 : ℕ := 0
  clientClosed : ℕ := 0
  upstreamDown : ℕ := 0
  maxDuration : ℕ := 0
  inflightTokens : ℕ := 0
  waiters : ℕ := 0
  budgetTokens : Option ℕ := none
  maxPromptTokens : Option ℕ := none
deriving Inhabited

/-- The gateway's health document, as it goes into a stored sample.
SOURCE: lss-core/src/gate.rs:32-58 -/
structure GateHealth where
  version : String := ""
  upstreamOk : Bool := false
  trustedLane : LaneAdmission := {}
  publicLane : LaneAdmission := {}
  attributedUpstreams : Option (List String) := none
  upstreamLoaded : Std.ExtTreeMap String (List String) := ∅
deriving Inhabited

/-- An upstream name made safe for a metric name.
SOURCE: lss-core/src/gate.rs:171-173 -/
def upstreamSeriesId (upstream : String) : String :=
  String.ofList ((upstream.toList.map fun c =>
    if (c.isAlphanum || c == '.' || c == '_' || c == '-') then c else '_').take 40)

/-- Which of the gateway's upstreams is this machine: the only one that serves the engine's
model, else the first configured one.
SOURCE: lss-core/src/gate.rs:181-190 -/
def GateHealth.thisUpstream (g : GateHealth) (engineModel : Option String) : Option String :=
  match g.attributedUpstreams with
  | none => none
  | some ups =>
    match engineModel.filter (fun m => m ≠ "") with
    | none => ups.head?
    | some m =>
      match ups.filter (fun u => (g.upstreamLoaded[u]?).any (fun l => l.contains m)) with
      | [one] => some one
      | _ => ups.head?

/-- What a stored sample keeps of a user who is doing something.
SOURCE: lss-core/src/users.rs:52-61 -/
structure UserPoint where
  id : String := ""
  inflight : ℕ := 0
  rpm : ℕ := 0
  byUpstream : Std.ExtTreeMap String ℕ := ∅
deriving Inhabited

/-- The identifier of the benchmark's own traffic.
SOURCE: lss-core/src/users.rs:153 -/
def benchUser : String := "lss-bench"

/-- One five-second poll, as it is stored.
SOURCE: lss-core/src/model.rs:17-53 -/
structure Sample where
  ts : ℤ := 0
  serveUp : Bool := false
  model : Option String := none
  metrics : Option ServeMetrics := none
  /-- false when the GPU tool itself failed -/
  gpusOk : Bool := false
  gpus : List GpuSample := []
  serveCt : Option ContainerState := none
  gateCt : Option ContainerState := none
  gate : Option GateHealth := none
  log : LogDelta := {}
  users : List UserPoint := []
  /-- the most requests the engine runs at once; 0 when it is not known -/
  slots : ℕ := 0
  engine : String := ""
  /-- the metric fields this engine has no number for -/
  notReported : List String := []
  gateAbsent : Bool := false
  gpuSource : String := ""
deriving Inhabited

end Lss.Model
