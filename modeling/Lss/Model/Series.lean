import Lss.Model.Sample
import Mathlib.Algebra.Ring.Nat

/-!
# The points of a sample and the buckets they are rolled up into

A sample contributes named numbers. Most are read off the sample itself; rates and counts of
a step need the sample before it. A roller folds the points of consecutive samples into
buckets of fixed length and hands a bucket out when the first sample of another one arrives.
-/

set_option autoImplicit false

namespace Lss.Model

/-- One minute, and ten.
SOURCE: lss-core/src/series.rs:17 -/
def res1m : ℤ := 60

@[inherit_doc res1m] def res10m : ℤ := 600

/-- Sum, extremes and number of some points.
SOURCE: lss-core/src/series.rs:83-89 -/
@[ext] structure Agg where
  sum : ℚ
  min : ℚ
  max : ℚ
  n : ℚ
deriving DecidableEq

namespace Agg

/-- SOURCE: lss-core/src/series.rs:92-94 -/
def one (v : ℚ) : Agg := ⟨v, v, v, 1⟩

/-- A stored rollup row.
SOURCE: lss-core/src/series.rs:96-99 -/
def fromRow (avg min max n : ℚ) : Agg :=
  let n := Max.max n 1
  ⟨avg * n, min, max, n⟩

/-- SOURCE: lss-core/src/series.rs:100-105 -/
def merge (a o : Agg) : Agg := ⟨a.sum + o.sum, Min.min a.min o.min, Max.max a.max o.max, a.n + o.n⟩

/-- SOURCE: lss-core/src/series.rs:106-108 -/
def avg (a : Agg) : ℚ := a.sum / Max.max a.n 1

end Agg

/-! ## The points of a sample -/

/-- A condition as a number. -/
def indicator (b : Bool) : ℚ := if b then 1 else 0

/-- A point that is there only under a condition. -/
def pointIf (b : Bool) (name : String) (v : ℚ) : List (String × ℚ) :=
  if b then [(name, v)] else []

/-- Whether the engine of a sample has a number for a metric field.
SOURCE: lss-core/src/series.rs:137 -/
def Sample.reported (s : Sample) (key : String) : Bool := !s.notReported.contains key

/-- What the engine's metrics contribute by themselves.
SOURCE: lss-core/src/series.rs:138-173 -/
def enginePoints (cur : Sample) (m : ServeMetrics) : List (String × ℚ) :=
  pointIf (cur.reported "decode_tok_s") "decode_tok_s" m.genThroughput ++
  (if cur.reported "running" then
    [("running", m.running), ("running_public", m.runningPublic),
      ("running_trusted", m.runningTrusted)] else []) ++
  (if cur.reported "queued" then
    [("queue", m.queue), ("queue_public", m.queuePublic), ("queue_trusted", m.queueTrusted),
      ("busy_wait", indicator (0 < m.queue))] else []) ++
  pointIf (cur.reported "kv_usage") "kv_usage" m.kvUsage ++
  pointIf (cur.reported "cache_hit") "cache_hit_rate" m.cacheHitRate ++
  (if cur.reported "spec" then
    [("spec_accept_length", m.specAcceptLength), ("spec_accept_rate", m.specAcceptRate)]
    else []) ++
  pointIf (0 < cur.slots && cur.reported "running" && cur.reported "slots") "busy_slots"
    (indicator ((cur.slots : ℚ) ≤ m.running)) ++
  [("kv_retracted", indicator (0 < m.retracted))]

/-- The power a sample's GPUs drew, when any of them said.
SOURCE: lss-core/src/series.rs:238-241 -/
def Sample.watts (s : Sample) : Option ℚ :=
  let v := s.gpus.filterMap GpuSample.powerW
  if v.isEmpty then none else some v.sum

/-- What a counter grew by, as a point.
SOURCE: lss-core/src/series.rs:205 -/
def grownPoint (same : Bool) (name : String) (now before : ℚ) : List (String × ℚ) :=
  pointIf (same && before ≤ now) name (now - before)

/-- The energy of a step, by the trapezoid of the power at its two ends.
SOURCE: lss-core/src/series.rs:237-248 -/
def energyPoints (p cur : Sample) (m : ServeMetrics) : List (String × ℚ) :=
  match p.watts, cur.watts with
  | some a, some b =>
    if cur.ts - p.ts ≤ 30 then
      let joules := (a + b) / 2 * (cur.ts - p.ts : ℤ)
      ("sum_energy_j", joules) :: pointIf (1 ≤ m.running) "sum_energy_serving_j" joules
    else []
  | _, _ => []

/-- What the metrics of two samples contribute that are at most a minute apart.
SOURCE: lss-core/src/series.rs:179-249 -/
def counterPoints (p cur : Sample) (pm m : ServeMetrics) : List (String × ℚ) :=
  let dt : ℚ := (cur.ts - p.ts : ℤ)
  let rate := fun (name : String) (now before scale : ℚ) =>
    pointIf (before ≤ now) name ((now - before) / dt * scale)
  let same := m.comparable pm
  let read := m.computedPromptTokensSince pm
  (if cur.reported "tokens" then
    rate "prompt_tok_s" m.promptTokensTotal pm.promptTokensTotal 1 ++
      rate "gen_tok_s" m.generationTokensTotal pm.generationTokensTotal 1 else []) ++
  (if cur.reported "requests" then
    rate "req_per_min" m.requestsTotal pm.requestsTotal 60 else []) ++
  (if cur.reported "tokens" then
    grownPoint same "tok_gen" m.generationTokensTotal pm.generationTokensTotal ++
      grownPoint same "tok_prompt" m.promptTokensTotal pm.promptTokensTotal else []) ++
  (if cur.reported "cache_hit" then
    grownPoint same "tok_cached" m.cachedTokensTotal pm.cachedTokensTotal else []) ++
  (if cur.reported "prefill_tok_s" then
    ("tok_prefill", read) :: pointIf (0 < read) "prefill_tok_s" (read / dt) else []) ++
  grownPoint same "tok_evicted" m.evictedTokensTotal pm.evictedTokensTotal ++
  (if cur.reported "requests" then
    grownPoint same "sum_requests" m.requestsTotal pm.requestsTotal else []) ++
  (if same && pm.e2eSum ≤ m.e2eSum && pm.prefillForwardSum ≤ m.prefillForwardSum &&
      cur.reported "e2e" then
    [("sum_e2e_s", m.e2eSum - pm.e2eSum),
      ("sum_prefill_s", m.prefillForwardSum - pm.prefillForwardSum)] else []) ++
  energyPoints p cur m

/-- What a sample contributes only together with the sample before it: nothing without the
metrics of both, across a gap, or backwards in time.
SOURCE: lss-core/src/series.rs:174-249 -/
def stepPoints (p cur : Sample) : List (String × ℚ) :=
  match p.metrics, cur.metrics with
  | some pm, some m =>
    if 0 < cur.ts - p.ts ∧ cur.ts - p.ts ≤ 60 then counterPoints p cur pm m else []
  | _, _ => []

/-- What the gateway's health contributes.
SOURCE: lss-core/src/series.rs:252-263 -/
def gatePoints (g : GateHealth) : List (String × ℚ) :=
  [("inflight_public", (g.publicLane.inflightTokens : ℚ)),
    ("inflight_trusted", (g.trustedLane.inflightTokens : ℚ)),
    ("waiters_public", (g.publicLane.waiters : ℚ)),
    ("waiters_trusted", (g.trustedLane.waiters : ℚ))] ++
  match g.trustedLane.budgetTokens with
  | some budget =>
    pointIf (0 < budget) "budget_used_frac" ((g.trustedLane.inflightTokens : ℚ) / budget)
  | none => []

/-- What the users contribute that the gateway names; the benchmark's own traffic is none.
SOURCE: lss-core/src/series.rs:265-292 -/
def usersPoints (cur : Sample) (g : GateHealth) : List (String × ℚ) :=
  let real := cur.users.filter fun u => !u.id.endsWith benchUser
  [("users_active", ((real.filter fun u => 0 < u.inflight).length : ℚ)),
    ("users_inflight", ((real.map UserPoint.inflight).sum : ℚ))] ++
  (g.attributedUpstreams.getD []).flatMap fun up =>
    let on := fun u : UserPoint => u.byUpstream.getD up 0
    let active : ℚ := (real.filter fun u => 0 < on u).length
    let inflight : ℚ := (real.map on).sum
    [("users_active." ++ upstreamSeriesId up, active),
      ("users_inflight." ++ upstreamSeriesId up, inflight)] ++
    if g.thisUpstream cur.model == some up then
      [("users_active_here", active), ("users_inflight_here", inflight)] else []

/-- What one GPU contributes.
SOURCE: lss-core/src/series.rs:303-322 -/
def gpuPoints (g : GpuSample) : List (String × ℚ) :=
  let put := fun (what : String) (v : Option ℚ) =>
    (v.toList.map fun v => ("gpu" ++ toString g.index ++ "_" ++ what, v))
  let bit := fun (mask : ℕ) => some (indicator (g.throttleMask &&& mask != 0))
  put "temp_c" g.tempC ++ put "power_w" g.powerW ++ put "clock_mhz" g.clockMhz ++
  put "util_pct" g.utilPct ++ put "mem_used_mib" g.memUsedMib ++
  put "mem_util_pct" g.memUtilPct ++ put "mem_temp_c" g.memTempC ++
  put "thr_thermal" (bit throttleThermalMask) ++
  put "thr_hw" (bit (throttleHwSlowdown ||| throttleHwPowerBrake)) ++
  put "thr_power" (bit throttleSwPowerCap)

/-- The points that come before those of the step.
SOURCE: lss-core/src/series.rs:138-173 -/
def headPoints (cur : Sample) : List (String × ℚ) :=
  ("serve_up", indicator cur.serveUp) :: cur.metrics.elim [] (enginePoints cur)

/-- The points that come after those of the step.
SOURCE: lss-core/src/series.rs:252-327 -/
def tailPoints (cur : Sample) : List (String × ℚ) :=
  cur.gate.elim [] gatePoints ++
  [("gate_up", indicator cur.gate.isSome)] ++
  cur.gate.elim [] (usersPoints cur) ++
  (cur.users.flatMap fun u =>
    [("user_inflight." ++ u.id, (u.inflight : ℚ)), ("user_rpm." ++ u.id, (u.rpm : ℚ))]) ++
  (let reqs := cur.log.publicLane.requests + cur.log.trustedLane.requests;
    pointIf (0 < reqs) "gate_requests" reqs) ++
  cur.gpus.flatMap gpuPoints ++
  cur.watts.elim [] fun p => [("gpu_power_total_w", p)]

/-- Every number a sample contributes; the sample before it turns counters into rates.
SOURCE: lss-core/src/series.rs:121-328 -/
def samplePoints (prev : Option Sample) (cur : Sample) : List (String × ℚ) :=
  headPoints cur ++ prev.elim [] (fun p => stepPoints p cur) ++ tailPoints cur

/-! ## Rollers -/

/-- One finished bucket.
SOURCE: lss-core/src/series.rs:331-336 -/
structure RollupBatch where
  res : ℤ
  ts : ℤ
  rows : List (String × Agg)

/-- Points gathered into buckets of `res` seconds.
SOURCE: lss-core/src/series.rs:339-345 -/
structure Roller where
  res : ℤ
  bucket : Option ℤ := none
  acc : Std.ExtTreeMap String Agg := ∅

namespace Roller

/-- One more point of a name.
SOURCE: lss-core/src/series.rs:357-364 -/
def addPoint (acc : Std.ExtTreeMap String Agg) (p : String × ℚ) : Std.ExtTreeMap String Agg :=
  match acc[p.1]? with
  | some a => acc.insert p.1 (a.merge (Agg.one p.2))
  | none => acc.insert p.1 (Agg.one p.2)

/-- Hands the open bucket out.
SOURCE: lss-core/src/series.rs:367-371 -/
def flush (r : Roller) : Roller × Option RollupBatch :=
  match r.bucket with
  | none => (r, none)
  | some ts =>
    ({ r with bucket := none, acc := ∅ },
      if r.acc.toList.isEmpty then none else some ⟨r.res, ts, r.acc.toList⟩)

/-- The points of one sample; the bucket before it, when they start another one.
SOURCE: lss-core/src/series.rs:353-367 -/
def add (r : Roller) (ts : ℤ) (points : List (String × ℚ)) : Roller × Option RollupBatch :=
  let start := ts - ts % r.res
  let flushed := if r.bucket.any fun b => b != start then r.flush else (r, none)
  ({ flushed.1 with bucket := some start, acc := points.foldl addPoint flushed.1.acc }, flushed.2)

end Roller

end Lss.Model
