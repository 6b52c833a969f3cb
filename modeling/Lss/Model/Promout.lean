import Lss.Model.Prom

/-!
# The collector's own metrics

The text the collector publishes, written from the status document: families with their help, and
samples that all carry the host as their first label.
-/

set_option autoImplicit false

namespace Lss.Model.Promout

open Lss.Library.Lines Lss.Model.Prom

/-! ## The status document -/

section Status

variable (F : Type)

/-- SOURCE: lss-core/src/model.rs:336-358 -/
structure ServeStatus where
  up : Bool
  model : Option String
  container : Option String
  uptimeS : Option ℤ
  restartCount : ℕ
  restartsToday : ℕ
  running : F
  slots : ℕ
  queue : F
  decodeTokS : F
  kvUsage : F

/-- SOURCE: lss-core/src/model.rs:556-565 -/
structure LaneStatus where
  running : F
  queued : F
  inflightTokens : ℕ
  waiters : ℕ
  rejected413 : ℕ
  rejected429 : ℕ

/-- SOURCE: lss-core/src/model.rs:551-554 -/
structure Lanes where
  publicLane : LaneStatus F
  trustedLane : LaneStatus F

/-- SOURCE: lss-core/src/gpu.rs:26-35 -/
structure GpuSample where
  index : ℕ
  tempC : Option F
  powerW : Option F
  utilPct : Option F
  memUsedMib : Option F
  throttleMask : ℕ

/-- A probe that completed and was valid.
SOURCE: lss-core/src/probe.rs:46-53 -/
structure ProbeRecord where
  ts : ℤ
  ttftMs : Option F
  decodeTokS : Option F

/-- SOURCE: lss-core/src/model.rs:681-693 -/
structure ProbeStatus where
  baselineTokS : Option F
  lastOk : Option (ProbeRecord F)
  invalidSkipped : ℕ

/-- What of the status document the metrics are written from.
SOURCE: lss-core/src/model.rs:61-77 -/
structure Status where
  host : String
  generatedAt : ℤ
  /-- the time of the newest sample -/
  lastSampleTs : Option ℤ
  serve : ServeStatus F
  /-- the gateway answers -/
  gateUp : Bool
  gpus : List (GpuSample F)
  lanes : Lanes F
  incidents : List Incident
  firing : List String
  probe : ProbeStatus F

end Status

/-! ## Writing -/

/-- SOURCE: lss-core/src/promout.rs:7-9 -/
def esc (v : List Char) : List Char :=
  replace '\n' ['\\', 'n'] (replace '"' ['\\', '"'] (replace '\\' ['\\', '\\'] v))

/-- SOURCE: lss-core/src/promout.rs:11-14 -/
structure Out where
  buf : List Char
  /-- escaped -/
  host : List Char

variable {F : Type} [F64Text F]

/-- What is asked of the writer. -/
inductive Call (F : Type) where
  | family (name kind help : String)
  | sample (name : String) (labels : List (String × String)) (value : F)

namespace Out

/-- SOURCE: lss-core/src/promout.rs:17-19 -/
def family (o : Out) (name kind help : String) : Out :=
  { o with buf := o.buf ++ "# HELP ".toList ++ name.toList ++ [' '] ++ help.toList ++ ['\n'] ++
      "# TYPE ".toList ++ name.toList ++ [' '] ++ kind.toList ++ ['\n'] }

/-- SOURCE: lss-core/src/promout.rs:20-26 -/
def sample (o : Out) (name : String) (labels : List (String × String)) (value : F) : Out :=
  let l := labels.foldl
    (fun l p => l ++ [','] ++ p.1.toList ++ ['=', '"'] ++ esc p.2.toList ++ ['"'])
    ("host=".toList ++ ['"'] ++ o.host ++ ['"'])
  { o with buf := o.buf ++ name.toList ++ ['{'] ++ l ++ ['}', ' '] ++
      (F64.display value).toList ++ ['\n'] }

def call (o : Out) : Call F → Out
  | .family name kind help => o.family name kind help
  | .sample name labels value => o.sample name labels value

end Out

/-! ## What is written -/

/-- SOURCE: lss-core/src/promout.rs:27-30 -/
def gauge (name help : String) (value : F) : List (Call F) :=
  [.family name "gauge" help, .sample name [] value]

/-- A sample when there is a value.
SOURCE: lss-core/src/promout.rs:93-104 -/
def optional (name : String) (labels : List (String × String)) (value : Option F) :
    List (Call F) :=
  value.elim [] fun v => [.sample name labels v]

/-- A flag as a number. -/
def flag (v : Bool) : F := if v then F64.lit 1 else F64.lit 0

/-- The seconds between two times, in 64 bits with wraparound. -/
def secondsSince (now ts : ℤ) : ℤ := max (Int.bmod (now - ts) (2 ^ 64)) 0

/-- SOURCE: lss-core/src/promout.rs:37-42 -/
def serveCalls (s : ServeStatus F) : List (Call F) :=
  gauge "llm_serve_up" "1 when the serve answers /v1/models" (flag s.up) ++
  [.family "llm_serve_info" "gauge" "Served model id and container",
    .sample "llm_serve_info"
      [("model", s.model.getD ""), ("container", s.container.getD "")] (F64.lit 1)] ++
  gauge "llm_serve_restart_count" "docker RestartCount of the serve container"
    (F64.ofNat s.restartCount) ++
  gauge "llm_serve_restarts_today" "Serve container restarts since local midnight"
    (F64.ofNat s.restartsToday) ++
  gauge "llm_serve_uptime_seconds" "Seconds since the serve container started (0 when down)"
    (F64Text.ofInt (s.uptimeS.getD 0))

/-- The series of a valid probe.
SOURCE: lss-core/src/promout.rs:47-57 -/
def lastOkCalls (generatedAt : ℤ) (invalidSkipped : ℕ) (p : ProbeRecord F) : List (Call F) :=
  p.decodeTokS.elim [] (gauge "llm_serve_c1_decode_tokens_per_second"
    "Single-stream decode rate from the last VALID idle C1 probe") ++
  p.ttftMs.elim [] (fun v => gauge "llm_serve_c1_ttft_seconds"
    "Time to first token of the last VALID idle C1 probe" (v / F64.lit 1000)) ++
  gauge "llm_serve_c1_probe_timestamp_seconds" "Unix time of the last VALID C1 probe"
    (F64Text.ofInt p.ts) ++
  gauge "llm_serve_c1_probe_age_seconds"
    "Seconds since the last VALID C1 probe (grows while probes are skipped or invalid)"
    (F64Text.ofInt (secondsSince generatedAt p.ts)) ++
  gauge "llm_serve_c1_probes_invalid_skipped"
    "Probes since the last valid one that were skipped, invalid or failed"
    (F64.ofNat invalidSkipped)

/-- Absent until a probe has succeeded.
SOURCE: lss-core/src/promout.rs:44-60 -/
def probeCalls (generatedAt : ℤ) (p : ProbeStatus F) : List (Call F) :=
  p.lastOk.elim [] (lastOkCalls generatedAt p.invalidSkipped) ++
  p.baselineTokS.elim [] (gauge "llm_serve_c1_baseline_tokens_per_second"
    "C1 baseline the alert rule compares against")

/-- A family with one sample for the engine and one for each lane.
SOURCE: lss-core/src/promout.rs:65-72 -/
def laneFamily (name help : String) (total ofPublic ofTrusted : F) : List (Call F) :=
  [.family name "gauge" help,
    .sample name [("lane", "total")] total,
    .sample name [("lane", "public")] ofPublic,
    .sample name [("lane", "trusted")] ofTrusted]

/-- SOURCE: lss-core/src/promout.rs:62-72 -/
def requestCalls (s : ServeStatus F) (lanes : Lanes F) : List (Call F) :=
  gauge "llm_serve_decode_tokens_per_second" "SGLang gen_throughput" s.decodeTokS ++
  gauge "llm_serve_kv_usage_ratio" "KV cache utilisation 0..1" s.kvUsage ++
  gauge "llm_serve_slots" "Max concurrent requests" (F64.ofNat s.slots) ++
  laneFamily "llm_serve_running_requests" "Requests being decoded/prefilled"
    s.running lanes.publicLane.running lanes.trustedLane.running ++
  laneFamily "llm_serve_queued_requests" "Requests waiting in the engine queue"
    s.queue lanes.publicLane.queued lanes.trustedLane.queued

/-- SOURCE: lss-core/src/promout.rs:78-83 -/
def laneCalls (lane : String) (l : LaneStatus F) : List (Call F) :=
  [.sample "llm_gate_waiters" [("lane", lane)] (F64.ofNat l.waiters),
    .sample "llm_gate_inflight_tokens" [("lane", lane)] (F64.ofNat l.inflightTokens),
    .sample "llm_gate_rejected_total" [("lane", lane), ("code", "413")]
      (F64.ofNat l.rejected413),
    .sample "llm_gate_rejected_total" [("lane", lane), ("code", "429")]
      (F64.ofNat l.rejected429)]

/-- SOURCE: lss-core/src/promout.rs:74-83 -/
def gateCalls (up : Bool) (lanes : Lanes F) : List (Call F) :=
  gauge "llm_gate_up" "1 when the gateway answers /gate/health" (flag up) ++
  [.family "llm_gate_waiters" "gauge" "Requests waiting at the gate for token budget",
    .family "llm_gate_inflight_tokens" "gauge"
      "Estimated prompt tokens admitted and in flight",
    .family "llm_gate_rejected_total" "counter"
      "Gate admission rejections since the gate started"] ++
  laneCalls "public" lanes.publicLane ++ laneCalls "trusted" lanes.trustedLane

/-- SOURCE: lss-core/src/gpu.rs:107-110 -/
def GpuSample.thermalThrottled (g : GpuSample F) : Bool :=
  g.throttleMask &&& throttleThermalMask != 0

/-- SOURCE: lss-core/src/promout.rs:91-107 -/
def gpuSampleCalls (g : GpuSample F) : List (Call F) :=
  let l := [("gpu", toString g.index)]
  optional "llm_gpu_temperature_celsius" l g.tempC ++
  optional "llm_gpu_power_watts" l g.powerW ++
  optional "llm_gpu_utilization_percent" l g.utilPct ++
  optional "llm_gpu_memory_used_mib" l g.memUsedMib ++
  [.sample "llm_gpu_throttle_mask" l (F64.ofNat g.throttleMask),
    .sample "llm_gpu_thermal_throttled" l (flag g.thermalThrottled)]

/-- SOURCE: lss-core/src/promout.rs:85-107 -/
def gpuCalls (gpus : List (GpuSample F)) : List (Call F) :=
  [.family "llm_gpu_temperature_celsius" "gauge" "GPU core temperature",
    .family "llm_gpu_power_watts" "gauge" "GPU power draw",
    .family "llm_gpu_utilization_percent" "gauge" "GPU utilisation",
    .family "llm_gpu_memory_used_mib" "gauge" "GPU memory in use",
    .family "llm_gpu_throttle_mask" "gauge" "clocks_throttle_reasons.active bitmask",
    .family "llm_gpu_thermal_throttled" "gauge"
      "1 when a thermal slowdown bit (0x20|0x40) is set"] ++
  gpus.flatMap gpuSampleCalls

/-- SOURCE: lss-core/src/promout.rs:109-111 -/
def collectorCalls (firing : List String) (incidents : List Incident)
    (lastSampleTs : Option ℤ) : List (Call F) :=
  gauge "lss_alerts_firing" "Alert rules currently firing" (F64.ofNat firing.length) ++
  gauge "lss_incidents_open" "Incidents without an end time"
    (F64.ofNat (incidents.filter fun i => i.endTs.isNone).length) ++
  gauge "lss_last_sample_timestamp_seconds" "Unix time of the newest sample"
    (F64Text.ofInt (lastSampleTs.getD 0))

/-- The calls that write a status document, in order. -/
def calls (s : Status F) : List (Call F) :=
  serveCalls s.serve ++ probeCalls s.generatedAt s.probe ++ requestCalls s.serve s.lanes ++
    gateCalls s.gateUp s.lanes ++ gpuCalls s.gpus ++
    collectorCalls s.firing s.incidents s.lastSampleTs

/-- SOURCE: lss-core/src/promout.rs:33-113 -/
def render (s : Status F) : String :=
  String.ofList ((calls s).foldl Out.call ⟨[], esc s.host.toList⟩).buf

/-! ## What was emitted -/

/-- The sample a call emits for a host. -/
def Call.series (host : String) : Call F → Option (Series F)
  | .family _ _ _ => none
  | .sample name labels value => some ⟨name, ("host", host) :: labels, value⟩

/-- The samples emitted for a status document, in order. -/
def emitted (s : Status F) : List (Series F) := (calls s).filterMap (Call.series s.host)

end Lss.Model.Promout
