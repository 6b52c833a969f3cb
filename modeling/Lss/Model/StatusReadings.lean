import Lss.Model.Headline
import Lss.Model.SetupWizard

/-!
# The readings of the page

What the status of the collector says, domain by domain, as readings: the collector, the engine,
the cards, the gateway, the cost, the loadout and the events.
-/

set_option autoImplicit false

namespace Lss.Model.Readings

instance (n : ℕ) : OfNat Ieee n := ⟨.finite n⟩

/-! ## The status -/

/-- SOURCE: lss-core/src/hist.rs:136-142 -/
structure HistSummary where
  p50Ms : Ieee
  p90Ms : Ieee

/-- SOURCE: lss-core/src/hist.rs:319-329 -/
structure LatencyNow where
  ttft : Option HistSummary := none
  itl : Option HistSummary := none
  queueTime : Option HistSummary := none

/-- SOURCE: lss-core/src/model.rs:336-443 -/
structure ServeStatus where
  up : Bool := false
  model : Option String := none
  downSince : Option ℤ := none
  running : Ieee := 0
  slots : ℕ := 0
  queue : Ieee := 0
  decodeTokS : Ieee := 0
  kvUsage : Ieee := 0
  kvMaxTokens : Ieee := 0
  ttftAvgMs10m : Option Ieee := none
  specAcceptLength : Ieee := 0
  cacheHitRate : Ieee := 0
  promptTokensTotal : Ieee := 0
  latency : Option LatencyNow := none
  cachedTokensTotal : Ieee := 0
  prefillTokS : Option Ieee := none
  prefillTokSTypical : Option Ieee := none
  cachedShare10m : Option Ieee := none
  engine : String := ""
  notReported : List String := []
  evictedTokPerHour10m : Option Ieee := none
  secsSinceLastToken : Option ℤ := none

/-- SOURCE: lss-core/src/model.rs:504-522 -/
structure GateStatus where
  up : Bool := false
  absent : Bool := false

/-- SOURCE: lss-core/src/gpu.rs:26-43 -/
structure GpuSample where
  index : ℕ
  tempC : Option Ieee := none
  powerW : Option Ieee := none
  powerLimitW : Option Ieee := none
  clockMhz : Option Ieee := none
  utilPct : Option Ieee := none
  memUsedMib : Option Ieee := none
  memTotalMib : Option Ieee := none

/-- SOURCE: lss-core/src/gpu.rs:48-63 -/
structure GpuHealth where
  clockMaxMhz : Option Ieee := none

/-- SOURCE: lss-core/src/model.rs:526-547 -/
structure GpuStatus where
  sample : GpuSample
  utilPctMed : Option Ieee := none
  throttle : List String := []
  thermalExcluded : Bool := false
  health : Option GpuHealth := none

/-- SOURCE: lss-core/src/model.rs:595-602 -/
structure CodeClasses where
  c4xx : ℕ := 0
  c5xx : ℕ := 0

/-- SOURCE: lss-core/src/model.rs:558-579 -/
structure LaneStatus where
  inflightTokens : ℕ := 0
  waiters : ℕ := 0
  codes10m : CodeClasses := {}
  budgetTokens : Option ℕ := none

/-- SOURCE: lss-core/src/model.rs:551-554 -/
structure Lanes where
  public_ : LaneStatus := {}
  trusted : LaneStatus := {}

/-- An incident as a status carries it: its kind may be any text.
SOURCE: lss-core/src/incidents.rs:34-41 -/
structure Incident where
  id : ℤ
  start : ℤ
  end_ : Option ℤ
  kind : String
  detail : String

/-- SOURCE: lss-core/src/model.rs:668-677 -/
structure AlertRow where
  id : ℤ
  ts : ℤ
  rule : String
  severity : String
  message : String
  recovered : Bool := false
  delivered : Bool := false

structure ProbeRecord where
  ts : ℤ
  decodeTokS : Option Ieee

/-- SOURCE: lss-core/src/model.rs:681-693 -/
structure ProbeStatus where
  baselineTokS : Option Ieee := none
  lastOk : Option ProbeRecord := none

/-- SOURCE: lss-core/src/model.rs:283-300 -/
structure Thresholds where
  c1MaxTtftS : Ieee := 0
  queueReqs : Ieee := 0
  thermalTempC : Ieee := 0
  c1StaleSecs : ℤ := 0

/-- SOURCE: lss-core/src/model.rs:187-197 -/
structure LoadoutBrief where
  model : String
  flags : String

/-- SOURCE: lss-core/src/model.rs:118-182 -/
structure CostStatus where
  rateSource : String := ""
  effectiveDate : String := ""
  currentUsdPerKwh : Option Ieee := none
  currentPeriod : String := ""
  liveUsdPerHour : Option Ieee := none
  todayUsd : Option Ieee := none
  todayUsdPerMillionRealWorkTokens : Option Ieee := none

/-- SOURCE: lss-core/src/rates.rs:638-645 -/
structure SpendWindow where
  usd : Option Ieee := none
  kwh : Option Ieee := none
  coveredSecs : ℤ := 0
  nominalSecs : ℤ := 0

/-- SOURCE: lss-core/src/rates.rs:679-702 -/
structure SpendingStatus where
  thisWeek : SpendWindow := {}
  thisMonth : SpendWindow := {}
  thisYear : SpendWindow := {}
  yearFirstDay : Option String := none
  monthProjectionUsd : Option Ieee := none
  projectionNote : String := ""

/-- SOURCE: lss-core/src/model.rs:327-332 -/
structure CollectorInfo where
  pollSecs : ℕ := 0
  lastSampleTs : Option ℤ := none

/-- SOURCE: lss-core/src/model.rs:61-110 -/
structure Status where
  generatedAt : ℤ := 0
  collector : CollectorInfo := {}
  serve : ServeStatus := {}
  gate : GateStatus := {}
  gpus : List GpuStatus := []
  lanes : Lanes := {}
  incidents : List Incident := []
  alerts : List AlertRow := []
  firing : List String := []
  probe : ProbeStatus := {}
  thresholds : Thresholds := {}
  loadout : Option LoadoutBrief := none
  cost : Option CostStatus := none
  spending : Option SpendingStatus := none

/-- SOURCE: lss-core/src/model.rs:203-217 -/
inductive AdmitVerdict where
  | ok
  | gatewayLimited
  | engineFull
  | kvLimited
  | down
deriving DecidableEq

/-- What keeps requests from the engine, if anything does.
SOURCE: lss-core/src/model.rs:260-276 -/
def admissionVerdict (s : Status) : AdmitVerdict :=
  let waiters := s.lanes.public_.waiters + s.lanes.trusted.waiters
  let engineFull := 0 < s.serve.slots && (Ieee.finite s.serve.slots).le s.serve.running
  if !s.serve.up then .down
  else if 0 < waiters && !engineFull then .gatewayLimited
  else if engineFull then .engineFull
  else if (Ieee.finite (97 / 100)).le s.serve.kvUsage then .kvLimited
  else .ok

/-- SOURCE: lss-core/src/model.rs:487-489 -/
def ServeStatus.isNa (sv : ServeStatus) (key : String) : Bool := sv.notReported.contains key

/-- SOURCE: lss-core/src/engine.rs:46-56 -/
def engineName : EngineKind → String
  | .sglang => "SGLang"
  | .vllm => "vLLM"
  | .llamaCpp => "llama.cpp"
  | .ollama => "Ollama"
  | .lmStudio => "LM Studio"
  | .tgi => "TGI"
  | .openAi => "this server"

/-- SOURCE: lss-core/src/model.rs:490-492 -/
def ServeStatus.engineLabel (sv : ServeStatus) : String :=
  ((Setup.parseKind sv.engine).map engineName).getD "the engine"

/-- SOURCE: lss-core/src/model.rs:497-499 -/
def ServeStatus.noReadingReason (sv : ServeStatus) : String :=
  if F64.lt sv.cachedTokensTotal sv.promptTokensTotal then
    "not enough reading yet to report a rate"
  else "no prompt read yet"

/-! ## Texts -/

/-- SOURCE: lss-core/src/readings.rs:404-406 -/
def pct0 (x : Ieee) : String := F64.fixed 0 x ++ "%"

/-- SOURCE: lss-core/src/readings.rs:408-417 -/
def dur (secs : ℤ) : String :=
  let s := max secs 0
  if s < 90 then toString s ++ "s"
  else if s < 5400 then toString (s / 60) ++ "m"
  else
    let minutes := s % 3600 / 60
    toString (s / 3600) ++ "h" ++ (if minutes < 10 then "0" else "") ++ toString minutes ++ "m"

/-- SOURCE: lss-core/src/readings.rs:419-427 -/
def tok (x : Ieee) : String :=
  if (Ieee.finite 1000000).le x then F64.fixed 1 (x / 1000000) ++ "M"
  else if (Ieee.finite 1000).le x then F64.fixed 1 (x / 1000) ++ "k"
  else F64.fixed 0 x

/-! ## The collector -/

/-- SOURCE: lss-core/src/readings.rs:429-433 -/
def collectorStaleAfter (s : Status) : ℤ := max (s.collector.pollSecs * 3) 30

/-- SOURCE: lss-core/src/readings.rs:449-458 -/
def collector (s : Status) (now : ℤ) : List Reading :=
  match s.collector.lastSampleTs with
  | some ts =>
    if now - ts > collectorStaleAfter s then
      [.offline "collector" "collector" ("No sample for " ++ dur (now - ts) ++
        ": every number on this page is at least that old.")]
    else []
  | none => []

/-! ## The engine -/

section Serve

variable (s : Status) (now : ℤ)

/-- SOURCE: lss-core/src/readings.rs:469-475 -/
def serveSilent : List Reading :=
  let sv := s.serve
  match sv.secsSinceLastToken.filter fun _ => F64.lt 0 sv.running with
  | some secs =>
    [.live "serve.silent" "engine" (toString secs ++ "s silent")
      (F64.fixed 0 sv.running ++ " requests are running but no token has come out for " ++
        toString secs ++ "s - the pattern that came before the GPU hangs.")
      (ramp (.finite secs) 10 90)]
  | none => []

/-- SOURCE: lss-core/src/readings.rs:477-485 -/
def serveKv : Reading :=
  let sv := s.serve
  if sv.isNa "kv_usage" then
    .noData "serve.kv" "KV cache" (sv.engineLabel ++ " does not report KV cache use.")
  else
    let p := sv.kvUsage * 100
    .live "serve.kv" "KV cache" (pct0 p)
      ("When the KV cache fills, new requests wait for a running one to finish, however idle " ++
        "the GPUs look.") (ramp p 80 100)

/-- SOURCE: lss-core/src/readings.rs:487-497 -/
def serveEvictions : Reading :=
  let sv := s.serve
  match sv.evictedTokPerHour10m with
  | some e =>
    if F64.lt 0 sv.kvMaxTokens then
      .live "serve.evictions" "evictions" (tok e ++ " tok/h")
        ("Cached prompts are pushed out to make room, so a returning conversation pays to read " ++
          "its whole history again.") (ramp (e / sv.kvMaxTokens) (.finite (1 / 2)) 5)
    else
      .noData "serve.evictions" "evictions"
        "The KV cache size is unknown, so evictions cannot be put in proportion."
  | none =>
    .noData "serve.evictions" "evictions" "No eviction samples in the last 10 minutes yet."

/-- SOURCE: lss-core/src/readings.rs:499-508 -/
def serveQueue : Reading :=
  let sv := s.serve
  let qfull := if F64.lt 0 s.thresholds.queueReqs then s.thresholds.queueReqs * .finite (3 / 2)
    else .finite (max sv.slots 1 : ℕ)
  if F64.lt 0 sv.queue then
    .live "serve.queue" "queue" (F64.fixed 0 sv.queue ++ " waiting")
      ("Requests are waiting for a free slot: each one's first word is delayed until a running " ++
        "answer finishes.") (ramp sv.queue 0 qfull)
  else .live "serve.queue" "queue" "0 waiting" "Every request gets a slot straight away." 0

/-- SOURCE: lss-core/src/readings.rs:510-513 -/
def serveSlots : List Reading :=
  if admissionVerdict s = .engineFull then
    [.live "serve.slots" "slots" (F64.fixed 0 s.serve.running ++ "/" ++ toString s.serve.slots)
      "Every slot is busy, so the next request waits until an answer finishes."
      (.finite (70 / 100))]
  else []

/-- SOURCE: lss-core/src/readings.rs:515-523 -/
def serveQueueWait : Reading :=
  let waiting := F64.lt 0 s.serve.queue || 0 < s.lanes.trusted.waiters ||
    0 < s.lanes.public_.waiters
  match s.serve.latency.bind LatencyNow.queueTime with
  | some q =>
    .live "serve.queue_wait" "queue wait" ("p50 " ++ F64.fixed 0 q.p50Ms ++ " ms")
      "Half of recent requests sat in line at least this long before the model started on them."
      (corroborate (ramp q.p50Ms 200 5000) waiting)
  | none =>
    .noData "serve.queue_wait" "queue wait" "No queue-time histogram in the recent window."

/-- SOURCE: lss-core/src/readings.rs:525-572 -/
def serveCacheHit : List Reading :=
  let sv := s.serve
  if sv.isNa "cache_hit" then
    [.noData "serve.cache_hit" "cache hit"
      (sv.engineLabel ++ " does not report a prefix-cache hit rate.")]
  else if sv.promptTokensTotal.le 0 then
    [.noData "serve.cache_hit" "cache hit"
      "No prompt has been read yet, so there is no hit rate to judge."]
  else
    let windowed := sv.cachedShare10m.map (· * 100)
    let p := windowed.getD (sv.cacheHitRate * 100)
    let d := if (Ieee.finite 55).le p then
        "Most of each prompt is served from cache, so long conversations start quickly."
      else
        "Prompts that miss the cache are read from scratch, so long conversations get slower to " ++
          "start with every turn."
    let ttftBad := sv.ttftAvgMs10m.any fun t => F64.lt (s.thresholds.c1MaxTtftS * 1000) t
    let prefillSlow := match sv.prefillTokS, sv.prefillTokSTypical with
      | some now, some typ => F64.lt 0 typ && F64.lt now (typ * .finite (1 / 2))
      | _, _ => false
    let value := match windowed with
      | some _ => pct0 p ++ " of the last 10 min's prompt tokens"
      | none => pct0 p
    .live "serve.cache_hit" "cache hit" value d
        (corroborate (ramp p 55 5) (ttftBad || prefillSlow)) ::
      if windowed.isSome then
        [(Reading.live "serve.cache_hit_now" "cache hit (engine)" (pct0 (sv.cacheHitRate * 100))
          ("What the engine reported for its last prompt read, which swings with a single cold " ++
            "batch.") 0).asInformational]
      else []

/-- SOURCE: lss-core/src/readings.rs:574-588 -/
def serveSpeed : Reading :=
  match s.probe.baselineTokS, s.probe.lastOk with
  | none, _ =>
    .noData "serve.speed" "speed"
      "No baseline yet: a single request's normal speed on this box is still being learned."
  | some _, none =>
    .noData "serve.speed" "speed" "The speed probe has not completed a reading yet."
  | some base, some p =>
    let age := now - p.ts
    match p.decodeTokS.filter fun _ =>
        age ≤ max s.thresholds.c1StaleSecs 1 && F64.lt 0 base with
    | some t =>
      .live "serve.speed" "speed"
        (F64.fixed 0 t ++ " tok/s (" ++ F64.fixed 0 (t / base * 100) ++ "% of normal)")
        ("One answer is being written at this speed; below normal, every reply takes longer to " ++
          "finish.") (ramp t base (base * .finite (45 / 100)))
    | none =>
      .noData "serve.speed" "speed"
        ("The server has been too busy to time a single request for " ++ dur age ++ ".")

/-- SOURCE: lss-core/src/readings.rs:590-599 -/
def serveTtft : Reading :=
  match s.serve.latency.bind LatencyNow.ttft with
  | some t =>
    let lim := s.thresholds.c1MaxTtftS * 1000
    let score := if F64.lt 0 lim then ramp t.p90Ms lim (lim * 4) else 0
    .live "serve.ttft" "first word"
      ("p50 " ++ F64.fixed 0 t.p50Ms ++ " / p90 " ++ F64.fixed 0 t.p90Ms ++ " ms")
      "One request in ten waited at least the p90 for its first word." score
  | none =>
    .noData "serve.ttft" "first word" "No time-to-first-token histogram in the recent window."

/-- What shows and is not judged.
SOURCE: lss-core/src/readings.rs:601-619 -/
def serveFacts : List Reading :=
  let sv := s.serve
  (Reading.live "serve.decode" "writing" (F64.fixed 0 sv.decodeTokS ++ " tok/s")
    "Total writing speed across every running request." 0).asInformational ::
  (match sv.prefillTokS with
    | some p =>
      (Reading.live "serve.prefill" "reading" (tok p ++ " tok/s")
        ("How fast prompts are read right now; a long prompt waits roughly its length divided " ++
          "by this for its first word.") 0).asInformational
    | none =>
      .noData "serve.prefill" "reading"
        ("No prompt-reading rate: " ++ sv.noReadingReason ++ ".")) ::
  ((match sv.latency.bind LatencyNow.itl with
    | some i =>
      [(Reading.live "serve.itl" "between words" ("p50 " ++ F64.fixed 1 i.p50Ms ++ " ms")
        "The gap between words once an answer is streaming." 0).asInformational]
    | none => []) ++
  (if F64.lt 0 sv.specAcceptLength then
    [(Reading.live "serve.accept" "accept" (F64.fixed 2 sv.specAcceptLength)
      ("Tokens the draft model gets accepted per step; more means more of the writing comes " ++
        "free.") 0).asInformational]
  else []) ++
  [(Reading.live "serve.running" "running"
    (F64.fixed 0 sv.running ++ "/" ++ toString sv.slots)
    "Requests being answered at once, out of the engine's slots." 0).asInformational])

/-- SOURCE: lss-core/src/readings.rs:460-620 -/
def serve : List Reading :=
  let sv := s.serve
  if !sv.up then
    let since := (sv.downSince.map fun t => " for " ++ dur (now - t)).getD ""
    [.offline "serve.up" "engine" ("The model server has not answered" ++ since ++
      ": nothing reaches the model until it is back.")]
  else
    serveSilent s ++ [serveKv s, serveEvictions s, serveQueue s] ++ serveSlots s ++
      serveQueueWait s :: serveCacheHit s ++ [serveSpeed s now, serveTtft s] ++ serveFacts s

end Serve

/-! ## The cards -/

/-- The middle value, the mean of the two middles of an even number of them.
SOURCE: lss-core/src/readings.rs:701-709 -/
def median (xs : List Ieee) : Ieee :=
  let v := xs.insertionSort fun a b => a.totalLe b
  let n := v.length
  if n = 0 then 0
  else if n % 2 = 1 then v.getD (n / 2) 0
  else (v.getD (n / 2 - 1) 0 + v.getD (n / 2) 0) / 2

/-- The largest double. -/
def largest : Ieee := .finite ((2 : ℚ) ^ 1024 - 2 ^ 971)

/-- The throttle reasons that are a fault.
SOURCE: lss-core/src/readings.rs:757 -/
def throttleScores : List String := ["hw_thermal", "sw_thermal", "hw_slowdown", "hw_power_brake"]

section Gpu

variable (g : GpuStatus) (group : Bool) (alertC : Ieee)

/-- The key of a reading of a card.
SOURCE: lss-core/src/readings.rs:722-723 -/
def gpuKey (f : String) : String := "gpu." ++ toString g.sample.index ++ "." ++ f

/-- SOURCE: lss-core/src/readings.rs:724 -/
def gpuLabel (f : String) : String := "GPU" ++ toString g.sample.index ++ " " ++ f

/-- SOURCE: lss-core/src/readings.rs:727-744 -/
def gpuTemp : Reading :=
  match g.sample.tempC with
  | some t =>
    let d := if group then
        "A card this hot slows its clocks to protect itself, and the whole group waits for it."
      else "A card this hot slows its clocks to protect itself, and every answer slows with it."
    let score := if F64.lt 0 alertC then ramp t (alertC - 15) (alertC + 5) else ramp t 78 92
    let r := Reading.live (gpuKey g "temp") (gpuLabel g "temp") (F64.fixed 0 t ++ "\u00b0C") d score
    if g.thermalExcluded then
      { r with
        detail := "Thermal alerts are off for this card by configuration, so its heat is shown " ++
          "but never headlined." }.asInformational
    else r
  | none =>
    .noData (gpuKey g "temp") (gpuLabel g "temp") "The driver reports no temperature for this card."

/-- SOURCE: lss-core/src/readings.rs:757-779 -/
def gpuThrottle : Reading :=
  let key := gpuKey g "throttle"
  let label := gpuLabel g "throttle"
  let max_ := g.health.bind GpuHealth.clockMaxMhz
  let allReasons := g.throttle.filter fun t => t ≠ "" ∧ t ≠ "clean"
  let scoringReasons := allReasons.filter fun r => throttleScores.contains r
  if allReasons = [] then
    .live key label "none" "The driver reports no reason to hold the clocks back." 0
  else if scoringReasons = [] then
    (Reading.live key label (", ".intercalate allReasons)
      ("The driver reports this card is held to a configured power limit - a chosen setting, " ++
        "not a fault.") 0).asInformational
  else
    let reasons := ", ".intercalate scoringReasons
    match g.sample.clockMhz, max_.filter fun m => F64.lt 0 m with
    | some c, some m =>
      let deficit := (1 - c / m) * 100
      .live key label (reasons ++ " (-" ++ F64.fixed 0 (F64.max deficit 0) ++ "%)")
        ("The driver is holding this card's clock down, so it does less work per second than " ++
          "it can.") (corroborate (ramp deficit 5 45) true)
    | _, _ =>
      .live key label reasons
        ("The driver is holding this card's clock down; how far is unknown until its maximum " ++
          "clock has been read.") 0

/-- SOURCE: lss-core/src/readings.rs:721-792 -/
def gpu : List Reading :=
  [gpuTemp g group alertC, gpuThrottle g] ++
  (match g.sample.powerW, g.sample.powerLimitW with
    | some p, some l =>
      [(Reading.live (gpuKey g "power") (gpuLabel g "power")
        (F64.fixed 0 p ++ "/" ++ F64.fixed 0 l ++ " W")
        "Power drawn against this card's limit." 0).asInformational]
    | _, _ => []) ++
  (match g.sample.utilPct with
    | some u =>
      [(Reading.live (gpuKey g "util") (gpuLabel g "util") (pct0 u)
        "Share of the last interval this card was computing." 0).asInformational]
    | none => []) ++
  (match g.sample.memUsedMib, g.sample.memTotalMib with
    | some u, some t =>
      [(Reading.live (gpuKey g "mem") (gpuLabel g "memory")
        (F64.fixed 1 (u / 1024) ++ "/" ++ F64.fixed 1 (t / 1024) ++ " GiB")
        ("Memory the engine reserved up front for weights and cache; full is normal for a " ++
          "serving card.") 0).asInformational]
    | _, _ => [])

end Gpu

/-- How far the slowest card is behind the pack.
SOURCE: lss-core/src/readings.rs:679-696 -/
def gpuSkew (s : Status) : List Reading :=
  match s.gpus.mapM GpuStatus.utilPctMed with
  | some meds =>
    if 1 < meds.length then
      let pack := median meds
      let lo := meds.foldl least largest
      let behind := F64.max (pack - lo) 0
      let engineWorking := s.serve.up && F64.lt 0 s.serve.running
      let window := if 0 < s.collector.pollSecs then dur (s.collector.pollSecs * 6) else "6 polls"
      [.live "gpu.skew" "GPU skew" (F64.fixed 0 behind ++ " pts behind the pack over " ++ window)
        ("The cards split every request between them, so the one lagging the rest holds them up " ++
          "and the group runs at the pace of the slowest.")
        (corroborate (ramp behind 10 40) (engineWorking && (Ieee.finite 50).le pack))]
    else []
  | none =>
    if 1 < s.gpus.length then
      [.noData "gpu.skew" "GPU skew"
        ("No windowed utilisation yet: one card lagging the others is only worth saying when it " ++
          "has lagged for a while, and this collector has not published enough polls to tell " ++
          "(an older collector never will - update it).")]
    else []

/-- SOURCE: lss-core/src/readings.rs:622-697 -/
def gpus (s : Status) : List Reading :=
  (s.gpus.flatMap fun g => gpu g (1 < s.gpus.length) s.thresholds.thermalTempC) ++ gpuSkew s

/-! ## The gateway -/

/-- SOURCE: lss-core/src/readings.rs:813-824 -/
def gateWaiters (s : Status) : Reading :=
  let waiters := s.lanes.trusted.waiters + s.lanes.public_.waiters
  if waiters = 0 then
    .live "gate.waiters" "held" "0 waiting" "Nothing is held at the gateway." 0
  else if admissionVerdict s = .gatewayLimited then
    .live "gate.waiters" "held" (toString waiters ++ " waiting")
      ("Requests are held at the gateway while the engine has free slots: the wait is ours - " ++
        "the token budget, not the GPUs.")
      (.finite medium + .finite (3 / 10) * ramp (.finite waiters) 0 16)
  else
    .live "gate.waiters" "held" (toString waiters ++ " waiting")
      "Requests wait at the gateway because the engine is busy; they go in as answers finish." 0

/-- One lane of the gateway.
SOURCE: lss-core/src/readings.rs:825-844 -/
def gateLane (lane who : String) (l : LaneStatus) : List Reading :=
  let k := fun f : String => "gate." ++ lane ++ "." ++ f
  let budget := match l.budgetTokens.filter (0 < ·) with
    | some b =>
      let p := Ieee.finite l.inflightTokens / .finite b * 100
      Reading.live (k "budget") (lane ++ " budget")
        (tok (.finite l.inflightTokens) ++ " of " ++ tok (.finite b) ++ " (" ++ pct0 p ++ ")")
        ("When the " ++ lane ++ " lane's token budget is full, its requests wait at the gateway " ++
          "even if the engine has room.") (ramp p 70 100)
    | none =>
      .noData (k "budget") (lane ++ " budget")
        ("This gateway publishes no in-flight token budget for the " ++ lane ++ " lane.")
  let failed := l.codes10m.c5xx
  let turned := l.codes10m.c4xx
  [budget,
    .live (k "failed") (lane ++ " failed") (toString failed ++ " in 10 min")
      (if 0 < failed then who ++ " got an error instead of an answer."
        else "No " ++ lane ++ " request has failed in the last 10 minutes.")
      (if 0 < failed then .finite (1 / 2) + .finite (4 / 10) * ramp (.finite failed) 0 20 else 0),
    .live (k "turned") (lane ++ " turned away") (toString turned ++ " in 10 min")
      (if 0 < turned then who ++ " were refused at the gateway and have to retry."
        else "No " ++ lane ++ " caller was turned away in the last 10 minutes.")
      (if 0 < turned then .finite (4 / 10) + .finite (2 / 10) * ramp (.finite turned) 0 50 else 0)]

/-- SOURCE: lss-core/src/readings.rs:802-846 -/
def gateway (s : Status) : List Reading :=
  if s.gate.absent then []
  else if !s.gate.up then
    [.offline "gate.up" "gateway" ("The gateway is not answering: every client that goes " ++
      "through it is refused until it is back.")]
  else
    gateWaiters s :: (gateLane "public" "Outside callers" s.lanes.public_ ++
      gateLane "trusted" "Your own agents and tools" s.lanes.trusted)

/-! ## The cost -/

/-- SOURCE: lss-core/src/rates.rs:784-791 -/
def fmtDays (secs : ℤ) : String :=
  let d := Ieee.finite secs / 86400
  if F64.lt d 1 then F64.fixed 1 d ++ " days" else F64.fixed 0 d ++ " days"

/-- One spending window.
SOURCE: lss-core/src/readings.rs:918-936 -/
def spendWindow (key label : String) (w : SpendWindow) (span basis : String) : Reading :=
  match w.usd with
  | none => .noData key label ("Nothing priced yet " ++ span ++ ".")
  | some usd =>
    let kwh := (w.kwh.map fun k => " \u00b7 " ++ F64.fixed 2 k ++ " kWh").getD ""
    let covered := if 0 < w.nominalSecs ∧
        (Ieee.finite w.nominalSecs * .finite (95 / 100)).le (.finite w.coveredSecs) then ""
      else " Only " ++ fmtDays w.coveredSecs ++ " of " ++ fmtDays w.nominalSecs ++ " " ++ span ++
        " carried priced power, so this is a floor, not the total."
    .live key label ("$" ++ F64.fixed 2 usd ++ kwh)
      ("Spent on GPU power " ++ span ++ " (" ++ basis ++ ")." ++ covered) 0

section Cost

-- the year of a time on the clock of this machine (lss-core/src/timeutil.rs:34-39)
variable (fmtYear : ℤ → String)

/-- The weeks, months and years of the spending, none of which may lead.
SOURCE: lss-core/src/readings.rs:883-911 -/
def spendingReadings (s : Status) (basis : String) (sp : SpendingStatus) : List Reading :=
  let jan1 := fmtYear s.generatedAt ++ "-01-01"
  let ytdSpan := match sp.yearFirstDay.filter fun first => decide (jan1 < first) with
    | some first => "since Jan 1 (the stored history starts " ++ first ++ ")"
    | none => "since Jan 1"
  [(spendWindow "cost.week" "this week" sp.thisWeek "since Monday" basis).asInformational,
    (spendWindow "cost.month" "month to date" sp.thisMonth "since the 1st" basis).asInformational,
    (spendWindow "cost.ytd" "year to date" sp.thisYear ytdSpan basis).asInformational,
    (match sp.monthProjectionUsd with
      | some p => Reading.live "cost.month_projection" "month projected" ("~$" ++ F64.fixed 2 p)
          ("Where this month lands if the days so far are typical - " ++ sp.projectionNote ++
            " (" ++ basis ++ ").") 0
      | none =>
        .noData "cost.month_projection" "month projected" sp.projectionNote).asInformational]

/-- SOURCE: lss-core/src/readings.rs:856-913 -/
def cost (s : Status) : List Reading :=
  match s.cost with
  | none =>
    [(Reading.noData "cost" "cost"
      "No rates file is configured, so cost tracking is off.").asInformational]
  | some c =>
    let from_ := if c.rateSource = "" then "" else "rate: " ++ c.rateSource ++ "; "
    let basis := from_ ++ "rates effective " ++ c.effectiveDate ++
      "; delivery and generation only, excludes the fixed daily charge"
    [(match c.liveUsdPerHour, c.currentUsdPerKwh with
      | some h, some k => Reading.live "cost.live" "cost now" ("$" ++ F64.fixed 2 h ++ "/hour")
          ("What the GPUs draw right now costs per hour at $" ++ F64.fixed 3 k ++ "/kWh" ++
            (if c.currentPeriod = "" then "" else ", the " ++ c.currentPeriod ++ " rate") ++ " (" ++
            basis ++ ").") 0
      | _, _ => .noData "cost.live" "cost now"
          "No live power reading or no rate for this hour.").asInformational,
    (match c.todayUsd with
      | some u => Reading.live "cost.today" "today" ("$" ++ F64.fixed 2 u)
          ("Spent on GPU power since midnight (" ++ basis ++ ").") 0
      | none => .noData "cost.today" "today"
          "No priced power samples since midnight yet.").asInformational,
    (match c.todayUsdPerMillionRealWorkTokens with
      | some u => Reading.live "cost.per_1m" "per 1M tokens" ("$" ++ F64.fixed 3 u)
          ("What a million tokens of real work - prompt actually read plus text written - cost " ++
            "today (" ++ basis ++ ").") 0
      | none => .noData "cost.per_1m" "per 1M tokens"
          "Not enough real work today to price a million tokens.").asInformational] ++
    (s.spending.map (spendingReadings fmtYear s basis)).getD []

end Cost

/-! ## The loadout -/

/-- SOURCE: lss-core/src/readings.rs:938-948 -/
def loadout (s : Status) : List Reading :=
  (match (s.serve.model.or (s.loadout.map LoadoutBrief.model)).filter (· ≠ "") with
    | some m =>
      [(Reading.live "loadout.model" "model" m
        "The model the engine has loaded." 0).asInformational]
    | none => []) ++
  (match s.loadout.filter fun l => l.flags ≠ "" with
    | some l =>
      [(Reading.live "loadout.flags" "flags" l.flags
        "The launch flags this loadout runs with." 0).asInformational]
    | none => [])

/-! ## The events -/

/-- What an alert's own word is worth.
SOURCE: lss-core/src/readings.rs:962-968 -/
def alertScore (severity : String) : Ieee :=
  if ["crit", "critical", "page"].contains severity then .finite high
  else if ["warn", "warning", "hardware"].contains severity then .finite medium
  else .finite (low / 2)

/-- SOURCE: lss-core/src/readings.rs:984 -/
def xidFreshSecs : ℤ := 3600

/-- The newest of some alerts, the last of those that are equally new. -/
def newestAlert (alerts : List AlertRow) : Option AlertRow :=
  alerts.foldl (fun best a => match best with
    | some b => if b.ts ≤ a.ts then some a else some b
    | none => some a) none

/-- The alert that says a rule is firing.
SOURCE: lss-core/src/readings.rs:993 -/
def lastAlert (s : Status) (rule : String) : Option AlertRow :=
  newestAlert (s.alerts.filter fun a => a.rule = rule ∧ !a.recovered)

/-- A rule that is firing.
SOURCE: lss-core/src/readings.rs:992-1000 -/
def firingReading (s : Status) (rule : String) : Reading :=
  let last := lastAlert s rule
  let sev := (last.map AlertRow.severity).getD "warn"
  let msg := (last.map AlertRow.message).getD ("Alert " ++ rule ++ " is firing.")
  let msg := if msg.endsWith "." then msg else msg ++ "."
  .live ("alert." ++ rule) "alert" rule msg (alertScore sev)

/-- Whether a second source says that something is wrong right now.
SOURCE: lss-core/src/readings.rs:1017-1019 -/
def unwell (s : Status) : Bool :=
  !s.serve.up || (!s.gate.absent && !s.gate.up) ||
    s.firing.any fun r => (lastAlert s r).all fun a => (Ieee.finite low).le (alertScore a.severity)

/-- A text without the characters at its end. -/
def trimEnd (drop : Char → Bool) (t : String) : String :=
  String.ofList (t.toList.reverse.dropWhile drop).reverse

/-- Alerts that were never handed over.
SOURCE: lss-core/src/readings.rs:1054-1073 -/
def undelivered (s : Status) : List Reading :=
  let works := s.alerts.any AlertRow.delivered
  (s.alerts.filter fun a => !a.delivered).map fun a =>
    let own := alertScore a.severity
    let r := Reading.live ("events.undelivered." ++ toString a.id) "alert not delivered" a.rule
      ("The " ++ a.severity ++ " alert \"" ++ trimEnd (· = '.') a.message ++
        "\" was never handed over to the alert sink: nobody was told, and the next one may go " ++
        "the same way.")
      (corroborate (least own (.finite medium)) (works && (Ieee.finite low).le own))
    if !works then
      { r with
        detail := "Not handed over - and nothing on this box ever has been, so there is " ++
          "probably no alert sink configured rather than one that failed (" ++ a.rule ++
          ")." }.asInformational
    else if F64.lt own (.finite low) then
      { r with
        detail := "Not handed over, and this page scores a " ++ a.severity ++ " alert below " ++
          "watch anyway: an alert nobody needed to be woken for is not a delivery fault (" ++
          a.rule ++ ")." }.asInformational
    else r

/-- SOURCE: lss-core/src/readings.rs:1090-1092 -/
def fault (detail : String) : String := trimEnd (['.', ',', ' '].contains ·) (trim detail)

/-- The faults the driver reported.
SOURCE: lss-core/src/readings.rs:1094-1117 -/
def xids (s : Status) (now : ℤ) (unwell : Bool) : List Reading :=
  let reported := s.incidents.filter fun i => i.kind = "xid"
  let newest := (reported.map Incident.start).max?
  reported.map fun i =>
    let age := max (now - i.start) 0
    let fresh := decide (age ≤ xidFreshSecs)
    let explains := unwell && some i.start = newest
    let r := Reading.live ("events.xid." ++ toString i.id) "GPU driver error" i.kind
      (if fresh then
        "The driver reported a GPU fault " ++ dur age ++ " ago (" ++ fault i.detail ++
          "): a card that has just thrown an Xid can hang or drop off the bus again."
      else
        "The driver reported a GPU fault " ++ dur age ++ " ago (" ++ fault i.detail ++
          "), and something is wrong on this box right now - this is the newest hardware fault " ++
          "that could explain it.")
      (corroborate (.finite medium) (fresh || explains))
    if fresh || explains then r
    else
      { r with
        detail := "A GPU fault the driver reported " ++ dur age ++ " ago (" ++ fault i.detail ++
          "), with nothing saying the box is unwell since: a dated record, not something " ++
          "happening now." }.asInformational

/-- What is open, when something is.
SOURCE: lss-core/src/readings.rs:1022-1031 -/
def openIncident (s : Status) (unwell : Bool) : List Reading :=
  let open_ := s.incidents.filter fun i => i.end_.isNone
  match open_.find? fun i => i.kind ≠ "maintenance" with
  | some i =>
    let r := Reading.live "events.open" "open incident" i.kind
      ("An incident opened " ++ i.kind ++ " has not been seen to close.")
      (corroborate (.finite medium) unwell)
    [if unwell then r
    else
      { r with
        detail := "An incident opened " ++ i.kind ++ " has not been seen to close, and nothing " ++
          "else says the box is unwell right now." }.asInformational]
  | none =>
    match open_.find? fun i => i.kind = "maintenance" with
    | some i =>
      [(Reading.live "events.open" "open incident" i.kind
        ("Planned maintenance is open, which is a note to yourself rather than something " ++
          "wrong.") 0).asInformational]
    | none => []

/-- SOURCE: lss-core/src/readings.rs:990-1033 -/
def events (s : Status) (now : ℤ) : List Reading :=
  let open_ := s.incidents.filter fun i => i.end_.isNone
  s.firing.map (firingReading s) ++
    (Reading.live "events.incidents" "incidents"
      (toString s.incidents.length ++ " (7 days), " ++ toString open_.length ++ " open")
      "Outages and restarts recorded in the last week." 0).asInformational ::
    (undelivered s ++ xids s now (unwell s) ++ openIncident s (unwell s))

/-! ## The page -/

/-- Every reading of the page.
SOURCE: lss-core/src/readings.rs:435-445 -/
def all (fmtYear : ℤ → String) (s : Status) (now : ℤ) : List Reading :=
  collector s now ++ serve s now ++ gpus s ++ gateway s ++ cost fmtYear s ++ loadout s ++
    events s now

/-! ## The line of the first page -/

/-- What leads, and the labels of everything else that is not fine, worst first.
SOURCE: lss/src/constraints.rs:20-27 -/
structure Headline where
  leader : Option Reading
  also : List String

/-- The readings that are named after the one that leads.
SOURCE: lss/src/constraints.rs:40-43 -/
def named (rs : List Reading) (leader : Option Reading) : List Reading :=
  (rank rs).filter fun r => (Ieee.finite low).le r.severity && leader.all fun l => l.key != r.key

/-- SOURCE: lss/src/constraints.rs:37-44 -/
def headlineWith (fmtYear : ℤ → String) (s : Status) (incumbent : Option String) : Headline :=
  let rs := all fmtYear s s.generatedAt
  let leader := leading rs incumbent
  { leader := leader
    also := (named rs leader).map Reading.label }

/-- The line of a frame, and what is remembered of it for the next one.
SOURCE: lss/src/ui/dash.rs:1325-1330 -/
def frameHeadline (fmtYear : ℤ → String) (worstKey : Option String) (s : Status) :
    Headline × Option String :=
  let h := headlineWith fmtYear s worstKey
  (h, h.leader.map Reading.key)

/-- What leads frame after frame. -/
def leaders (fmtYear : ℤ → String) : Option String → List Status → List (Option String)
  | _, [] => []
  | worstKey, s :: frames =>
    let next := (frameHeadline fmtYear worstKey s).2
    next :: leaders fmtYear next frames

end Lss.Model.Readings
