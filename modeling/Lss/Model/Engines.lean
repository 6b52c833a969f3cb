import Lss.Model.Prom
import Lss.Model.BenchWatch

/-!
# Engine adapters

What the numbers of one engine are read from, for every kind of engine. A number an engine does
not publish is absent, and zero once it is in the record the rest of the collector works with.

The series of a scrape are finite numbers here: every reader passes over the others.
-/

set_option autoImplicit false

namespace Lss.Model

open Prom

/-- SOURCE: lss-core/src/engine.rs:18-27 -/
inductive EngineKind where
  | sglang
  | vllm
  | llamaCpp
  | ollama
  | lmStudio
  | tgi
  | openAi
deriving DecidableEq

/-- What an engine is asked for; absent where it does not report it.
SOURCE: lss-core/src/engine.rs:92-123 -/
structure EngineMetrics where
  running : Option ℚ := none
  queued : Option ℚ := none
  kvUsage : Option ℚ := none
  kvCapacityTokens : Option ℚ := none
  decodeTokS : Option ℚ := none
  promptTokensTotal : Option ℚ := none
  cachedTokensTotal : Option ℚ := none
  computedPromptTokensTotal : Option ℚ := none
  generationTokensTotal : Option ℚ := none
  requestsTotal : Option ℚ := none
  cacheHitRate : Option ℚ := none
  specAcceptLength : Option ℚ := none
  specAcceptRate : Option ℚ := none
  preemptionsTotal : Option ℚ := none
  prefillSecondsTotal : Option ℚ := none
  requestSecondsTotal : Option ℚ := none
  contextLen : Option ℚ := none
  slots : Option ℚ := none

/-- SOURCE: lss-core/src/prom.rs:167-168 -/
def countersV : ℕ := 2

namespace EngineMetrics

/-- SOURCE: lss-core/src/engine.rs:153-175 -/
def fromSglang (m : ServeMetrics) : EngineMetrics :=
  { running := some m.running
    queued := some m.queue
    kvUsage := some m.kvUsage
    kvCapacityTokens := some m.maxTotalTokens
    decodeTokS := some m.genThroughput
    promptTokensTotal := some m.promptTokensTotal
    cachedTokensTotal := some m.cachedTokensTotal
    computedPromptTokensTotal := some m.prefillComputeTokensTotal
    generationTokensTotal := some m.generationTokensTotal
    requestsTotal := some m.requestsTotal
    cacheHitRate := some m.cacheHitRate
    specAcceptLength := some m.specAcceptLength
    specAcceptRate := some m.specAcceptRate
    preemptionsTotal := some m.retracted
    prefillSecondsTotal := some m.prefillForwardSum
    requestSecondsTotal := some m.e2eSum
    contextLen := some m.contextLen }

/-- The record the rest of the collector works with. The counters of the lanes keep their
default.
SOURCE: lss-core/src/engine.rs:177-202 -/
def toServeMetrics (m : EngineMetrics) : ServeMetrics :=
  { running := m.running.getD 0
    queue := m.queued.getD 0
    tokenUsage := m.kvUsage.getD 0
    maxTotalTokens := m.kvCapacityTokens.getD 0
    genThroughput := m.decodeTokS.getD 0
    promptTokensTotal := m.promptTokensTotal.getD 0
    cachedTokensTotal := m.cachedTokensTotal.getD 0
    prefillComputeTokensTotal := m.computedPromptTokensTotal.getD 0
    generationTokensTotal := m.generationTokensTotal.getD 0
    requestsTotal := m.requestsTotal.getD 0
    cacheHitRate := m.cacheHitRate.getD 0
    specAcceptLength := m.specAcceptLength.getD 0
    specAcceptRate := m.specAcceptRate.getD 0
    retracted := m.preemptionsTotal.getD 0
    prefillForwardSum := m.prefillSecondsTotal.getD 0
    e2eSum := m.requestSecondsTotal.getD 0
    contextLen := m.contextLen.getD 0
    countersV := countersV }

end EngineMetrics

/-! ## Series by name -/

/-- SOURCE: lss-core/src/prom.rs:13-15 -/
def Prom.Series.label (s : Series ℚ) (key : String) : Option String :=
  (s.labels.find? fun l => l.1 = key).map Prod.snd

/-- The sum over every label set, when the family is there.
SOURCE: lss-core/src/engine.rs:403-408 -/
def familySum (series : List (Series ℚ)) (name : String) : Option ℚ :=
  let rows := series.filter fun s => s.name = name
  if rows = [] then none else some (rows.map Series.value).sum

/-- SOURCE: lss-core/src/engine.rs:409-411 -/
def firstOf (series : List (Series ℚ)) (names : List String) : Option ℚ :=
  names.findSome? (familySum series)

/-- SOURCE: lss-core/src/engine.rs:412-414 -/
def labelOf (series : List (Series ℚ)) (name label : String) : Option String :=
  (series.find? fun s => s.name = name).bind fun s => s.label label

/-- SOURCE: lss-core/src/engine.rs:417-422 -/
def ratio (part whole : Option ℚ) : Option ℚ :=
  part.bind fun p => (whole.filter fun w => 0 < w).map fun w => min (max (p / w) 0) 1

/-! ## SGLang -/

namespace Extractor

/-- SOURCE: lss-core/src/prom.rs:216-221 -/
def matching (series : List (Series ℚ)) (name : String) : List (Series ℚ) :=
  series.filter fun s => s.name = "sglang:" ++ name && (s.label "tp_rank").all fun r => r = "0"

/-- The explicit total of some rows, else the sum over the priorities. -/
def wholeOf (rows : List (Series ℚ)) : ℚ :=
  if rows.any fun s => s.label "priority" = some "" then
    ((rows.filter fun s => s.label "priority" = some "").map Series.value).sum
  else (rows.map Series.value).sum

/-- SOURCE: lss-core/src/prom.rs:223-234 -/
def total (series : List (Series ℚ)) (name : String) : ℚ := wholeOf (matching series name)

/-- SOURCE: lss-core/src/prom.rs:236-241 -/
def labelled (series : List (Series ℚ)) (name label value : String) : ℚ :=
  wholeOf ((matching series name).filter fun s => s.label label = some value)

/-- SOURCE: lss-core/src/prom.rs:243-246 -/
def lane (series : List (Series ℚ)) (name priority : String) : ℚ :=
  (((matching series name).filter fun s => s.label "priority" = some priority).map
    Series.value).sum

end Extractor

open Extractor in
/-- SOURCE: lss-core/src/prom.rs:254-294 -/
def extractServeMetricsFrom (series : List (Series ℚ))
    (publicPriority trustedPriority : String) : ServeMetrics :=
  let x := total series
  { running := x "num_running_reqs"
    queue := x "num_queue_reqs"
    runningPublic := lane series "num_running_reqs" publicPriority
    runningTrusted := lane series "num_running_reqs" trustedPriority
    queuePublic := lane series "num_queue_reqs" publicPriority
    queueTrusted := lane series "num_queue_reqs" trustedPriority
    genThroughput := x "gen_throughput"
    tokenUsage := x "token_usage"
    fullTokenUsage := x "full_token_usage"
    kvUsedTokens := x "kv_used_tokens"
    maxTotalTokens := x "max_total_num_tokens"
    cacheHitRate := x "cache_hit_rate"
    specAcceptLength := x "spec_accept_length"
    specAcceptRate := x "spec_accept_rate"
    retracted := x "num_retracted_reqs"
    promptTokensTotal := x "prompt_tokens_total"
    generationTokensTotal := x "generation_tokens_total"
    requestsTotal := x "num_requests_total"
    ttftSum := x "time_to_first_token_seconds_sum"
    ttftCount := x "time_to_first_token_seconds_count"
    itlSum := x "inter_token_latency_seconds_sum"
    itlCount := x "inter_token_latency_seconds_count"
    queueTimeSum := x "queue_time_seconds_sum"
    queueTimeCount := x "queue_time_seconds_count"
    cachedTokensTotal := x "cached_tokens_total"
    contextLen := x "context_len"
    prefillComputeTokensTotal := labelled series "realtime_tokens_total" "mode" "prefill_compute"
    evictedTokensTotal := x "evicted_tokens_total"
    specVerifyCallsTotal := x "spec_verify_calls_total"
    e2eSum := x "e2e_request_latency_seconds_sum"
    prefillForwardSum :=
      labelled series "per_stage_req_latency_seconds_sum" "stage" "prefill_forward"
    decodeSumSeqLens := x "decode_sum_seq_lens"
    prefillInflightReqs := x "num_prefill_inflight_queue_reqs"
    startupTimeS := x "startup_time_seconds"
    countersV := countersV }

/-! ## The other engines -/

/-- `parse` reads a number from a label.
SOURCE: lss-core/src/engine.rs:462-503 -/
def Vllm.parseMetrics (parse : String → Option ℚ) (series : List (Series ℚ)) : EngineMetrics :=
  let p := familySum series
  let hits := firstOf series ["vllm:prefix_cache_hits_total", "vllm:gpu_prefix_cache_hits_total"]
  let queries :=
    firstOf series ["vllm:prefix_cache_queries_total", "vllm:gpu_prefix_cache_queries_total"]
  let prompt := p "vllm:prompt_tokens_total"
  let cached := (p "vllm:prompt_tokens_cached_total").or hits
  let drafts := (p "vllm:spec_decode_num_drafts_total").filter fun d => 0 < d
  let accepted := p "vllm:spec_decode_num_accepted_tokens_total"
  let draftTokens := p "vllm:spec_decode_num_draft_tokens_total"
  let number := fun label => (labelOf series "vllm:cache_config_info" label).bind parse
  { running := p "vllm:num_requests_running"
    queued := p "vllm:num_requests_waiting"
    kvUsage := firstOf series ["vllm:kv_cache_usage_perc", "vllm:gpu_cache_usage_perc"]
    kvCapacityTokens :=
      (number "num_gpu_blocks").bind fun blocks => (number "block_size").map (blocks * ·)
    decodeTokS := p "vllm:avg_generation_throughput_toks_per_s"
    promptTokensTotal := prompt
    cachedTokensTotal := cached
    computedPromptTokensTotal := prompt.bind fun a => cached.map fun c => max (a - c) 0
    generationTokensTotal := p "vllm:generation_tokens_total"
    requestsTotal := p "vllm:request_success_total"
    cacheHitRate := ratio hits queries
    specAcceptLength := drafts.bind fun d => accepted.map fun a => 1 + a / d
    specAcceptRate := ratio accepted draftTokens
    preemptionsTotal := p "vllm:num_preemptions_total"
    prefillSecondsTotal := p "vllm:request_prefill_time_seconds_sum"
    requestSecondsTotal := p "vllm:e2e_request_latency_seconds_sum" }

/-- SOURCE: lss-core/src/engine.rs:552-564 -/
def Tgi.parseMetrics (series : List (Series ℚ)) : EngineMetrics :=
  let p := familySum series
  { running := p "tgi_batch_current_size"
    queued := p "tgi_queue_size"
    promptTokensTotal := p "tgi_request_input_length_sum"
    generationTokensTotal := p "tgi_request_generated_tokens_sum"
    requestsTotal := p "tgi_request_success"
    requestSecondsTotal := p "tgi_request_duration_sum" }

/-- SOURCE: lss-core/src/engine.rs:617-644 -/
def LlamaCpp.parseMetrics (series : List (Series ℚ)) : EngineMetrics :=
  let p := familySum series
  -- the engine's prompt counter leaves the cached tokens out
  let computed := p "llamacpp:prompt_tokens_total"
  let cached := p "llamacpp:prompt_tokens_cached_total"
  let drafts := (p "llamacpp:spec_decode_num_drafts_total").filter fun d => 0 < d
  let accepted := p "llamacpp:spec_decode_num_accepted_tokens_total"
  let promptS := p "llamacpp:prompt_seconds_total"
  let predictS := p "llamacpp:tokens_predicted_seconds_total"
  { running := p "llamacpp:requests_processing"
    queued := p "llamacpp:requests_deferred"
    kvUsage := p "llamacpp:kv_cache_usage_ratio"
    promptTokensTotal := computed.map fun c => c + cached.getD 0
    cachedTokensTotal := cached
    computedPromptTokensTotal := computed
    generationTokensTotal := p "llamacpp:tokens_predicted_total"
    cacheHitRate := ratio cached (computed.map fun c => c + cached.getD 0)
    specAcceptLength := drafts.bind fun d => accepted.map fun a => 1 + a / d
    specAcceptRate := ratio accepted (p "llamacpp:spec_decode_num_draft_tokens_total")
    prefillSecondsTotal := promptS
    requestSecondsTotal := promptS.bind fun a => predictS.map (a + ·) }

/-! ## One scrape -/

/-- What an engine answers to a scrape. -/
structure Pages where
  /-- the page of metrics, when it answers and is one of this engine -/
  metrics : Option (List (Series ℚ)) := none
  /-- it says what it serves -/
  modelOk : Bool := false
  /-- the busy slots and all of them -/
  slots : Option (ℚ × ℚ) := none
  /-- the context length and the slots of its description of itself -/
  info : Option (Option ℚ × Option ℚ) := none

/-- SOURCE: lss-core/src/engine.rs:246-253 -/
structure Scrape where
  metrics : Option EngineMetrics
  /-- everything SGLang publishes -/
  rich : Option ServeMetrics

/-- SOURCE: lss-core/src/engine.rs:256-258 -/
def Scrape.serveMetrics (s : Scrape) : Option ServeMetrics :=
  s.rich.or (s.metrics.map EngineMetrics.toServeMetrics)

/-- SOURCE: lss-core/src/engine.rs:449-454 -/
def Sglang.scrape (publicPriority trustedPriority : String) (pages : Pages) : Scrape :=
  let rich := pages.metrics.map fun s => extractServeMetricsFrom s publicPriority trustedPriority
  ⟨rich.map EngineMetrics.fromSglang, rich⟩

/-- SOURCE: lss-core/src/engine.rs:539-543 -/
def Vllm.scrape (parse : String → Option ℚ) (pages : Pages) : Scrape :=
  ⟨pages.metrics.map (Vllm.parseMetrics parse), none⟩

/-- SOURCE: lss-core/src/engine.rs:596-608 -/
def Tgi.scrape (pages : Pages) : Scrape :=
  let parsed := pages.metrics.map Tgi.parseMetrics
  let described := parsed.map fun m =>
    pages.info.elim m fun i => { m with contextLen := i.1, slots := i.2 }
  ⟨described, none⟩

/-- SOURCE: lss-core/src/engine.rs:680-695 -/
def LlamaCpp.scrape (pages : Pages) : Scrape :=
  let parsed := pages.metrics.map LlamaCpp.parseMetrics
  if pages.modelOk then
    let m := parsed.getD {}
    let m := pages.slots.elim m fun s =>
      { m with running := m.running.or (some s.1), slots := some s.2 }
    let m := pages.info.elim m fun i => { m with contextLen := i.1, slots := m.slots.or i.2 }
    ⟨some m, none⟩
  else ⟨parsed, none⟩

/-- An engine without a page of metrics: all it tells is its context length.
SOURCE: lss-core/src/engine.rs:752-758, lss-core/src/engine.rs:786-795,
lss-core/src/engine.rs:811-815 -/
def bareScrape (pages : Pages) : Scrape :=
  ⟨if pages.modelOk then some { contextLen := pages.info.bind Prod.fst } else none, none⟩

/-- SOURCE: lss-core/src/engine.rs:275-290 -/
def scrape (parse : String → Option ℚ) (publicPriority trustedPriority : String) (pages : Pages) :
    EngineKind → Scrape
  | .sglang => Sglang.scrape publicPriority trustedPriority pages
  | .vllm => Vllm.scrape parse pages
  | .tgi => Tgi.scrape pages
  | .llamaCpp => LlamaCpp.scrape pages
  | .ollama => bareScrape pages
  | .lmStudio => bareScrape pages
  | .openAi => bareScrape pages

end Lss.Model
