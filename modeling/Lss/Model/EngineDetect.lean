import Lss.Library.Queries
import Lss.Model.Engines

/-!
# Which engine answers

An engine is recognised by what it answers to a handful of paths. Every adapter looks for its own
fingerprint, and may try another path where the first one does not show it. They share one memory
of the answers and a budget of four paths.
-/

set_option autoImplicit false

namespace Lss.Model.Detect

open Lss.Library

/-! ## Answers -/

/-- A value of the data format that engines answer in. -/
inductive Json where
  | null
  | bool (v : Bool)
  | int (v : ℤ)
  | float (v : ℚ)
  | str (v : String)
  | arr (items : List Json)
  | obj (entries : List (String × Json))

namespace Json

/-- The entry of a key, when the value is an object that has it. -/
def get? : Json → String → Option Json
  | obj entries, key => (entries.find? fun e => e.1 = key).map Prod.snd
  | _, _ => none

/-- The entry of a key, and nothing where there is none. -/
def field (v : Json) (key : String) : Json := (v.get? key).getD null

def asArray : Json → Option (List Json)
  | arr items => some items
  | _ => none

def item (v : Json) (i : ℕ) : Json := ((v.asArray.getD [])[i]?).getD null

def asStr : Json → Option String
  | str v => some v
  | _ => none

def asF64 : Json → Option ℚ
  | int v => some v
  | float v => some v
  | _ => none

def asU64 : Json → Option ℕ
  | int v => if 0 ≤ v then some v.toNat else none
  | _ => none

end Json

/-- What a server answers to a path, or why it does not. -/
abbrev Answer := Except String String

/-- What lss does with a server: it asks for paths. -/
abbrev Asking (α : Type) := Query String Answer α

def fetch (path : String) : Asking Answer := Query.once path

/-- Whether a text holds another one. -/
def holds (text part : String) : Bool :=
  text.toList.tails.any fun rest => part.toList.isPrefixOf rest

/-- SOURCE: lss-core/src/engine.rs:384 -/
def noModel : String := "(no model loaded)"

/-- What is being served, as far as the engine tells.
SOURCE: lss-core/src/engine.rs:229-244 -/
structure EngineIdentity where
  model : Option String := none
  version : Option String := none
  contextLen : Option ℚ := none
  slots : Option ℕ := none
  detail : String := ""
  cmdline : String := ""

/-- A number of 64 bits cut down to 32. -/
def asU32 (n : ℕ) : ℕ := n % 2 ^ 32

section Adapters

-- reads a value from its text, when it is one
variable (fromStr : String → Option Json)

/-- SOURCE: lss-core/src/engine.rs:366-368 -/
def json (path : String) : Asking (Option Json) := do
  let got ← fetch path
  return got.toOption.bind fromStr

/-- The model that a list of models starts with. -/
def firstModel (body : String) : Except String String :=
  match fromStr body with
  | none => .error "bad JSON from /v1/models"
  | some v =>
    match (v.field "data").asArray with
    | some [] => .ok noModel
    | some (first :: _) =>
      match (first.field "id").asStr with
      | some id => .ok id
      | none => .error "no model id in /v1/models"
    | none => .error "no model list in /v1/models"

/-- SOURCE: lss-core/src/engine.rs:374-382 -/
def openaiModel : Asking (Except String String) := do
  let got ← fetch "/v1/models"
  return got.bind (firstModel fromStr)

/-! ## The adapters -/

/-- SOURCE: lss-core/src/engine.rs:435-437 -/
def Sglang.detect : Asking (Option String) := do
  let page ← fetch "/metrics"
  if page.toOption.any (holds · "sglang:") then return some "/metrics carries `sglang:` series"
  let info ← json fromStr "/get_server_info"
  if info.any fun v => (v.get? "max_running_requests").isSome then
    return some "/get_server_info answers (start it with --enable-metrics for the full picture)"
  return none

/-- SOURCE: lss-core/src/engine.rs:438-448 -/
def Sglang.identity : Asking EngineIdentity := do
  let info := (← json fromStr "/get_server_info").getD .null
  let model ← openaiModel fromStr
  return {
    model := model.toOption
    version := (info.field "version").asStr
    contextLen := (info.field "context_length").asF64.or (info.field "max_total_num_tokens").asF64
    slots := (info.field "max_running_requests").asU64.map asU32
    detail := ((info.field "quantization").asStr.map fun q => "quant " ++ q).getD "" }

/-- SOURCE: lss-core/src/engine.rs:525-527 -/
def Vllm.detect : Asking (Option String) := do
  let page ← fetch "/metrics"
  return if page.toOption.any (holds · "vllm:") then some "/metrics carries `vllm:` series" else none

/-- SOURCE: lss-core/src/engine.rs:528-538 -/
def Vllm.identity : Asking EngineIdentity := do
  let models := (← json fromStr "/v1/models").getD .null
  let model ← openaiModel fromStr
  let version ← json fromStr "/version"
  return {
    model := model.toOption
    version := version.bind fun v => (v.field "version").asStr
    contextLen := (((models.field "data").item 0).field "max_model_len").asF64 }

/-- SOURCE: lss-core/src/engine.rs:582-584 -/
def Tgi.detect : Asking (Option String) := do
  let info ← json fromStr "/info"
  if info.any fun v => (v.field "router").asStr.any (holds · "text-generation") then
    return some "/info says `text-generation-router`"
  let page ← fetch "/metrics"
  if page.toOption.any fun t => holds t "tgi_request_count" || holds t "tgi_queue_size" then
    return some "/metrics carries `tgi_` series"
  return none

/-- SOURCE: lss-core/src/engine.rs:585-595 -/
def Tgi.identity : Asking EngineIdentity := do
  let info := (← json fromStr "/info").getD .null
  return {
    model := (info.field "model_id").asStr
    version := (info.field "version").asStr
    contextLen := (info.field "max_total_tokens").asF64
    slots := (info.field "max_concurrent_requests").asU64.map asU32
    detail := ((info.field "max_input_tokens").asU64.map fun n =>
      s!"max input {n} tokens").getD "" }

/-- SOURCE: lss-core/src/engine.rs:659-667 -/
def LlamaCpp.detect : Asking (Option String) := do
  let models ← fetch "/v1/models"
  if models.toOption.any (holds · "\"llamacpp\"") then
    return some "/v1/models says owned_by `llamacpp`"
  let page ← fetch "/metrics"
  if page.toOption.any (holds · "llamacpp:") then
    return some "/metrics carries `llamacpp:` series"
  let props ← json fromStr "/props"
  if props.any fun v => (v.get? "default_generation_settings").isSome then
    return some "/props has `default_generation_settings`"
  return none

/-- What stands behind the last slash. -/
def fileName (path : String) : String :=
  String.ofList (path.toList.reverse.takeWhile (· ≠ '/')).reverse

/-- SOURCE: lss-core/src/engine.rs:668-679 -/
def LlamaCpp.identity : Asking EngineIdentity := do
  let props := (← json fromStr "/props").getD .null
  let file := (props.field "model_path").asStr.map fileName
  let alias_ := (props.field "model_alias").asStr.filter fun a => a ≠ ""
  -- the list of models is asked for only where there is no alias
  let model ← match alias_ with
    | some a => (pure (some a) : Asking (Option String))
    | none => do
      let listed ← openaiModel fromStr
      pure (listed.toOption.or file)
  return {
    model := model
    version := (props.field "build_info").asStr
    contextLen := ((props.field "default_generation_settings").field "n_ctx").asF64
    slots := (props.field "total_slots").asU64.map asU32
    detail := file.getD "" }

/-- What is loaded, with its context length and a description.
SOURCE: lss-core/src/engine.rs:703-717 -/
def Ollama.loaded (psJson : String) : List (String × Option ℚ × String) :=
  let v := (fromStr psJson).getD .null
  (((v.field "models").asArray).getD []).filterMap fun m => do
    let name ← (m.field "name").asStr.or (m.field "model").asStr
    let d := m.field "details"
    let known := [(d.field "parameter_size").asStr, (d.field "quantization_level").asStr].reduceOption
    let share := ((m.field "size").asF64.bind fun size => (m.field "size_vram").asF64.bind fun vram =>
      if 0 < size then
        some (fixedDecimals 0 (min (max (vram / size * 100) 0) 100) ++ "% on the GPU")
      else none).toList
    pure (name, (m.field "context_length").asF64, " · ".intercalate (known ++ share))

/-- SOURCE: lss-core/src/engine.rs:735-739 -/
def Ollama.detect : Asking (Option String) := do
  let said ← json fromStr "/api/version"
  match said.bind fun v => (v.field "version").asStr with
  | none => return none
  | some version =>
    let tags ← json fromStr "/api/tags"
    return if tags.any fun v => (v.field "models").asArray.isSome then
        some s!"/api/version says {version} and /api/tags lists models"
      else none

/-- SOURCE: lss-core/src/engine.rs:740-751 -/
def Ollama.identity : Asking EngineIdentity := do
  let ps ← fetch "/api/ps"
  let first := ((ps.toOption.map (Ollama.loaded fromStr)).getD []).head?
  let said ← json fromStr "/api/version"
  return {
    model := first.map fun l => l.1
    version := said.bind fun v => (v.field "version").asStr
    contextLen := first.bind fun l => l.2.1
    detail := (first.map fun l => l.2.2).getD "" }

/-- SOURCE: lss-core/src/engine.rs:766-773 -/
def LmStudio.loaded (modelsJson : String) : Option (String × Option ℚ × String) := do
  let v ← fromStr modelsJson
  let models ← (v.field "data").asArray
  let m ← models.find? fun m =>
    (m.field "state").asStr = some "loaded" && (m.field "type").asStr ≠ some "embeddings"
  let id ← (m.field "id").asStr
  let detail := [(m.field "arch").asStr, (m.field "quantization").asStr,
    (m.field "compatibility_type").asStr].reduceOption
  pure (id, (m.field "loaded_context_length").asF64.or (m.field "max_context_length").asF64,
    " · ".intercalate detail)

/-- SOURCE: lss-core/src/engine.rs:779-781 -/
def LmStudio.detect : Asking (Option String) := do
  let models ← json fromStr "/api/v0/models"
  return if models.any fun v => (v.field "data").asArray.isSome then
      some "/api/v0/models answers (LM Studio's own API)"
    else none

/-- SOURCE: lss-core/src/engine.rs:782-785 -/
def LmStudio.identity : Asking EngineIdentity := do
  let body ← fetch "/api/v0/models"
  let loaded := body.toOption.bind (LmStudio.loaded fromStr)
  return {
    model := loaded.map fun l => l.1
    contextLen := loaded.bind fun l => l.2.1
    detail := (loaded.map fun l => l.2.2).getD "" }

/-- SOURCE: lss-core/src/engine.rs:805-807 -/
def OpenAi.detect : Asking (Option String) := do
  let model ← openaiModel fromStr
  return model.toOption.map fun m =>
    s!"/v1/models answers ({m}): an OpenAI-compatible server lss has no adapter for"

/-- SOURCE: lss-core/src/engine.rs:808-810 -/
def OpenAi.identity : Asking EngineIdentity := do
  let model ← openaiModel fromStr
  return { model := model.toOption }

/-! ## Detection -/

/-- The kinds of engines in the order their adapters are tried, the most specific first.
SOURCE: lss-core/src/engine.rs:275-286 -/
def adapters : List EngineKind := [.sglang, .vllm, .tgi, .llamaCpp, .ollama, .lmStudio, .openAi]

/-- What the adapter of a kind looks for. -/
def adapterDetect : EngineKind → Asking (Option String)
  | .sglang => Sglang.detect fromStr
  | .vllm => Vllm.detect
  | .tgi => Tgi.detect fromStr
  | .llamaCpp => LlamaCpp.detect fromStr
  | .ollama => Ollama.detect fromStr
  | .lmStudio => LmStudio.detect fromStr
  | .openAi => OpenAi.detect fromStr

/-- What the adapter of a kind reads of the model that is served. -/
def adapterIdentity : EngineKind → Asking EngineIdentity
  | .sglang => Sglang.identity fromStr
  | .vllm => Vllm.identity fromStr
  | .tgi => Tgi.identity fromStr
  | .llamaCpp => LlamaCpp.identity fromStr
  | .ollama => Ollama.identity fromStr
  | .lmStudio => LmStudio.identity fromStr
  | .openAi => OpenAi.identity fromStr

/-- The first adapter that recognises its engine. -/
def firstAccepting : List EngineKind → Asking (Option (EngineKind × String))
  | [] => return none
  | kind :: kinds => do
    match ← adapterDetect fromStr kind with
    | some why => return some (kind, why)
    | none => firstAccepting kinds

/-- SOURCE: lss-core/src/engine.rs:315 -/
def maxDetectPaths : ℕ := 4

/-- The questions of a detection in their order: the paths that are always asked, and then the
adapters.
SOURCE: lss-core/src/engine.rs:344-362 -/
def detection : Asking (Option (EngineKind × String)) := do
  let _ ← fetch "/v1/models"
  let _ ← fetch "/metrics"
  let said ← json fromStr "/api/version"
  let _ ← fetch (if (said.bind fun v => (v.field "version").asStr).isSome then "/api/tags"
    else "/api/v0/models")
  firstAccepting fromStr adapters

def spent : Answer := .error "lss: path budget spent for this port"

/-- A detection on a server: what it takes the server for, and the requests it made with their
answers.
SOURCE: lss-core/src/engine.rs:330-362 -/
def detectRun (server : String → Answer) :
    Option (EngineKind × String) × List (String × Answer) :=
  (detection fromStr).within server maxDetectPaths spent []

def detect (server : String → Answer) : Option (EngineKind × String) := (detectRun fromStr server).1

end Adapters

end Lss.Model.Detect
