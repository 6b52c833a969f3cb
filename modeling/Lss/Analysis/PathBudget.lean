import Lss.Model.EngineDetect

/-!
# The path budget of a detection

A detection asks four paths and no more. Each adapter sees the answers to these four, and every
other path looks as if the server did not have it. So an engine that shows its fingerprint only on
another path is taken for what a later adapter makes of the four answers.
-/

set_option autoImplicit false

namespace Lss.Analysis.PathBudget

open Lss.Library Lss.Library.Query Lss.Model Lss.Model.Detect

variable (fromStr : String → Option Json)

/-! ## What the adapters look for -/

/-- Whether the adapter of a kind accepts a server that it may ask for any path. -/
def accepts (server : String → Answer) (kind : EngineKind) : Bool :=
  ((adapterDetect fromStr kind).eval server).isSome

/-- Whether the page of metrics holds a text. -/
def metricsHold (server : String → Answer) (part : String) : Bool :=
  (server "/metrics").toOption.any (holds · part)

/-- What a server answers to a path, read as a value. -/
def valueAt (server : String → Answer) (path : String) : Option Json :=
  (server path).toOption.bind fromStr

/-- The version a server tells, when it is a text. -/
def versionText (server : String → Answer) : Option String :=
  (valueAt fromStr server "/api/version").bind fun v => (v.field "version").asStr

/-- SGLang that was started without its metrics. -/
def sglangInfo (server : String → Answer) : Bool :=
  (valueAt fromStr server "/get_server_info").any fun v => (v.get? "max_running_requests").isSome

/-- What TGI tells of itself. -/
def tgiInfo (server : String → Answer) : Bool :=
  (valueAt fromStr server "/info").any fun v => (v.field "router").asStr.any (holds · "text-generation")

/-- What llama.cpp tells of itself. -/
def llamaProps (server : String → Answer) : Bool :=
  (valueAt fromStr server "/props").any fun v => (v.get? "default_generation_settings").isSome

/-- The models as LM Studio lists them. -/
def lmStudioModels (server : String → Answer) : Bool :=
  (valueAt fromStr server "/api/v0/models").any fun v => (v.field "data").asArray.isSome

/-- TGI's own series. -/
def tgiMetrics (server : String → Answer) : Bool :=
  metricsHold server "tgi_request_count" || metricsHold server "tgi_queue_size"

/-- llama.cpp's own marks on the first two paths. -/
def llamaMarks (server : String → Answer) : Bool :=
  (server "/v1/models").toOption.any (holds · "\"llamacpp\"") || metricsHold server "llamacpp:"

variable (server : String → Answer)

@[simp] theorem eval_fetch (path : String) : (fetch path).eval server = server path :=
  eval_once server path

@[simp] theorem eval_json (path : String) :
    (json fromStr path).eval server = valueAt fromStr server path := by
  rw [json, eval_bind, eval_fetch, eval_pure, valueAt]

theorem isSome_ite {α : Type} (c : Prop) [Decidable c] (a : α) (rest : Option α) :
    (if c then some a else rest).isSome = (decide c || rest.isSome) := by
  by_cases h : c <;> simp [h]

theorem accepts_sglang :
    accepts fromStr server .sglang = (metricsHold server "sglang:" || sglangInfo fromStr server) := by
  simp [accepts, adapterDetect, Sglang.detect, eval_ite, isSome_ite, metricsHold, sglangInfo]

theorem accepts_vllm : accepts fromStr server .vllm = metricsHold server "vllm:" := by
  simp [accepts, adapterDetect, Vllm.detect, isSome_ite, metricsHold]

theorem accepts_tgi :
    accepts fromStr server .tgi = (tgiInfo fromStr server || tgiMetrics server) := by
  have either (page : Answer) :
      page.toOption.any (fun t => holds t "tgi_request_count" || holds t "tgi_queue_size") =
        (page.toOption.any (holds · "tgi_request_count") ||
          page.toOption.any (holds · "tgi_queue_size")) := by
    cases page <;> rfl
  simp [accepts, adapterDetect, Tgi.detect, eval_ite, isSome_ite, tgiInfo, tgiMetrics, metricsHold,
    either]

theorem accepts_llamaCpp :
    accepts fromStr server .llamaCpp = (llamaMarks server || llamaProps fromStr server) := by
  simp [accepts, adapterDetect, LlamaCpp.detect, eval_ite, isSome_ite, llamaMarks, llamaProps,
    metricsHold, Bool.or_assoc]

theorem accepts_ollama :
    accepts fromStr server .ollama =
      ((versionText fromStr server).isSome &&
        (valueAt fromStr server "/api/tags").any fun v => (v.field "models").asArray.isSome) := by
  simp only [accepts, adapterDetect, Ollama.detect, eval_bind, eval_json]
  unfold versionText
  cases (valueAt fromStr server "/api/version").bind fun v => (v.field "version").asStr with
  | none => rfl
  | some version => simp [isSome_ite]

theorem accepts_lmStudio : accepts fromStr server .lmStudio = lmStudioModels fromStr server := by
  simp [accepts, adapterDetect, LmStudio.detect, isSome_ite, lmStudioModels]

/-- The adapter that is tried in the end. -/
theorem accepts_openAi :
    accepts fromStr server .openAi =
      ((server "/v1/models").bind (firstModel fromStr)).toOption.isSome := by
  simp [accepts, adapterDetect, OpenAi.detect, openaiModel]

/-- Of the adapters the first that accepts its engine decides. -/
theorem eval_firstAccepting (kinds : List EngineKind) :
    ((firstAccepting fromStr kinds).eval server).map Prod.fst =
      kinds.find? (accepts fromStr server) := by
  induction kinds with
  | nil => rfl
  | cons kind kinds ih =>
      rw [firstAccepting, eval_bind, List.find?_cons]
      cases h : (adapterDetect fromStr kind).eval server with
      | none =>
          have rejected : accepts fromStr server kind = false := by simp [accepts, h]
          rw [rejected]
          exact ih
      | some why =>
          have accepted : accepts fromStr server kind = true := by simp [accepts, h]
          rw [accepted]
          rfl

/-! ## What a detection sees -/

/-- The path that the budget ends with. -/
def lastPath : String :=
  if (versionText fromStr server).isSome then "/api/tags" else "/api/v0/models"

/-- The four paths of a detection. -/
def askedPaths : List String := ["/v1/models", "/metrics", "/api/version", lastPath fromStr server]

/-- A server as a detection sees it. -/
def seen (path : String) : Answer :=
  if path ∈ askedPaths fromStr server then server path else spent

/-- A path that was not asked before is asked as long as the budget lasts. -/
theorem within_fetch {memory : List (String × Answer)} {path : String}
    (fresh : path ∉ memory.map Prod.fst) (left : memory.length < maxDetectPaths) :
    (fetch path).within server maxDetectPaths spent memory =
      (server path, memory ++ [(path, server path)]) := by
  have unknown : remembered memory path = none := by
    simp only [remembered, Option.map_eq_none_iff, List.find?_eq_none, decide_eq_true_eq]
    rintro entry hentry rfl
    exact fresh (List.mem_map_of_mem hentry)
  rw [fetch, within_once, answer, unknown]
  exact if_neg (by omega)

theorem remembered_map (paths : List String) (path : String) :
    (remembered (paths.map fun path => (path, server path)) path).getD spent =
      if path ∈ paths then server path else spent := by
  induction paths with
  | nil => rfl
  | cons p paths ih =>
      unfold remembered at ih ⊢
      rw [List.map_cons, List.find?_cons]
      by_cases h : p = path
      · simp [h]
      · have other : ¬ path = p := fun hp => h hp.symm
        simpa [h, other] using ih

/-- A detection asks its four paths, and the adapters go by these. -/
theorem detectRun_eq :
    detectRun fromStr server =
      ((firstAccepting fromStr adapters).eval (seen fromStr server),
        (askedPaths fromStr server).map fun path => (path, server path)) := by
  have version : (json fromStr "/api/version").within server maxDetectPaths spent
      [("/v1/models", server "/v1/models"), ("/metrics", server "/metrics")] =
        (valueAt fromStr server "/api/version",
          [("/v1/models", server "/v1/models"), ("/metrics", server "/metrics"),
            ("/api/version", server "/api/version")]) := by
    rw [json, within_bind, within_fetch server (by simp) (by simp [maxDetectPaths])]
    rfl
  have last (kinds : Asking (Option (EngineKind × String))) :
      ((fetch (lastPath fromStr server) >>= fun _ => kinds).within server maxDetectPaths spent
        [("/v1/models", server "/v1/models"), ("/metrics", server "/metrics"),
          ("/api/version", server "/api/version")]) =
        (kinds.eval (seen fromStr server),
          (askedPaths fromStr server).map fun path => (path, server path)) := by
    have fresh : lastPath fromStr server ∉ ["/v1/models", "/metrics", "/api/version"] := by
      unfold lastPath
      split <;> simp
    rw [within_bind, within_fetch server (by simpa using fresh) (by simp [maxDetectPaths])]
    change kinds.within server maxDetectPaths spent
      ((askedPaths fromStr server).map fun path => (path, server path)) = _
    rw [within_of_spent (by simp [askedPaths, maxDetectPaths])]
    simp only [remembered_map]
    rfl
  rw [detectRun, detection, within_bind, within_fetch server (by simp) (by simp [maxDetectPaths]),
    within_bind, within_fetch server (by simp) (by simp [maxDetectPaths]), within_bind]
  simp only [List.nil_append, List.singleton_append, version]
  exact last _

/-! ## What the adapters make of it -/

theorem seen_of_mem {path : String} (h : path ∈ askedPaths fromStr server) :
    seen fromStr server path = server path := if_pos h

theorem valueAt_of_notMem {path : String} (h : path ∉ askedPaths fromStr server) :
    valueAt fromStr (seen fromStr server) path = none := by
  rw [valueAt, seen, if_neg h]
  rfl

theorem lastPath_cases :
    lastPath fromStr server = "/api/tags" ∨ lastPath fromStr server = "/api/v0/models" := by
  unfold lastPath
  split <;> simp

/-- A path that only one adapter tries is not asked. -/
theorem notMem_askedPaths {path : String}
    (other : path ∉ ["/v1/models", "/metrics", "/api/version", "/api/tags", "/api/v0/models"]) :
    path ∉ askedPaths fromStr server := by
  rcases lastPath_cases fromStr server with h | h <;> simp_all [askedPaths]

theorem metricsHold_seen (part : String) :
    metricsHold (seen fromStr server) part = metricsHold server part := by
  rw [metricsHold, metricsHold, seen_of_mem fromStr server (by simp [askedPaths])]

theorem tgiMetrics_seen : tgiMetrics (seen fromStr server) = tgiMetrics server := by
  rw [tgiMetrics, tgiMetrics, metricsHold_seen, metricsHold_seen]

theorem llamaMarks_seen : llamaMarks (seen fromStr server) = llamaMarks server := by
  rw [llamaMarks, llamaMarks, metricsHold_seen, seen_of_mem fromStr server (by simp [askedPaths])]

theorem versionText_seen :
    versionText fromStr (seen fromStr server) = versionText fromStr server := by
  rw [versionText, versionText, valueAt, valueAt,
    seen_of_mem fromStr server (by simp [askedPaths])]

theorem sglangInfo_seen : sglangInfo fromStr (seen fromStr server) = false := by
  rw [sglangInfo, valueAt_of_notMem _ _ (notMem_askedPaths _ _ (by simp))]
  rfl

theorem tgiInfo_seen : tgiInfo fromStr (seen fromStr server) = false := by
  rw [tgiInfo, valueAt_of_notMem _ _ (notMem_askedPaths _ _ (by simp))]
  rfl

theorem llamaProps_seen : llamaProps fromStr (seen fromStr server) = false := by
  rw [llamaProps, valueAt_of_notMem _ _ (notMem_askedPaths _ _ (by simp))]
  rfl

/-- Ollama is looked for on the last path where it can be there. -/
theorem accepts_ollama_seen :
    accepts fromStr (seen fromStr server) .ollama = accepts fromStr server .ollama := by
  rw [accepts_ollama, accepts_ollama, versionText_seen]
  cases told : versionText fromStr server with
  | none => rfl
  | some version =>
      have asked : "/api/tags" ∈ askedPaths fromStr server := by
        simp [askedPaths, lastPath, told]
      rw [valueAt, valueAt, seen_of_mem _ _ asked]

/-- LM Studio is not looked for on a server that tells a version. -/
theorem lmStudioModels_seen :
    lmStudioModels fromStr (seen fromStr server) =
      (!(versionText fromStr server).isSome && lmStudioModels fromStr server) := by
  cases told : versionText fromStr server with
  | none =>
      have asked : "/api/v0/models" ∈ askedPaths fromStr server := by
        simp [askedPaths, lastPath, told]
      rw [lmStudioModels, lmStudioModels, valueAt, valueAt, seen_of_mem _ _ asked]
      rfl
  | some version =>
      have unasked : "/api/v0/models" ∉ askedPaths fromStr server := by
        simp [askedPaths, lastPath, told]
      rw [lmStudioModels, valueAt_of_notMem _ _ unasked]
      rfl

theorem accepts_openAi_seen :
    accepts fromStr (seen fromStr server) .openAi = accepts fromStr server .openAi := by
  rw [accepts_openAi, accepts_openAi, seen_of_mem _ _ (by simp [askedPaths])]

/-- What an adapter accepts by the four paths it accepts by all of them. -/
theorem accepts_of_seen (kind : EngineKind) (h : accepts fromStr (seen fromStr server) kind) :
    accepts fromStr server kind := by
  cases kind with
  | sglang =>
      rw [accepts_sglang, metricsHold_seen, sglangInfo_seen, Bool.or_false] at h
      rw [accepts_sglang, h, Bool.true_or]
  | vllm =>
      rw [accepts_vllm, metricsHold_seen] at h
      rw [accepts_vllm, h]
  | tgi =>
      rw [accepts_tgi, tgiMetrics_seen, tgiInfo_seen, Bool.false_or] at h
      rw [accepts_tgi, h, Bool.or_true]
  | llamaCpp =>
      rw [accepts_llamaCpp, llamaMarks_seen, llamaProps_seen, Bool.or_false] at h
      rw [accepts_llamaCpp, h, Bool.true_or]
  | ollama => rwa [accepts_ollama_seen] at h
  | lmStudio =>
      rw [accepts_lmStudio, lmStudioModels_seen, Bool.and_eq_true] at h
      rw [accepts_lmStudio, h.2]
  | openAi => rwa [accepts_openAi_seen] at h

/-! ## When the budget makes no difference -/

/-- Two searches of which one accepts less find the same where it accepts what the other finds. -/
theorem find?_eq_iff {α : Type} {p q : α → Bool} (less : ∀ a, q a = true → p a = true)
    (l : List α) : l.find? q = l.find? p ↔ ∀ a, l.find? p = some a → q a = true := by
  constructor
  · intro same a ha
    exact List.find?_some (same.trans ha)
  · intro kept
    induction l with
    | nil => rfl
    | cons b l ih =>
        rw [List.find?_cons, List.find?_cons]
        cases hp : p b with
        | true =>
            have hq : q b = true := kept b (by rw [List.find?_cons, hp])
            rw [hq]
        | false =>
            have hq : q b = false := by
              by_contra hq
              rw [less b (by simpa using hq)] at hp
              cases hp
            rw [hq]
            apply ih
            intro a ha
            exact kept a (by rw [List.find?_cons, hp]; exact ha)

/-- What is looked for before the adapter that is found accepts nothing. -/
theorem not_before_find {p : EngineKind → Bool} {kind k : EngineKind}
    (found : adapters.find? p = some kind) (hk : k ∈ adapters.takeWhile fun a => a ≠ kind) :
    p k = false := by
  obtain ⟨-, before, after, split, rejected⟩ := List.find?_eq_some_iff_append.mp found
  have fresh : kind ∉ before := by
    have nodup : adapters.Nodup := by decide
    rw [split] at nodup
    intro hmem
    exact (List.nodup_append.mp nodup).2.2 kind hmem kind List.mem_cons_self rfl
  rw [split, List.takeWhile_append_of_pos (by
    intro a ha
    simpa using fun heq : a = kind => fresh (heq ▸ ha))] at hk
  have hbefore : k ∈ before := by simpa using hk
  simpa using rejected k hbefore

/-- An engine that shows itself on another path shows itself on the four paths as well, or an
engine that is looked for before it does. -/
structure FallbacksCovered : Prop where
  sglang : sglangInfo fromStr server → metricsHold server "sglang:"
  tgi : tgiInfo fromStr server →
    metricsHold server "sglang:" ∨ metricsHold server "vllm:" ∨ tgiMetrics server
  llamaCpp : llamaProps fromStr server →
    metricsHold server "sglang:" ∨ metricsHold server "vllm:" ∨ tgiMetrics server ∨
      llamaMarks server
  lmStudio : (versionText fromStr server).isSome → lmStudioModels fromStr server →
    metricsHold server "sglang:" ∨ metricsHold server "vllm:" ∨ tgiMetrics server ∨
      llamaMarks server ∨ accepts fromStr server .ollama

/-- What a detection must do: four requests at most, none twice, and the kind of the first adapter
that accepts the server when it may ask any path. -/
structure Faithful : Prop where
  once : ((detectRun fromStr server).2.map Prod.fst).Nodup
  few : (detectRun fromStr server).2.length ≤ maxDetectPaths
  kind : (detectRun fromStr server).1.map Prod.fst = adapters.find? (accepts fromStr server)

/-- The budget makes no difference exactly where every engine that shows itself elsewhere shows
itself on the four paths. -/
theorem faithful_iff : Faithful fromStr server ↔ FallbacksCovered fromStr server := by
  have thrifty : Thrifty maxDetectPaths (detectRun fromStr server).2 := thrifty_nil.within _
  have kinds : (detectRun fromStr server).1.map Prod.fst =
      adapters.find? (accepts fromStr (seen fromStr server)) := by
    rw [detectRun_eq]
    exact eval_firstAccepting fromStr _ _
  have same := find?_eq_iff (accepts_of_seen fromStr server) adapters
  constructor
  · intro faithful
    have kept := same.mp (kinds.symm.trans faithful.kind)
    simp only [adapters, List.find?_cons, accepts_sglang, accepts_vllm, accepts_tgi,
      accepts_llamaCpp, accepts_lmStudio] at kept
    have sglang := kept .sglang
    have tgi := kept .tgi
    have llamaCpp := kept .llamaCpp
    have lmStudio := kept .lmStudio
    rw [accepts_sglang, metricsHold_seen, sglangInfo_seen] at sglang
    rw [accepts_tgi, tgiMetrics_seen, tgiInfo_seen] at tgi
    rw [accepts_llamaCpp, llamaMarks_seen, llamaProps_seen] at llamaCpp
    rw [accepts_lmStudio, lmStudioModels_seen] at lmStudio
    clear kept
    constructor <;> grind
  · intro covered
    refine ⟨thrifty.once, thrifty.few, kinds.trans (same.mpr ?_)⟩
    intro kind found
    have accepted := List.find?_some found
    have passed {k : EngineKind} := not_before_find found (k := k)
    cases kind with
    | sglang =>
        rw [accepts_sglang, Bool.or_eq_true] at accepted
        rw [accepts_sglang, metricsHold_seen, accepted.elim id covered.sglang, Bool.true_or]
    | vllm => rwa [accepts_vllm, metricsHold_seen, ← accepts_vllm fromStr]
    | tgi =>
        have noSglang := passed (k := .sglang) (by decide)
        have noVllm := passed (k := .vllm) (by decide)
        rw [accepts_sglang, Bool.or_eq_false_iff] at noSglang
        rw [accepts_vllm] at noVllm
        rw [accepts_tgi, Bool.or_eq_true] at accepted
        have shown : tgiMetrics server = true := by
          rcases accepted with info | metrics
          · simpa [noSglang.1, noVllm] using covered.tgi info
          · exact metrics
        rw [accepts_tgi, tgiMetrics_seen, shown, Bool.or_true]
    | llamaCpp =>
        have noSglang := passed (k := .sglang) (by decide)
        have noVllm := passed (k := .vllm) (by decide)
        have noTgi := passed (k := .tgi) (by decide)
        rw [accepts_sglang, Bool.or_eq_false_iff] at noSglang
        rw [accepts_vllm] at noVllm
        rw [accepts_tgi, Bool.or_eq_false_iff] at noTgi
        rw [accepts_llamaCpp, Bool.or_eq_true] at accepted
        have shown : llamaMarks server = true := by
          rcases accepted with marks | props
          · exact marks
          · simpa [noSglang.1, noVllm, noTgi.2] using covered.llamaCpp props
        rw [accepts_llamaCpp, llamaMarks_seen, shown, Bool.true_or]
    | ollama => rwa [accepts_ollama_seen]
    | lmStudio =>
        have noSglang := passed (k := .sglang) (by decide)
        have noVllm := passed (k := .vllm) (by decide)
        have noTgi := passed (k := .tgi) (by decide)
        have noLlama := passed (k := .llamaCpp) (by decide)
        have noOllama := passed (k := .ollama) (by decide)
        rw [accepts_sglang, Bool.or_eq_false_iff] at noSglang
        rw [accepts_vllm] at noVllm
        rw [accepts_tgi, Bool.or_eq_false_iff] at noTgi
        rw [accepts_llamaCpp, Bool.or_eq_false_iff] at noLlama
        rw [accepts_lmStudio] at accepted
        have untold : (versionText fromStr server).isSome = false := by
          by_contra told
          simpa [noSglang.1, noVllm, noTgi.2, noLlama.1, noOllama] using
            covered.lmStudio (eq_true_of_ne_false told) accepted
        rw [accepts_lmStudio, lmStudioModels_seen, untold, accepted]
        rfl
    | openAi => rwa [accepts_openAi_seen]

/-! ## An engine without its metrics -/

def modelsText : String := "\x7b\"data\":[\x7b\"id\":\"glm\"\x7d]\x7d"

def serverInfoText : String := "\x7b\"max_running_requests\":48\x7d"

/-- Two texts and the values they stand for. -/
def readTwo (text : String) : Option Json :=
  if text = modelsText then some (.obj [("data", .arr [.obj [("id", .str "glm")]])])
  else if text = serverInfoText then some (.obj [("max_running_requests", .int 48)])
  else none

/-- SGLang as it is started without its metrics. -/
def quietSglang (path : String) : Answer :=
  if path = "/v1/models" then .ok modelsText
  else if path = "/get_server_info" then .ok serverInfoText
  else .error "HTTP 404"

/-- Such an engine is taken for one that is not known. -/
theorem quiet_sglang_unknown : ¬ ∀ (fromStr : String → Option Json) (server : String → Answer),
    Faithful fromStr server := by
  intro claim
  have kind := (claim readTwo quietSglang).kind
  have taken : (detectRun readTwo quietSglang).1.map Prod.fst = some .openAi := by decide +kernel
  have accepted : adapters.find? (accepts readTwo quietSglang) = some .sglang := by decide +kernel
  rw [taken, accepted] at kind
  cases kind

end Lss.Analysis.PathBudget
