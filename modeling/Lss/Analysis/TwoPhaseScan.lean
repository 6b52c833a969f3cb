import Mathlib.Data.List.ReduceOption
import Lss.Model.MachineScan

/-!
# The two phases of a scan

A port that is not one of the usual ones is passed over when it serves the model of an engine that
was already found. A proxy in front of that engine would have been dropped from the list anyway; a
second engine with the same model would not.
-/

set_option autoImplicit false

namespace Lss.Analysis.TwoPhaseScan

open Lss.Model Lss.Model.Detect

variable {fromStr : String → Option Json} {servers : ℕ → String → Answer}

/-- A server that lss has no adapter for serves the first model of its list. -/
theorem model_of_openAi {port : ℕ} {f : Found} (h : detectOne fromStr servers port = some f)
    (plain : f.kind = .openAi) :
    f.identity.model = ((openaiModel fromStr).eval (servers port)).toOption := by
  obtain ⟨⟨kind, why⟩, -, rfl⟩ := Option.map_eq_some_iff.mp h
  obtain rfl : kind = .openAi := plain
  rfl

/-! ## What is passed over -/

variable (fromStr servers)

/-- The models of the engines that are found on some ports. -/
def knownModels (ports : List ℕ) : List (Option String) :=
  nativeModels (ports.filterMap (detectOne fromStr servers))

/-- A port is passed over when the model it names is one of some. -/
def PassedOver (known : List (Option String)) (port : ℕ) : Prop :=
  ∃ m, (openaiModel fromStr).eval (servers port) = .ok m ∧ some m ∈ known

/-- No engine that lss knows by name is passed over. -/
def OnlyProxiesPassed (primary secondary : List ℕ) : Prop :=
  ∀ port ∈ secondary, PassedOver fromStr servers (knownModels fromStr servers primary) port →
    ∀ f, detectOne fromStr servers port = some f → f.kind = .openAi

variable {fromStr servers}

theorem detectSecondary_of_passed {known : List (Option String)} {port : ℕ}
    (h : PassedOver fromStr servers known port) :
    detectSecondary fromStr servers known.reduceOption port = none := by
  obtain ⟨m, hm, hknown⟩ := h
  have listed : m ∈ known.reduceOption := List.reduceOption_mem_iff.mpr hknown
  simp [detectSecondary, hm, listed]

theorem detectSecondary_of_not_passed {known : List (Option String)} {port : ℕ}
    (h : ¬ PassedOver fromStr servers known port) :
    detectSecondary fromStr servers known.reduceOption port = detectOne fromStr servers port := by
  unfold detectSecondary
  cases hm : (openaiModel fromStr).eval (servers port) with
  | error e => rfl
  | ok m =>
      have unlisted : ¬ m ∈ known.reduceOption := by
        rw [List.reduceOption_mem_iff]
        exact fun hknown => h ⟨m, hm, hknown⟩
      simp [unlisted]

/-- Engines that are known are kept in both lists, or in none. -/
theorem natives_eq {known : List (Option String)} {ports : List ℕ}
    (proxies : ∀ port ∈ ports, PassedOver fromStr servers known port →
      ∀ f, detectOne fromStr servers port = some f → f.kind = .openAi)
    (keep : Found → Bool)
    (dropped : ∀ port ∈ ports, PassedOver fromStr servers known port →
      ∀ f, detectOne fromStr servers port = some f → f.kind = .openAi → keep f = false) :
    (ports.filterMap (detectSecondary fromStr servers known.reduceOption)).filter keep =
      (ports.filterMap (detectOne fromStr servers)).filter keep := by
  induction ports with
  | nil => rfl
  | cons port ports ih =>
      have rest := ih (fun p hp => proxies p (List.mem_cons_of_mem _ hp))
        (fun p hp => dropped p (List.mem_cons_of_mem _ hp))
      rw [List.filterMap_cons, List.filterMap_cons]
      by_cases passed : PassedOver fromStr servers known port
      · rw [detectSecondary_of_passed passed]
        cases hf : detectOne fromStr servers port with
        | none => exact rest
        | some f =>
            have plain := proxies port List.mem_cons_self passed f hf
            have gone := dropped port List.mem_cons_self passed f hf plain
            simp [gone, rest]
      · rw [detectSecondary_of_not_passed passed]
        cases detectOne fromStr servers port with
        | none => exact rest
        | some f =>
            simp only [List.filter_cons, rest]

/-- How many engines that lss knows by name are in a list. -/
def natives (found : List Found) : ℕ := found.countP fun f => f.kind ≠ .openAi

theorem natives_append (l m : List Found) : natives (l ++ m) = natives l + natives m :=
  List.countP_append

/-- What is dropped from the list is no engine that lss knows. -/
theorem natives_rank (found : List Found) : natives (rank found) = natives found := by
  have sorted := List.perm_insertionSort Found.before
    (found.filter fun f => f.kind ≠ .openAi || !(nativeModels found).contains f.identity.model)
  unfold natives rank
  rw [sorted.countP_eq, List.countP_filter]
  refine List.countP_congr fun f _ => ?_
  simp only [Bool.and_eq_true, Bool.or_eq_true]
  tauto

variable (fromStr servers)

/-- No more engines are found where ports are passed over, and fewer where one of them has an engine
on it. -/
theorem natives_secondary_le (known : List (Option String)) (ports : List ℕ) :
    natives (ports.filterMap (detectSecondary fromStr servers known.reduceOption)) ≤
      natives (ports.filterMap (detectOne fromStr servers)) := by
  induction ports with
  | nil => simp
  | cons port ports ih =>
      rw [List.filterMap_cons, List.filterMap_cons]
      by_cases passed : PassedOver fromStr servers known port
      · rw [detectSecondary_of_passed passed]
        cases detectOne fromStr servers port with
        | none => exact ih
        | some f =>
            refine ih.trans ?_
            simp only [natives, List.countP_cons]
            omega
      · rw [detectSecondary_of_not_passed passed]
        cases detectOne fromStr servers port with
        | none => exact ih
        | some f =>
            simp only [natives, List.countP_cons] at ih ⊢
            omega

variable {fromStr servers}

theorem natives_secondary_lt {known : List (Option String)} {ports : List ℕ} {port : ℕ} {f : Found}
    (hport : port ∈ ports) (passed : PassedOver fromStr servers known port)
    (hf : detectOne fromStr servers port = some f) (native : f.kind ≠ .openAi) :
    natives (ports.filterMap (detectSecondary fromStr servers known.reduceOption)) <
      natives (ports.filterMap (detectOne fromStr servers)) := by
  obtain ⟨before, after, rfl⟩ := List.append_of_mem hport
  have hbefore := natives_secondary_le fromStr servers known before
  have hafter := natives_secondary_le fromStr servers known after
  have here : natives (f :: after.filterMap (detectOne fromStr servers)) =
      natives (after.filterMap (detectOne fromStr servers)) + 1 := by
    simp [natives, native]
  rw [List.filterMap_append, List.filterMap_append, natives_append, natives_append,
    List.filterMap_cons, List.filterMap_cons, detectSecondary_of_passed passed, hf]
  simp only [here]
  omega

/-- The scan in two phases finds what the plain one does exactly where the ports it passes over
have no engine on them that lss knows by name. -/
theorem scanPorts_eq_iff (fromStr : String → Option Json) (servers : ℕ → String → Answer)
    (primary secondary : List ℕ) :
    scanPorts fromStr servers primary secondary =
        rank ((primary ++ secondary).filterMap (detectOne fromStr servers)) ↔
      OnlyProxiesPassed fromStr servers primary secondary := by
  constructor
  · intro same port hport passed f hf
    by_contra native
    have fewer := natives_secondary_lt hport passed hf native
    have count := congrArg natives same
    rw [scanPorts, natives_rank, natives_rank, List.filterMap_append, natives_append,
      natives_append, ← knownModels] at count
    omega
  · intro proxies
    have engines := natives_eq proxies (fun f => f.kind ≠ .openAi) (by
      intro port _ _ f _ plain
      simp [plain])
    have models : nativeModels (primary.filterMap (detectOne fromStr servers) ++
          secondary.filterMap (detectSecondary fromStr servers
            (knownModels fromStr servers primary).reduceOption)) =
        nativeModels (primary.filterMap (detectOne fromStr servers) ++
          secondary.filterMap (detectOne fromStr servers)) := by
      unfold nativeModels
      rw [List.filter_append, List.filter_append, engines]
    have kept := natives_eq proxies (fun f => f.kind ≠ .openAi ||
      !(nativeModels (primary.filterMap (detectOne fromStr servers) ++
        secondary.filterMap (detectOne fromStr servers))).contains f.identity.model) (by
      rintro port - ⟨m, hm, hknown⟩ f hf plain
      have model := model_of_openAi hf plain
      rw [hm] at model
      have listed : f.identity.model ∈ nativeModels (primary.filterMap (detectOne fromStr servers) ++
          secondary.filterMap (detectOne fromStr servers)) := by
        rw [model, nativeModels, List.filter_append, List.map_append]
        exact List.mem_append_left _ hknown
      rw [List.contains_iff_mem.mpr listed, plain]
      rfl)
    rw [scanPorts, rank, rank, ← knownModels, models, List.filterMap_append, List.filter_append,
      List.filter_append, kept]

/-! ## Two engines with one model -/

def listText : String := "\x7b\"data\":[\x7b\"id\":\"glm\"\x7d]\x7d"

/-- The list of models, and the value it stands for. -/
def readList (text : String) : Option Json :=
  if text = listText then some (.obj [("data", .arr [.obj [("id", .str "glm")]])]) else none

/-- SGLang on the two ports, with the same model on both. -/
def twoSglangs (port : ℕ) (path : String) : Answer :=
  if port = 30000 ∨ port = 30001 then
    if path = "/v1/models" then .ok listText
    else if path = "/metrics" then .ok "sglang:num_running_reqs 0"
    else .error "HTTP 404"
  else .error "connection refused"

/-- The second engine is not found. -/
theorem second_sglang_lost : ¬ ∀ (fromStr : String → Option Json) (servers : ℕ → String → Answer)
    (primary secondary : List ℕ), scanPorts fromStr servers primary secondary =
      rank ((primary ++ secondary).filterMap (detectOne fromStr servers)) := by
  intro claim
  have same := claim readList twoSglangs [30000] [30001]
  have count := congrArg natives same
  rw [scanPorts, natives_rank, natives_rank] at count
  revert count
  decide +kernel

end Lss.Analysis.TwoPhaseScan
