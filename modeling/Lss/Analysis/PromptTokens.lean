import Lss.Library.Steps
import Lss.Model.Engines
import Mathlib.Tactic.Linarith

/-!
# Prompt tokens that were read

An engine without a count of its own gives the prompt tokens that were really read as the
difference of two counters. The difference is kept from falling below zero twice, once in the
adapter and once in each step, and what a step hides is never given back: a difference that falls
and rises again is counted twice.
-/

set_option autoImplicit false

namespace Lss.Analysis.PromptTokens

open Lss.Model
open Lss.Library.Steps

/-! ## A run of scrapes -/

/-- The prompt counter on an engine's page of metrics, as the engine publishes it. -/
def rawPrompt (kind : EngineKind) (p : Pages) : Option ℚ :=
  p.metrics.bind fun series =>
    match kind with
    | .vllm => familySum series "vllm:prompt_tokens_total"
    | .llamaCpp => familySum series "llamacpp:prompt_tokens_total"
    | _ => none

/-- The counter of cached tokens on the page. -/
def rawCached (kind : EngineKind) (p : Pages) : Option ℚ :=
  p.metrics.bind fun series =>
    match kind with
    | .vllm => (familySum series "vllm:prompt_tokens_cached_total").or
        (firstOf series ["vllm:prefix_cache_hits_total", "vllm:gpu_prefix_cache_hits_total"])
    | .llamaCpp => familySum series "llamacpp:prompt_tokens_cached_total"
    | _ => none

/-- The page says how many prompt tokens were not cached. The prompt counter of llama.cpp leaves
the cached ones out. -/
def Published (kind : EngineKind) (p : Pages) : Prop :=
  match kind with
  | .vllm => (rawPrompt .vllm p).isSome ∧ (rawCached .vllm p).isSome
  | .llamaCpp => (rawPrompt .llamaCpp p).isSome
  | _ => False

instance (kind : EngineKind) (p : Pages) : Decidable (Published kind p) := by
  unfold Published
  cases kind <;> infer_instance

/-- Prompt tokens that were not cached. -/
def uncached (m : ServeMetrics) : ℚ := m.promptTokensTotal - m.cachedTokensTotal

/-- The sum of what the steps of a run count as read. -/
def counted (ms : List ServeMetrics) : ℚ :=
  ((steps ms).map fun p => p.2.computedPromptTokensSince p.1).sum

/-- A step hides a fall of the adapter's difference, or it counts a rise while the adapter's
difference stays at zero. -/
def GivesBack (before m : ServeMetrics) : Prop :=
  m.prefillComputeTokensTotal < before.prefillComputeTokensTotal ∨
    (m.prefillComputeTokensTotal = 0 ∧ before.prefillComputeTokensTotal = 0 ∧
      (0 < m.cachedTokensTotal ∨ 0 < before.cachedTokensTotal) ∧
      grown m.cachedTokensTotal before.cachedTokensTotal <
        grown m.promptTokensTotal before.promptTokensTotal)

instance (before m : ServeMetrics) : Decidable (GivesBack before m) := by
  unfold GivesBack
  infer_instance

/-! ## With an adapter's difference -/

/-- What a step counts over the growth of the adapter's difference. -/
def surplus (p : ServeMetrics × ServeMetrics) : ℚ :=
  p.2.computedPromptTokensSince p.1 -
    (p.2.prefillComputeTokensTotal - p.1.prefillComputeTokensTotal)

theorem surplus_nonneg {p : ServeMetrics × ServeMetrics} (same : p.2.comparable p.1 = true)
    (before : 0 ≤ p.1.prefillComputeTokensTotal) : 0 ≤ surplus p := by
  unfold surplus ServeMetrics.computedPromptTokensSince
  rw [if_neg (by rw [same]; decide)]
  split
  · unfold grown
    split <;> linarith
  · rename_i none_read
    push Not at none_read
    split
    · have := le_max_right (grown p.2.promptTokensTotal p.1.promptTokensTotal -
        grown p.2.cachedTokensTotal p.1.cachedTokensTotal) 0
      linarith [none_read.1, none_read.2]
    · linarith [none_read.1, none_read.2]

theorem surplus_eq_zero_iff {p : ServeMetrics × ServeMetrics} (same : p.2.comparable p.1 = true)
    (before : 0 ≤ p.1.prefillComputeTokensTotal) (now : 0 ≤ p.2.prefillComputeTokensTotal) :
    surplus p = 0 ↔ ¬GivesBack p.1 p.2 := by
  unfold surplus ServeMetrics.computedPromptTokensSince
  rw [if_neg (by rw [same]; decide)]
  by_cases read : 0 < p.2.prefillComputeTokensTotal ∨ 0 < p.1.prefillComputeTokensTotal
  · have gives : GivesBack p.1 p.2 ↔
        p.2.prefillComputeTokensTotal < p.1.prefillComputeTokensTotal := by
      constructor
      · rintro (fell | ⟨h₁, h₂, _⟩)
        · exact fell
        · rw [h₁, h₂] at read
          exact absurd read (by simp)
      · exact Or.inl
    rw [if_pos read, gives]
    unfold grown
    split
    · rename_i le
      constructor
      · exact fun _ => not_lt.mpr le
      · exact fun _ => sub_self _
    · rename_i fell
      push Not at fell
      constructor
      · intro h
        linarith
      · exact fun h => absurd fell h
  · push Not at read
    have zero : p.2.prefillComputeTokensTotal = 0 := le_antisymm read.1 now
    have zero' : p.1.prefillComputeTokensTotal = 0 := le_antisymm read.2 before
    have gives : GivesBack p.1 p.2 ↔
        (0 < p.2.cachedTokensTotal ∨ 0 < p.1.cachedTokensTotal) ∧
          grown p.2.cachedTokensTotal p.1.cachedTokensTotal <
            grown p.2.promptTokensTotal p.1.promptTokensTotal := by
      constructor
      · rintro (fell | ⟨_, _, rose⟩)
        · linarith
        · exact rose
      · exact fun rose => Or.inr ⟨zero, zero', rose⟩
    rw [if_neg (by rw [zero, zero']; simp), gives, zero, zero', sub_self, sub_zero]
    split
    · rename_i hits
      constructor
      · intro h rose
        have := le_max_left (grown p.2.promptTokensTotal p.1.promptTokensTotal -
          grown p.2.cachedTokensTotal p.1.cachedTokensTotal) 0
        linarith [rose.2]
      · intro h
        have le : grown p.2.promptTokensTotal p.1.promptTokensTotal ≤
            grown p.2.cachedTokensTotal p.1.cachedTokensTotal :=
          not_lt.mp fun lt => h ⟨hits, lt⟩
        exact max_eq_right (by linarith)
    · rename_i hits
      constructor
      · exact fun _ rose => hits rose.1
      · exact fun _ => rfl

/-- What a run counts is the growth of the adapter's difference and the surplus of its steps. -/
theorem counted_eq (m : ServeMetrics) (ms : List ServeMetrics) :
    counted (m :: ms) = ((steps (m :: ms)).map surplus).sum +
      (((m :: ms).getLast (List.cons_ne_nil m ms)).prefillComputeTokensTotal -
        m.prefillComputeTokensTotal) := by
  rw [← sum_steps_sub ServeMetrics.prefillComputeTokensTotal m ms, ← List.sum_map_add]
  unfold counted
  congr 1
  apply List.map_congr_left
  intro p _
  exact (sub_add_cancel _ _).symm

/-- How the prompt tokens that were not cached grew over a run. -/
def grew (ms : List ServeMetrics) : ℚ :=
  ms.getLast?.elim 0 uncached - ms.head?.elim 0 uncached

theorem grew_eq (ms : List ServeMetrics) :
    grew ms = ((steps ms).map fun p => uncached p.2 - uncached p.1).sum := by
  cases ms with
  | nil => exact sub_self (0 : ℚ)
  | cons m ms =>
      rw [sum_steps_sub]
      unfold grew
      rw [List.getLast?_eq_getLast_of_ne_nil (List.cons_ne_nil m ms)]
      rfl

/-- Records of one adapter, whose difference is that of the counters in the first and the last. -/
structure Adapted (ms : List ServeMetrics) : Prop where
  version : ∀ m ∈ ms, m.countersV = countersV
  nonneg : ∀ m ∈ ms, 0 ≤ m.prefillComputeTokensTotal
  first : ∀ m ∈ ms.head?, m.prefillComputeTokensTotal = uncached m
  last : ∀ m ∈ ms.getLast?, m.prefillComputeTokensTotal = uncached m

/-- The run counts no more than was there to read exactly when no step gives back what an earlier
one hid. -/
theorem Adapted.counted_le_iff {ms : List ServeMetrics} (h : Adapted ms) :
    counted ms ≤ grew ms ↔ ∀ p ∈ steps ms, ¬GivesBack p.1 p.2 := by
  cases ms with
  | nil =>
      constructor
      · exact fun _ p hp => nomatch hp
      · intro _
        unfold counted grew
        exact (sub_self (0 : ℚ)).ge
  | cons m ms =>
      have same : ∀ p ∈ steps (m :: ms), p.2.comparable p.1 = true := by
        intro p hp
        obtain ⟨h₁, h₂⟩ := mem_of_mem_steps hp
        unfold ServeMetrics.comparable
        rw [h.version _ h₁, h.version _ h₂]
        rfl
      have before : ∀ p ∈ steps (m :: ms), 0 ≤ p.1.prefillComputeTokensTotal :=
        fun p hp => h.nonneg _ (mem_of_mem_steps hp).1
      have now : ∀ p ∈ steps (m :: ms), 0 ≤ p.2.prefillComputeTokensTotal :=
        fun p hp => h.nonneg _ (mem_of_mem_steps hp).2
      have nonneg : ∀ p ∈ steps (m :: ms), 0 ≤ surplus p :=
        fun p hp => surplus_nonneg (same p hp) (before p hp)
      have sum_nonneg : 0 ≤ ((steps (m :: ms)).map surplus).sum :=
        List.sum_nonneg (List.forall_mem_map.mpr nonneg)
      have growth : grew (m :: ms) =
          ((m :: ms).getLast (List.cons_ne_nil m ms)).prefillComputeTokensTotal -
            m.prefillComputeTokensTotal := by
        have last := h.last _ (List.getLast?_eq_getLast_of_ne_nil (List.cons_ne_nil m ms))
        have first := h.first m rfl
        unfold grew
        rw [List.getLast?_eq_getLast_of_ne_nil (List.cons_ne_nil m ms), last, first]
        rfl
      have le_iff : counted (m :: ms) ≤ grew (m :: ms) ↔
          ((steps (m :: ms)).map surplus).sum = 0 := by
        rw [counted_eq, growth]
        constructor
        · intro le
          linarith
        · intro zero
          linarith
      rw [le_iff, sum_eq_zero_iff nonneg]
      apply forall_congr'
      intro p
      apply imp_congr_right
      intro hp
      exact surplus_eq_zero_iff (same p hp) (before p hp) (now p hp)

/-! ## The adapters -/

variable (parse : String → Option ℚ) (publicPriority trustedPriority : String)

/-- What the collector keeps of a scrape. -/
def reading (kind : EngineKind) (p : Pages) : Option ServeMetrics :=
  (scrape parse publicPriority trustedPriority p kind).serveMetrics

/-- The records of a run of scrapes. -/
def readings (kind : EngineKind) (run : List Pages) : List ServeMetrics :=
  run.filterMap (reading parse publicPriority trustedPriority kind)

theorem reading_vllm (p : Pages) :
    reading parse publicPriority trustedPriority .vllm p =
      p.metrics.map fun s => (Vllm.parseMetrics parse s).toServeMetrics := by
  unfold reading scrape Vllm.scrape Scrape.serveMetrics
  rw [Option.none_or, Option.map_map]
  rfl

theorem prefill_vllm (series : List (Prom.Series ℚ)) (p : Pages) (hp : p.metrics = some series) :
    (Vllm.parseMetrics parse series).toServeMetrics.prefillComputeTokensTotal =
      ((rawPrompt .vllm p).bind fun a => (rawCached .vllm p).map fun c => max (a - c) 0).getD 0 := by
  unfold rawPrompt rawCached
  rw [hp]
  rfl

/-- The adapter of vLLM gives the difference of its two counters, not below zero. -/
theorem vllm_read {p : Pages} {m : ServeMetrics}
    (hm : reading parse publicPriority trustedPriority .vllm p = some m) :
    m.countersV = countersV ∧ 0 ≤ m.prefillComputeTokensTotal ∧
      (Published .vllm p → 0 ≤ uncached m → m.prefillComputeTokensTotal = uncached m) := by
  rw [reading_vllm, Option.map_eq_some_iff] at hm
  obtain ⟨series, hs, rfl⟩ := hm
  have prompt : (Vllm.parseMetrics parse series).toServeMetrics.promptTokensTotal =
      (rawPrompt .vllm p).getD 0 := by
    unfold rawPrompt
    rw [hs]
    rfl
  have cached : (Vllm.parseMetrics parse series).toServeMetrics.cachedTokensTotal =
      (rawCached .vllm p).getD 0 := by
    unfold rawCached
    rw [hs]
    rfl
  refine ⟨rfl, ?_, ?_⟩
  · rw [prefill_vllm parse series p hs]
    cases rawPrompt .vllm p with
    | none => exact le_refl 0
    | some a =>
        cases rawCached .vllm p with
        | none => exact le_refl 0
        | some c => exact le_max_right (a - c) 0
  · rintro ⟨hprompt, hcached⟩ ahead
    unfold uncached at ahead ⊢
    obtain ⟨a, ha⟩ := Option.isSome_iff_exists.mp hprompt
    obtain ⟨c, hc⟩ := Option.isSome_iff_exists.mp hcached
    rw [prompt, cached, ha, hc] at ahead ⊢
    rw [prefill_vllm parse series p hs, ha, hc]
    exact max_eq_left ahead

/-- The adapter of llama.cpp gives the engine's prompt counter. -/
theorem llamaCpp_read {p : Pages} {m : ServeMetrics}
    (hm : reading parse publicPriority trustedPriority .llamaCpp p = some m) :
    m.countersV = countersV ∧
      m.prefillComputeTokensTotal = (rawPrompt .llamaCpp p).getD 0 ∧
      m.cachedTokensTotal = (rawCached .llamaCpp p).getD 0 ∧
      (Published .llamaCpp p → m.prefillComputeTokensTotal = uncached m) := by
  -- slots and the context length come from other pages, and change none of the counters
  have counters : ∃ e : EngineMetrics, e.toServeMetrics.promptTokensTotal = m.promptTokensTotal ∧
      e.toServeMetrics.cachedTokensTotal = m.cachedTokensTotal ∧
      e.toServeMetrics.prefillComputeTokensTotal = m.prefillComputeTokensTotal ∧
      m.countersV = countersV ∧ e = (p.metrics.map LlamaCpp.parseMetrics).getD {} := by
    unfold reading scrape LlamaCpp.scrape Scrape.serveMetrics at hm
    dsimp only at hm
    split at hm
    · rw [Option.none_or, Option.map_some, Option.some.injEq] at hm
      refine ⟨_, ?_, ?_, ?_, ?_, rfl⟩
      all_goals
        rw [← hm]
        cases p.slots <;> cases p.info <;> rfl
    · rw [Option.none_or, Option.map_eq_some_iff] at hm
      obtain ⟨e, he, rfl⟩ := hm
      have parsed : p.metrics.map LlamaCpp.parseMetrics = some e := he
      exact ⟨e, rfl, rfl, rfl, rfl, by rw [parsed, Option.getD_some]⟩
  obtain ⟨e, prompt, cached, prefill, version, he⟩ := counters
  refine ⟨version, ?_, ?_, ?_⟩
  · rw [← prefill, he]
    unfold rawPrompt
    cases p.metrics <;> rfl
  · rw [← cached, he]
    unfold rawCached
    cases p.metrics <;> rfl
  · intro published
    unfold uncached
    rw [← prefill, ← prompt, ← cached, he]
    unfold Published rawPrompt at published
    cases hp : p.metrics with
    | none =>
        rw [hp] at published
        cases published
    | some series =>
        rw [hp] at published
        obtain ⟨c, hc⟩ := Option.isSome_iff_exists.mp published
        have counter : familySum series "llamacpp:prompt_tokens_total" = some c := hc
        show (familySum series "llamacpp:prompt_tokens_total").getD 0 =
          ((familySum series "llamacpp:prompt_tokens_total").map fun c =>
            c + (familySum series "llamacpp:prompt_tokens_cached_total").getD 0).getD 0 -
          (familySum series "llamacpp:prompt_tokens_cached_total").getD 0
        rw [counter]
        exact (add_sub_cancel_right c _).symm

variable {parse publicPriority trustedPriority}

theorem kind_of_published {kind : EngineKind} {p : Pages} (h : Published kind p) :
    kind = .vllm ∨ kind = .llamaCpp := by
  cases kind with
  | vllm => exact Or.inl rfl
  | llamaCpp => exact Or.inr rfl
  | sglang => exact h.elim
  | ollama => exact h.elim
  | lmStudio => exact h.elim
  | tgi => exact h.elim
  | openAi => exact h.elim

/-- What a scrape of an adapter gives, whatever its page says. -/
theorem adapter_read {kind : EngineKind} (hk : kind = .vllm ∨ kind = .llamaCpp) {p : Pages}
    (counts : ∀ a ∈ rawPrompt kind p, 0 ≤ a) {m : ServeMetrics}
    (hm : reading parse publicPriority trustedPriority kind p = some m) :
    m.countersV = countersV ∧ 0 ≤ m.prefillComputeTokensTotal ∧
      (Published kind p → 0 ≤ uncached m → m.prefillComputeTokensTotal = uncached m) := by
  cases hk with
  | inl hk =>
      subst hk
      exact vllm_read parse publicPriority trustedPriority hm
  | inr hk =>
      subst hk
      obtain ⟨version, prefill, _, exact_count⟩ :=
        llamaCpp_read parse publicPriority trustedPriority hm
      refine ⟨version, ?_, fun published _ => exact_count published⟩
      rw [prefill]
      cases hc : rawPrompt .llamaCpp p with
      | none => exact le_refl 0
      | some a => exact counts a hc

variable (parse publicPriority trustedPriority) in
theorem exists_reading {kind : EngineKind} {p : Pages} (h : Published kind p) :
    ∃ m, reading parse publicPriority trustedPriority kind p = some m := by
  cases hp : p.metrics with
  | none =>
      cases kind_of_published h with
      | inl hk =>
          subst hk
          have shown := h.1
          unfold rawPrompt at shown
          rw [hp] at shown
          cases shown
      | inr hk =>
          subst hk
          unfold Published rawPrompt at h
          rw [hp] at h
          cases h
  | some series =>
      cases kind_of_published h with
      | inl hk =>
          subst hk
          exact ⟨_, by rw [reading_vllm, hp]; rfl⟩
      | inr hk =>
          subst hk
          unfold reading scrape LlamaCpp.scrape Scrape.serveMetrics
          dsimp only
          rw [hp]
          split
          · exact ⟨_, rfl⟩
          · exact ⟨_, rfl⟩

/-- A run of an adapter between two scrapes at which no cache hit is ahead of its prompt. -/
theorem adapted_readings {kind : EngineKind} {first last : Pages} {between : List Pages}
    (hfirst : Published kind first) (hlast : Published kind last)
    (counts : ∀ p ∈ first :: (between ++ [last]), ∀ a ∈ rawPrompt kind p, 0 ≤ a)
    (ahead : ∀ p ∈ [first, last], ∀ m ∈ reading parse publicPriority trustedPriority kind p,
      0 ≤ uncached m) :
    Adapted (readings parse publicPriority trustedPriority kind
      (first :: (between ++ [last]))) := by
  have hk := kind_of_published hfirst
  obtain ⟨m₀, h₀⟩ := exists_reading parse publicPriority trustedPriority hfirst
  obtain ⟨m₁, h₁⟩ := exists_reading parse publicPriority trustedPriority hlast
  have list : readings parse publicPriority trustedPriority kind (first :: (between ++ [last])) =
      m₀ :: (readings parse publicPriority trustedPriority kind between ++ [m₁]) := by
    unfold readings
    rw [List.filterMap_cons_some h₀, List.filterMap_append, List.filterMap_cons_some h₁,
      List.filterMap_nil]
  have each : ∀ m ∈ readings parse publicPriority trustedPriority kind
      (first :: (between ++ [last])), m.countersV = countersV ∧ 0 ≤ m.prefillComputeTokensTotal := by
    intro m hm
    obtain ⟨p, hp, hr⟩ := List.mem_filterMap.mp hm
    obtain ⟨version, nonneg, _⟩ := adapter_read hk (counts p hp) hr
    exact ⟨version, nonneg⟩
  refine ⟨fun m hm => (each m hm).1, fun m hm => (each m hm).2, ?_, ?_⟩
  · intro m hm
    rw [list] at hm
    cases hm
    exact (adapter_read hk (counts first List.mem_cons_self) h₀).2.2 hfirst
      (ahead first List.mem_cons_self m₀ h₀)
  · intro m hm
    rw [list, ← List.cons_append, List.getLast?_concat] at hm
    cases hm
    exact (adapter_read hk (counts last (by simp)) h₁).2.2 hlast (ahead last (by simp) m₁ h₁)

/-- The raw counters never decrease from one page to the next. -/
def Rising (kind : EngineKind) (run : List Pages) : Prop :=
  ∀ p ∈ steps run, (rawPrompt kind p.1).getD 0 ≤ (rawPrompt kind p.2).getD 0 ∧
    (rawCached kind p.1).getD 0 ≤ (rawCached kind p.2).getD 0

instance (kind : EngineKind) (run : List Pages) : Decidable (Rising kind run) := by
  unfold Rising
  infer_instance

/-- A step of llama.cpp counts no more than the engine's prompt counter grew. -/
theorem llamaCpp_step_le {p q : Pages} {m n : ServeMetrics}
    (hp : reading parse publicPriority trustedPriority .llamaCpp p = some m)
    (hq : reading parse publicPriority trustedPriority .llamaCpp q = some n)
    (published : Published .llamaCpp p ∧ Published .llamaCpp q)
    (prompt : (rawPrompt .llamaCpp p).getD 0 ≤ (rawPrompt .llamaCpp q).getD 0)
    (cached : (rawCached .llamaCpp p).getD 0 ≤ (rawCached .llamaCpp q).getD 0) :
    n.computedPromptTokensSince m ≤ uncached n - uncached m := by
  obtain ⟨_, prefill, hits, exact_count⟩ := llamaCpp_read _ _ _ hp
  obtain ⟨_, prefill', hits', exact_count'⟩ := llamaCpp_read _ _ _ hq
  have count := exact_count published.1
  have count' := exact_count' published.2
  rw [← prefill, ← prefill'] at prompt
  rw [← hits, ← hits'] at cached
  unfold ServeMetrics.computedPromptTokensSince
  split
  · linarith
  split
  · unfold grown
    split <;> linarith
  split
  · have more : m.promptTokensTotal ≤ n.promptTokensTotal := by
      unfold uncached at count count'
      linarith
    unfold grown
    rw [if_pos more, if_pos cached]
    unfold uncached at count count' ⊢
    apply max_le <;> linarith
  · linarith

theorem llamaCpp_counted_le {run : List Pages} (published : ∀ p ∈ run, Published .llamaCpp p)
    (rising : Rising .llamaCpp run) :
    counted (readings parse publicPriority trustedPriority .llamaCpp run) ≤
      grew (readings parse publicPriority trustedPriority .llamaCpp run) := by
  let record (p : Pages) : ServeMetrics :=
    (reading parse publicPriority trustedPriority .llamaCpp p).getD {}
  have read : ∀ p ∈ run,
      reading parse publicPriority trustedPriority .llamaCpp p = some (record p) := by
    intro p hp
    obtain ⟨m, hm⟩ := exists_reading parse publicPriority trustedPriority (published p hp)
    show _ = some ((reading parse publicPriority trustedPriority .llamaCpp p).getD {})
    rw [hm, Option.getD_some]
  have list : readings parse publicPriority trustedPriority .llamaCpp run = run.map record := by
    unfold readings
    rw [List.filterMap_congr read, List.filterMap_eq_map']
  rw [grew_eq, list, steps_map, List.map_map]
  unfold counted
  rw [steps_map, List.map_map]
  apply List.sum_le_sum
  intro p hp
  obtain ⟨h₁, h₂⟩ := mem_of_mem_steps hp
  obtain ⟨prompt, cached⟩ := rising p hp
  exact llamaCpp_step_le (read _ h₁) (read _ h₂) ⟨published _ h₁, published _ h₂⟩ prompt cached

/-! ## Without one -/

/-- Records of an engine with prompt and cached totals only. -/
structure Plain (ms : List ServeMetrics) : Prop where
  version : ∀ m ∈ ms, ∀ n ∈ ms, m.countersV = n.countersV
  bare : ∀ m ∈ ms, m.prefillComputeTokensTotal = 0
  rising : ∀ p ∈ steps ms, p.1.promptTokensTotal ≤ p.2.promptTokensTotal ∧
    p.1.cachedTokensTotal ≤ p.2.cachedTokensTotal

/-- What the uncached tokens fell by in the steps after the first cache hit. -/
def fallen (ms : List ServeMetrics) : ℚ :=
  ((steps ms).map fun p =>
    if 0 < p.2.cachedTokensTotal then max (uncached p.1 - uncached p.2) 0 else 0).sum

/-- What they grew by before it, where nothing is counted. -/
def unread (ms : List ServeMetrics) : ℚ :=
  ((steps ms).map fun p =>
    if 0 < p.2.cachedTokensTotal then 0 else uncached p.2 - uncached p.1).sum

theorem Plain.step {ms : List ServeMetrics} (h : Plain ms) {p : ServeMetrics × ServeMetrics}
    (hp : p ∈ steps ms) : p.2.computedPromptTokensSince p.1 =
      uncached p.2 - uncached p.1 +
        (if 0 < p.2.cachedTokensTotal then max (uncached p.1 - uncached p.2) 0 else 0) -
        (if 0 < p.2.cachedTokensTotal then 0 else uncached p.2 - uncached p.1) := by
  obtain ⟨h₁, h₂⟩ := mem_of_mem_steps hp
  obtain ⟨prompt, cached⟩ := h.rising p hp
  have same : p.2.comparable p.1 = true := by
    unfold ServeMetrics.comparable
    rw [h.version _ h₁ _ h₂, beq_self_eq_true]
  unfold ServeMetrics.computedPromptTokensSince
  rw [if_neg (by rw [same]; decide), h.bare _ h₁, h.bare _ h₂, if_neg (by simp)]
  have hits : (0 < p.2.cachedTokensTotal ∨ 0 < p.1.cachedTokensTotal) ↔
      0 < p.2.cachedTokensTotal := by
    constructor
    · rintro (h | h)
      · exact h
      · exact lt_of_lt_of_le h cached
    · exact Or.inl
  by_cases hit : 0 < p.2.cachedTokensTotal
  · rw [if_pos (hits.mpr hit), if_pos hit, if_pos hit]
    unfold grown
    rw [if_pos prompt, if_pos cached]
    unfold uncached
    cases le_total (p.2.promptTokensTotal - p.1.promptTokensTotal)
        (p.2.cachedTokensTotal - p.1.cachedTokensTotal) with
    | inl fell =>
        rw [max_eq_right (by linarith), max_eq_left (by linarith)]
        ring
    | inr rose =>
        rw [max_eq_left (by linarith), max_eq_right (by linarith)]
        ring
  · rw [if_neg (mt hits.mp hit), if_neg hit, if_neg hit]
    ring

theorem Plain.counted_eq {ms : List ServeMetrics} (h : Plain ms) :
    counted ms + unread ms = grew ms + fallen ms := by
  unfold counted unread fallen
  rw [grew_eq, ← List.sum_map_add, ← List.sum_map_add]
  congr 1
  apply List.map_congr_left
  intro p hp
  rw [h.step hp]
  ring

/-! ## The claim -/

/-- What the steps of a run count as read is no more than the prompt tokens that were not cached:
with the adapters of vLLM and llama.cpp, between two scrapes without a hit ahead of its prompt,
exactly when no step gives back what an earlier one hid; with llama.cpp always, when every scrape
has its prompt counter; and with two bare totals exactly when what they fell by is no more than
what was not counted before the first hit. -/
theorem prompt_tokens_counted_once_iff (parse : String → Option ℚ)
    (publicPriority trustedPriority : String) :
    (∀ kind first between last, Published kind first → Published kind last →
      (∀ p ∈ first :: (between ++ [last]), ∀ a ∈ rawPrompt kind p, 0 ≤ a) →
      (∀ p ∈ [first, last], ∀ m ∈ reading parse publicPriority trustedPriority kind p,
        0 ≤ uncached m) →
      (counted (readings parse publicPriority trustedPriority kind
            (first :: (between ++ [last]))) ≤
          grew (readings parse publicPriority trustedPriority kind
            (first :: (between ++ [last]))) ↔
        ∀ p ∈ steps (readings parse publicPriority trustedPriority kind
          (first :: (between ++ [last]))), ¬GivesBack p.1 p.2)) ∧
    (∀ run, (∀ p ∈ run, Published .llamaCpp p) → Rising .llamaCpp run →
      counted (readings parse publicPriority trustedPriority .llamaCpp run) ≤
        grew (readings parse publicPriority trustedPriority .llamaCpp run)) ∧
    ∀ ms, Plain ms → (counted ms ≤ grew ms ↔ fallen ms ≤ unread ms) := by
  refine ⟨?_, ?_, ?_⟩
  · intro kind first between last hfirst hlast counts ahead
    exact (adapted_readings hfirst hlast counts ahead).counted_le_iff
  · intro run published rising
    exact llamaCpp_counted_le published rising
  · intro ms h
    have eq := h.counted_eq
    constructor
    · intro le
      linarith
    · intro le
      linarith

/-- A page of vLLM with its two counters. -/
def vllmPage (prompt cached : ℚ) : Pages :=
  { metrics := some [⟨"vllm:prompt_tokens_total", [], prompt⟩,
      ⟨"vllm:prompt_tokens_cached_total", [], cached⟩] }

/-- A page of llama.cpp with its two counters. -/
def llamaCppPage (prompt cached : ℚ) : Pages :=
  { metrics := some [⟨"llamacpp:prompt_tokens_total", [], prompt⟩,
      ⟨"llamacpp:prompt_tokens_cached_total", [], cached⟩] }

/-- A cache hit of 50 tokens that shows one scrape after its prompt. -/
def lateHit : List ServeMetrics :=
  [{ promptTokensTotal := 100 }, { promptTokensTotal := 150 },
    { promptTokensTotal := 150, cachedTokensTotal := 50 }]

theorem late_hits_counted_once :
    (counted (readings (fun _ => none) "0" "10" .vllm
          [vllmPage 100 0, vllmPage 150 50, vllmPage 180 50]) ≤
        grew (readings (fun _ => none) "0" "10" .vllm
          [vllmPage 100 0, vllmPage 150 50, vllmPage 180 50]) ↔
      ∀ p ∈ steps (readings (fun _ => none) "0" "10" .vllm
        [vllmPage 100 0, vllmPage 150 50, vllmPage 180 50]), ¬GivesBack p.1 p.2) ∧
    counted (readings (fun _ => none) "0" "10" .llamaCpp
        [llamaCppPage 100 0, llamaCppPage 100 50]) ≤
      grew (readings (fun _ => none) "0" "10" .llamaCpp
        [llamaCppPage 100 0, llamaCppPage 100 50]) ∧
    (counted lateHit ≤ grew lateHit ↔ fallen lateHit ≤ unread lateHit) := by
  refine ⟨(prompt_tokens_counted_once_iff (fun _ => none) "0" "10").1 .vllm (vllmPage 100 0)
      [vllmPage 150 50] (vllmPage 180 50) ?_ ?_ ?_ ?_,
    (prompt_tokens_counted_once_iff (fun _ => none) "0" "10").2.1
      [llamaCppPage 100 0, llamaCppPage 100 50] ?_ ?_,
    (prompt_tokens_counted_once_iff (fun _ => none) "0" "10").2.2 lateHit ⟨?_, ?_, ?_⟩⟩
  · exact ⟨by decide, by decide⟩
  · exact ⟨by decide, by decide⟩
  · decide +kernel
  · decide +kernel
  · decide
  · decide +kernel
  · decide +kernel
  · decide +kernel
  · decide +kernel

/-- A cache hit of 50 tokens that vLLM shows one scrape before its prompt is counted as read. -/
theorem early_hit_counted :
    Rising .vllm [vllmPage 100 0, vllmPage 100 50, vllmPage 150 50] ∧
      (∀ p ∈ [vllmPage 100 0, vllmPage 150 50], Published .vllm p ∧
        ∀ m ∈ reading (fun _ => none) "0" "10" .vllm p, 0 ≤ uncached m) ∧
      ¬counted (readings (fun _ => none) "0" "10" .vllm
          [vllmPage 100 0, vllmPage 100 50, vllmPage 150 50]) ≤
        grew (readings (fun _ => none) "0" "10" .vllm
          [vllmPage 100 0, vllmPage 100 50, vllmPage 150 50]) := by
  refine ⟨?_, ?_, ?_⟩
  · decide +kernel
  · decide +kernel
  · decide +kernel

end Lss.Analysis.PromptTokens
