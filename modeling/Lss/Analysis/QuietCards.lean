import Lss.Model.SafetyPolls

/-!
# What a quiet scorecard proves

A scorecard says quiet when every poll of its run saw nobody else through the user table of the
gateway or through the counters of the lanes. The user table does not list who goes straight to
the engine, a lane hides as many strangers as the benchmark may have requests there, and an
engine without lanes counts as one whose lanes are empty.
-/

set_option autoImplicit false

namespace Lss.Analysis.QuietCards

open Lss.Model

/-! ## The load of a run -/

/-- The sampler after some polls. -/
def sampled (l : LoadSampler) (polls : List (SafetyObs × ℕ)) : LoadSampler :=
  polls.foldl (fun l p => l.push p.1 p.2) l

/-- A poll that saw nobody, with evidence of one of the better kinds. -/
def SawNobody (p : SafetyObs × ℕ) : Prop :=
  ∃ source, foreignNow p.1 p.2 = some (0, source) ∧ 2 ≤ source.rank

/-- A poll counts whole requests. -/
def Counts (p : SafetyObs × ℕ) : Prop := ∀ f ∈ foreignNow p.1 p.2, ∃ n : ℕ, f.1 = n

/-- The source a poll is put down with. -/
def sourceOf (p : SafetyObs × ℕ) : LoadSource := (foreignNow p.1 p.2).elim .unmeasured Prod.snd

/-- What the sampler has taken from some polls. -/
structure Sampled (polls : List (SafetyObs × ℕ)) (l : LoadSampler) : Prop where
  samples : l.samples = polls.length
  weakest_le : ∀ p ∈ polls, ∃ w ∈ l.weakest, w.rank ≤ (sourceOf p).rank
  weakest_mem : ∀ w ∈ l.weakest, ∃ p ∈ polls, w = sourceOf p
  measured : 0 < l.foreignSamples ↔ ∃ p ∈ polls, (foreignNow p.1 p.2).isSome
  traffic : l.pollsWithTraffic = 0 ↔ ∀ p ∈ polls, ∀ f ∈ foreignNow p.1 p.2, f.1 < 1 / 2
  most : (∀ p ∈ polls, ∀ f ∈ foreignNow p.1 p.2, f.1 = 0) → l.foreignMax = 0

theorem sampled_nil : Sampled [] {} where
  samples := rfl
  weakest_le p hp := nomatch hp
  weakest_mem w hw := nomatch hw
  measured := by
    constructor
    · exact fun h => absurd h (Nat.lt_irrefl 0)
    · rintro ⟨p, hp, _⟩
      exact nomatch hp
  traffic := by
    constructor
    · exact fun _ p hp => nomatch hp
    · exact fun _ => rfl
  most _ := rfl

/-- The weakest source after one more poll: that poll's, or the one before it. -/
theorem weakest_push (l : LoadSampler) (o : SafetyObs) (limit : ℕ) :
    ((l.push o limit).weakest = some (sourceOf (o, limit)) ∧
        ∀ w ∈ l.weakest, (sourceOf (o, limit)).rank < w.rank) ∨
      ((l.push o limit).weakest = l.weakest ∧
        ∃ w ∈ l.weakest, w.rank ≤ (sourceOf (o, limit)).rank) := by
  have push : (l.push o limit).weakest =
      if l.weakest.all fun w => (sourceOf (o, limit)).rank < w.rank then
        some (sourceOf (o, limit)) else l.weakest := rfl
  rw [push]
  cases hw : l.weakest with
  | none =>
      left
      refine ⟨rfl, ?_⟩
      intro w h
      cases h
  | some w =>
      by_cases hlt : (sourceOf (o, limit)).rank < w.rank
      · left
        rw [if_pos (by simpa using hlt)]
        refine ⟨rfl, ?_⟩
        intro v hv
        cases hv
        exact hlt
      · right
        rw [if_neg (by simpa using hlt)]
        exact ⟨rfl, w, rfl, Nat.le_of_not_lt hlt⟩

theorem Sampled.push {polls : List (SafetyObs × ℕ)} {l : LoadSampler} (h : Sampled polls l)
    (o : SafetyObs) (limit : ℕ) : Sampled (polls ++ [(o, limit)]) (l.push o limit) where
  samples := by
    show l.samples + 1 = _
    rw [h.samples, List.length_append, List.length_singleton]
  weakest_le := by
    intro p hp
    cases List.mem_append.mp hp with
    | inl hp =>
        obtain ⟨v, hv, hle⟩ := h.weakest_le p hp
        cases weakest_push l o limit with
        | inl new => exact ⟨_, new.1, Nat.le_trans (Nat.le_of_lt (new.2 v hv)) hle⟩
        | inr old => exact ⟨v, old.1 ▸ hv, hle⟩
    | inr hp =>
        rw [List.mem_singleton.mp hp]
        cases weakest_push l o limit with
        | inl new => exact ⟨_, new.1, Nat.le_refl _⟩
        | inr old =>
            obtain ⟨v, hv, hle⟩ := old.2
            exact ⟨v, old.1 ▸ hv, hle⟩
  weakest_mem := by
    intro w hw
    cases weakest_push l o limit with
    | inl new =>
        rw [new.1] at hw
        cases hw
        exact ⟨(o, limit), List.mem_append_right _ List.mem_cons_self, rfl⟩
    | inr old =>
        rw [old.1] at hw
        obtain ⟨p, hp, rfl⟩ := h.weakest_mem w hw
        exact ⟨p, List.mem_append_left _ hp, rfl⟩
  measured := by
    have push : (l.push o limit).foreignSamples =
        l.foreignSamples + if (foreignNow o limit).isSome then 1 else 0 := rfl
    rw [push]
    constructor
    · intro hpos
      by_cases hs : (foreignNow o limit).isSome
      · exact ⟨(o, limit), List.mem_append_right _ List.mem_cons_self, hs⟩
      · rw [if_neg hs] at hpos
        obtain ⟨p, hp, hsome⟩ := h.measured.mp hpos
        exact ⟨p, List.mem_append_left _ hp, hsome⟩
    · rintro ⟨p, hp, hs⟩
      cases List.mem_append.mp hp with
      | inl hp =>
          have hpos := h.measured.mpr ⟨p, hp, hs⟩
          omega
      | inr hp =>
          rw [List.mem_singleton.mp hp] at hs
          rw [if_pos hs]
          omega
  traffic := by
    have push : (l.push o limit).pollsWithTraffic =
        l.pollsWithTraffic + if (foreignNow o limit).any fun s => 1 / 2 ≤ s.1 then 1 else 0 := rfl
    have seen : ((foreignNow o limit).any fun s => 1 / 2 ≤ s.1) = false ↔
        ∀ f ∈ foreignNow o limit, f.1 < 1 / 2 := by
      cases foreignNow o limit with
      | none => simp
      | some f => simp
    rw [push]
    constructor
    · intro hzero p hp
      cases List.mem_append.mp hp with
      | inl hp => exact h.traffic.mp (by omega) p hp
      | inr hp =>
          rw [List.mem_singleton.mp hp]
          apply seen.mp
          rw [Bool.eq_false_iff]
          intro ht
          rw [if_pos ht] at hzero
          omega
    · intro hall
      have before := h.traffic.mpr fun p hp => hall p (List.mem_append_left _ hp)
      have now := seen.mpr (hall (o, limit) (List.mem_append_right _ List.mem_cons_self))
      rw [before, now]
      rfl
  most := by
    intro hall
    have before := h.most fun p hp => hall p (List.mem_append_left _ hp)
    have now := hall (o, limit) (List.mem_append_right _ List.mem_cons_self)
    have push : (l.push o limit).foreignMax =
        (foreignNow o limit).elim l.foreignMax fun s => max l.foreignMax s.1 := rfl
    rw [push, before]
    cases hf : foreignNow o limit with
    | none => rfl
    | some f =>
        rw [Option.elim_some, now f hf]
        exact max_self 0

theorem sampled_run (polls : List (SafetyObs × ℕ)) : Sampled polls (sampled {} polls) := by
  induction polls using List.reverseRecOn with
  | nil => exact sampled_nil
  | append_singleton polls p ih =>
      unfold sampled at ih ⊢
      rw [List.foldl_concat]
      exact ih.push p.1 p.2

/-- A card says quiet exactly when every poll saw nobody, and there was one. -/
theorem quiet_iff {polls : List (SafetyObs × ℕ)} (counts : ∀ p ∈ polls, Counts p)
    (engineTokS : Option ℚ) :
    (∃ b ∈ (sampled {} polls).finish engineTokS, b.loadClass = .quiet) ↔
      polls ≠ [] ∧ ∀ p ∈ polls, SawNobody p := by
  have h := sampled_run polls
  have finish : ∀ b ∈ (sampled {} polls).finish engineTokS, b.samples = polls.length ∧
      b.pollsWithTraffic = (sampled {} polls).pollsWithTraffic ∧
      b.source = (sampled {} polls).weakest.getD .unmeasured ∧
      b.concurrentMax = if 0 < (sampled {} polls).foreignSamples then
        some (roundTo 100 (sampled {} polls).foreignMax) else none := by
    intro b hb
    unfold LoadSampler.finish at hb
    split at hb
    · cases hb
    · cases hb
      exact ⟨h.samples, rfl, rfl, rfl⟩
  constructor
  · rintro ⟨b, hb, quiet⟩
    obtain ⟨samples, traffic, source, _⟩ := finish b hb
    unfold BackgroundLoad.loadClass at quiet
    split at quiet
    · cases quiet
    rename_i known
    split at quiet
    · split at quiet <;> cases quiet
    rename_i strong
    split at quiet
    · rename_i calm
      rw [samples] at known
      refine ⟨fun e => known (Or.inl (by rw [e]; rfl)), ?_⟩
      intro p hp
      obtain ⟨w, hw, hle⟩ := h.weakest_le p hp
      rw [source, hw, Option.getD_some] at strong
      have shown := h.traffic.mp (traffic ▸ calm.1) p hp
      cases hf : foreignNow p.1 p.2 with
      | none =>
          have weak : sourceOf p = .unmeasured := by
            unfold sourceOf
            rw [hf]
            rfl
          have rank : LoadSource.unmeasured.rank = 0 := rfl
          rw [weak] at hle
          omega
      | some f =>
          have kind : sourceOf p = f.2 := by
            unfold sourceOf
            rw [hf]
            rfl
          obtain ⟨n, hn⟩ := counts p hp f hf
          have less := shown f hf
          have zero : n = 0 := by
            by_contra hne
            have one : (1 : ℚ) ≤ n := by exact_mod_cast Nat.pos_of_ne_zero hne
            rw [hn] at less
            linarith
          refine ⟨f.2, ?_, ?_⟩
          · rw [hf, ← Prod.eta f, hn, zero, Nat.cast_zero]
          · rw [kind] at hle
            omega
    · cases quiet
  · rintro ⟨hne, saw⟩
    have some_poll : ∃ p, p ∈ polls := List.exists_mem_of_ne_nil polls hne
    have length : polls.length ≠ 0 := fun e => hne (List.length_eq_zero_iff.mp e)
    have zero : ∀ p ∈ polls, ∀ f ∈ foreignNow p.1 p.2, f.1 = 0 := by
      intro p hp f hf
      obtain ⟨source, hs, _⟩ := saw p hp
      rw [hs] at hf
      cases hf
      rfl
    have calm : (sampled {} polls).pollsWithTraffic = 0 := by
      apply h.traffic.mpr
      intro p hp f hf
      rw [zero p hp f hf]
      norm_num
    have strong : ∃ w ∈ (sampled {} polls).weakest, 2 ≤ w.rank := by
      obtain ⟨p, hp⟩ := some_poll
      obtain ⟨w, hw, _⟩ := h.weakest_le p hp
      obtain ⟨q, hq, rfl⟩ := h.weakest_mem w hw
      obtain ⟨source, hs, rank⟩ := saw q hq
      have kind : sourceOf q = source := by
        unfold sourceOf
        rw [hs]
        rfl
      exact ⟨_, hw, kind ▸ rank⟩
    have measured : 0 < (sampled {} polls).foreignSamples := by
      obtain ⟨p, hp⟩ := some_poll
      obtain ⟨source, hs, _⟩ := saw p hp
      exact h.measured.mpr ⟨p, hp, by rw [hs]; rfl⟩
    have have_card : ∃ b, b ∈ (sampled {} polls).finish engineTokS := by
      unfold LoadSampler.finish
      rw [if_neg (by rw [h.samples]; exact length)]
      exact ⟨_, rfl⟩
    obtain ⟨b, hb⟩ := have_card
    obtain ⟨samples, traffic, source, worst⟩ := finish b hb
    obtain ⟨w, hw, rank⟩ := strong
    rw [hw, Option.getD_some] at source
    rw [if_pos measured, h.most zero] at worst
    refine ⟨b, hb, ?_⟩
    unfold BackgroundLoad.loadClass
    rw [samples, source, traffic, calm, worst, if_neg (by omega), if_neg (by omega),
      if_pos ⟨rfl, by decide +kernel⟩]

/-! ## What was really running -/

/-- Requests running and queued. -/
structure Load where
  running : ℕ := 0
  queued : ℕ := 0

namespace Load

def total (l : Load) : ℕ := l.running + l.queued

def add (l m : Load) : Load := ⟨l.running + m.running, l.queued + m.queued⟩

/-- The load, or none. -/
def when (c : Prop) [Decidable c] (l : Load) : Load := if c then l else {}

end Load

/-- What was on the engine at a poll: the benchmark's direct requests and those through the
gateway, and everybody else's through each lane and straight to the engine. -/
structure Traffic where
  direct : Load := {}
  own : Load := {}
  viaPublic : Load := {}
  viaTrusted : Load := {}
  stray : Load := {}

namespace Traffic

/-- The requests of other people. -/
def others (t : Traffic) : ℕ := t.viaPublic.total + t.viaTrusted.total + t.stray.total

/-- Those of them that the gateway knows of. -/
def throughGateway (t : Traffic) : ℕ := t.viaPublic.total + t.viaTrusted.total

def all (t : Traffic) : Load := t.direct.add (t.own.add (t.viaPublic.add (t.viaTrusted.add t.stray)))

/-- What carries a priority. A lane stamps its own, and who goes straight to the engine gets the
engine's default. -/
def labelled (cfg : WatchConfig) (t : Traffic) (priority : String) : Load :=
  (Load.when (priority = cfg.publicPriority) t.viaPublic).add
    ((Load.when (priority = cfg.trustedPriority) (t.viaTrusted.add t.own)).add
      (Load.when (priority = engineDefaultPriority) (t.direct.add t.stray)))

end Traffic

/-- A poll of a run, with what was really running. -/
structure Look where
  obs : SafetyObs
  reads : PollReads
  maxConcurrency : ℕ
  traffic : Traffic

/-- The polls of a run. -/
def looks (cfg : WatchConfig) (own : OwnLoad) : List (WatchEvent × Traffic) → List Look
  | [] => []
  | (.start n, _) :: events => looks cfg (own.start n) events
  | (.finish now poll abandoned, _) :: events =>
    looks cfg (own.finish now poll abandoned) events
  | (.poll reads maxConcurrency, t) :: events =>
    ⟨(observe cfg own reads).2, reads, maxConcurrency, t⟩ ::
      looks cfg (observe cfg own reads).1 events

/-- The gauges and the user table show exactly what is running, each in the way of its engine. -/
structure Reflects (cfg : WatchConfig) (k : Look) : Prop where
  bounded : k.traffic.direct.total ≤ k.maxConcurrency
  lanes : k.reads.kind = some .sglang → ∀ series ∈ k.reads.pages.metrics,
    Extractor.total series "num_running_reqs" = k.traffic.all.running ∧
      Extractor.total series "num_queue_reqs" = k.traffic.all.queued ∧
      ∀ priority ∈ [cfg.publicPriority, cfg.trustedPriority],
        Extractor.lane series "num_running_reqs" priority =
            (k.traffic.labelled cfg priority).running ∧
          Extractor.lane series "num_queue_reqs" priority =
            (k.traffic.labelled cfg priority).queued
  totals : ∀ kind ∈ k.reads.kind, kind ≠ .sglang →
    ∀ m ∈ (scrape cfg.parse cfg.publicPriority cfg.trustedPriority k.reads.pages kind).metrics,
      (∀ r ∈ m.running, r = k.traffic.all.running) ∧ ∀ q ∈ m.queued, q = k.traffic.all.queued
  table : ∀ users ∈ k.reads.users cfg, othersInflight users = k.traffic.throughGateway

/-- What the lanes show of others: all of the lane without the benchmark's direct requests, and
of the other what is more than the benchmark may have. -/
def Look.lanesShow (cfg : WatchConfig) (k : Look) : ℕ :=
  let publicLane := (k.traffic.labelled cfg cfg.publicPriority).total
  let trustedLane := (k.traffic.labelled cfg cfg.trustedPriority).total
  let own := k.maxConcurrency + k.obs.ownGatewayInflight
  match ownLaneFor cfg.publicPriority cfg.trustedPriority with
  | .trustedLane => publicLane + (trustedLane - own)
  | .publicLane => publicLane - own + trustedLane
  | .neither => publicLane + trustedLane

/-- What a poll shows of others, if anything could be read. The user table comes first; an engine
without lanes shows nobody. -/
def Look.shows (cfg : WatchConfig) (k : Look) : Option ℕ :=
  if (k.reads.users cfg).isSome then some k.traffic.throughGateway
  else if (k.reads.metrics cfg).isSome then
    some (if k.reads.kind = some .sglang then k.lanesShow cfg else 0)
  else none

/-- A poll that could tell the benchmark's requests from others': by the user table or by lanes.
Without either, nothing was measured or only the engine's own total. -/
def Look.Separates (cfg : WatchConfig) (k : Look) : Prop :=
  (k.reads.users cfg).isSome ∨ (k.reads.kind = some .sglang ∧ (k.reads.metrics cfg).isSome)

theorem looks_load (cfg : WatchConfig) (w : Watch) (events : List (WatchEvent × Traffic)) :
    (w.run cfg (events.map Prod.fst)).load =
      sampled w.load ((looks cfg w.own events).map fun k => (k.obs, k.maxConcurrency)) := by
  induction events generalizing w with
  | nil => rfl
  | cons e events ih =>
      obtain ⟨event, t⟩ := e
      cases event with
      | start n => exact ih _
      | finish now poll abandoned => exact ih _
      | poll reads maxConcurrency => exact ih _

theorem observed_of_mem {cfg : WatchConfig} {own : OwnLoad} {events : List (WatchEvent × Traffic)}
    {k : Look} (h : k ∈ looks cfg own events) : ∃ own', k.obs = (observe cfg own' k.reads).2 := by
  induction events generalizing own with
  | nil => cases h
  | cons e events ih =>
      obtain ⟨event, t⟩ := e
      cases event with
      | start n => exact ih h
      | finish now poll abandoned => exact ih h
      | poll reads maxConcurrency =>
          cases List.mem_cons.mp h with
          | inl h =>
              rw [h]
              exact ⟨own, rfl⟩
          | inr h => exact ih h

/-! ## What a poll shows -/

/-- Only SGLang's scrape has everything the engine publishes. -/
theorem rich_eq_none (cfg : WatchConfig) (pages : Pages) {kind : EngineKind}
    (h : kind ≠ .sglang) :
    (scrape cfg.parse cfg.publicPriority cfg.trustedPriority pages kind).rich = none := by
  cases kind with
  | sglang => exact absurd rfl h
  | vllm => rfl
  | ollama => rfl
  | lmStudio => rfl
  | tgi => rfl
  | openAi => rfl
  | llamaCpp =>
      unfold scrape LlamaCpp.scrape
      dsimp only
      split <;> rfl

theorem metrics_of_sglang {cfg : WatchConfig} {p : PollReads} {m : ServeMetrics}
    (hk : p.kind = some .sglang) (hm : p.metrics cfg = some m) :
    ∃ series ∈ p.pages.metrics,
      m = extractServeMetricsFrom series cfg.publicPriority cfg.trustedPriority := by
  unfold PollReads.metrics at hm
  rw [hk, Option.bind_some] at hm
  cases hs : p.pages.metrics with
  | none =>
      unfold scrape Sglang.scrape at hm
      rw [hs] at hm
      cases hm
  | some series =>
      unfold scrape Sglang.scrape at hm
      rw [hs] at hm
      cases hm
      exact ⟨series, rfl, rfl⟩

/-- The lanes of any other engine are empty. -/
theorem lanes_of_other {cfg : WatchConfig} {p : PollReads} {m : ServeMetrics}
    (hk : p.kind ≠ some .sglang) (hm : p.metrics cfg = some m) :
    m.runningPublic = 0 ∧ m.queuePublic = 0 ∧ m.runningTrusted = 0 ∧ m.queueTrusted = 0 := by
  unfold PollReads.metrics at hm
  cases hkind : p.kind with
  | none =>
      rw [hkind] at hm
      cases hm
  | some kind =>
      have other : kind ≠ .sglang := fun e => hk (by rw [hkind, e])
      rw [hkind, Option.bind_some] at hm
      dsimp only at hm
      split at hm
      · unfold Scrape.serveMetrics at hm
        rw [rich_eq_none cfg p.pages other, Option.none_or, Option.map_eq_some_iff] at hm
        obtain ⟨e, _, rfl⟩ := hm
        exact ⟨rfl, rfl, rfl, rfl⟩
      · cases hm

theorem cast_monus (a b : ℕ) : max ((a : ℚ) - b) 0 = ((a - b : ℕ) : ℚ) := by
  cases Nat.le_total b a with
  | inl h =>
      rw [Nat.cast_sub h, max_eq_left]
      have : (b : ℚ) ≤ a := by exact_mod_cast h
      linarith
  | inr h =>
      rw [Nat.sub_eq_zero_of_le h, Nat.cast_zero, max_eq_right]
      have : (a : ℚ) ≤ b := by exact_mod_cast h
      linarith

/-- What a poll makes of others is what it shows. -/
theorem foreignNow_eq {cfg : WatchConfig} {k : Look} (reflects : Reflects cfg k)
    (hobs : ∃ own, k.obs = (observe cfg own k.reads).2) :
    foreignNow k.obs k.maxConcurrency = (k.shows cfg).map fun n : ℕ =>
      ((n : ℚ), if (k.reads.users cfg).isSome then LoadSource.users else .lanes) := by
  obtain ⟨own, hobs⟩ := hobs
  have table : k.obs.otherUsersInflight = (k.reads.users cfg).map othersInflight := by rw [hobs]; rfl
  have running : k.obs.running = (k.reads.metrics cfg).map ServeMetrics.running := by rw [hobs]; rfl
  have publicCount : k.obs.gatewayPublic =
      (k.reads.metrics cfg).map fun m => m.runningPublic + m.queuePublic := by rw [hobs]; rfl
  have trustedCount : k.obs.gatewayTrusted =
      (k.reads.metrics cfg).map fun m => m.runningTrusted + m.queueTrusted := by rw [hobs]; rfl
  have lane : k.obs.ownLane = ownLaneFor cfg.publicPriority cfg.trustedPriority := by
    rw [hobs]; rfl
  have allowed : benchInflight k.obs k.maxConcurrency =
      ((k.maxConcurrency + k.obs.ownGatewayInflight : ℕ) : ℚ) := (Nat.cast_add _ _).symm
  unfold foreignNow Look.shows
  rw [table, running, publicCount, trustedCount, lane, allowed]
  cases hu : k.reads.users cfg with
  | some users =>
      have exact_table := reflects.table users hu
      rw [Option.map_some, exact_table]
      rfl
  | none =>
      cases hm : k.reads.metrics cfg with
      | none => rfl
      | some m =>
          by_cases hk : k.reads.kind = some .sglang
          · obtain ⟨series, hs, rfl⟩ := metrics_of_sglang hk hm
            obtain ⟨_, _, lanes⟩ := reflects.lanes hk series hs
            have publicLane : Extractor.lane series "num_running_reqs" cfg.publicPriority +
                Extractor.lane series "num_queue_reqs" cfg.publicPriority =
                ((k.traffic.labelled cfg cfg.publicPriority).total : ℚ) := by
              obtain ⟨hr, hq⟩ := lanes cfg.publicPriority (by simp)
              rw [hr, hq, ← Nat.cast_add]
              rfl
            have trustedLane : Extractor.lane series "num_running_reqs" cfg.trustedPriority +
                Extractor.lane series "num_queue_reqs" cfg.trustedPriority =
                ((k.traffic.labelled cfg cfg.trustedPriority).total : ℚ) := by
              obtain ⟨hr, hq⟩ := lanes cfg.trustedPriority (by simp)
              rw [hr, hq, ← Nat.cast_add]
              rfl
            simp only [Option.map_some, Option.map_none, Option.isSome_none, Option.isSome_some,
              Bool.false_eq_true, if_false, if_true, hk]
            show some (_, LoadSource.lanes) = some (_, LoadSource.lanes)
            congr 2
            unfold Look.lanesShow
            cases ownLaneFor cfg.publicPriority cfg.trustedPriority with
            | trustedLane =>
                show Extractor.lane series "num_running_reqs" cfg.publicPriority +
                    Extractor.lane series "num_queue_reqs" cfg.publicPriority +
                  max (Extractor.lane series "num_running_reqs" cfg.trustedPriority +
                    Extractor.lane series "num_queue_reqs" cfg.trustedPriority - _) 0 = _
                rw [publicLane, trustedLane, cast_monus, ← Nat.cast_add]
            | publicLane =>
                show max (Extractor.lane series "num_running_reqs" cfg.publicPriority +
                    Extractor.lane series "num_queue_reqs" cfg.publicPriority - _) 0 +
                  (Extractor.lane series "num_running_reqs" cfg.trustedPriority +
                    Extractor.lane series "num_queue_reqs" cfg.trustedPriority) = _
                rw [publicLane, trustedLane, cast_monus, ← Nat.cast_add]
            | neither =>
                show Extractor.lane series "num_running_reqs" cfg.publicPriority +
                    Extractor.lane series "num_queue_reqs" cfg.publicPriority +
                  (Extractor.lane series "num_running_reqs" cfg.trustedPriority +
                    Extractor.lane series "num_queue_reqs" cfg.trustedPriority) = _
                rw [publicLane, trustedLane, ← Nat.cast_add]
          · obtain ⟨h₁, h₂, h₃, h₄⟩ := lanes_of_other hk hm
            have nothing : max ((0 : ℚ) + 0 -
                ((k.maxConcurrency + k.obs.ownGatewayInflight : ℕ) : ℚ)) 0 = 0 := by
              have := cast_monus 0 (k.maxConcurrency + k.obs.ownGatewayInflight)
              rw [Nat.zero_sub, Nat.cast_zero] at this
              rw [add_zero, this]
            simp only [Option.map_some, Option.map_none, Option.isSome_none, Option.isSome_some,
              Bool.false_eq_true, if_false, if_true, hk, h₁, h₂, h₃, h₄]
            show some (_, LoadSource.lanes) = some (_, LoadSource.lanes)
            congr 2
            cases ownLaneFor cfg.publicPriority cfg.trustedPriority with
            | trustedLane =>
                show (0 : ℚ) + 0 + max (0 + 0 - _) 0 = _
                rw [nothing, add_zero, add_zero, Nat.cast_zero]
            | publicLane =>
                show max ((0 : ℚ) + 0 - _) 0 + (0 + 0) = _
                rw [nothing, add_zero, add_zero, Nat.cast_zero]
            | neither =>
                show (0 : ℚ) + 0 + (0 + 0) = _
                rw [add_zero, add_zero, Nat.cast_zero]

/-! ## What a quiet card proves -/

/-- A quiet card proves that nobody else was there at any poll, and no run with a poll that could
not separate the benchmark from others has one. -/
def QuietIsProof (cfg : WatchConfig) (w : Watch) (events : List (WatchEvent × Traffic)) : Prop :=
  ∀ engineTokS, ∀ b ∈ (w.run cfg (events.map Prod.fst)).load.finish engineTokS,
    b.loadClass = .quiet →
      ∀ k ∈ looks cfg w.own events, k.traffic.others = 0 ∧ k.Separates cfg

/-- Where the gauges and the table are exact, a quiet card is a proof exactly for the runs with a
poll that shows somebody or shows nothing at all, and for those in which nobody else was there
and every poll could tell. -/
theorem quiet_is_proof_iff (cfg : WatchConfig) (own : OwnLoad)
    (events : List (WatchEvent × Traffic)) (reflects : ∀ k ∈ looks cfg own events, Reflects cfg k) :
    QuietIsProof cfg ⟨own, {}⟩ events ↔
      (∃ k ∈ looks cfg own events, k.shows cfg ≠ some 0) ∨
        ∀ k ∈ looks cfg own events, k.traffic.others = 0 ∧ k.Separates cfg := by
  have counted : ∀ k ∈ looks cfg own events,
      foreignNow k.obs k.maxConcurrency = (k.shows cfg).map fun n : ℕ =>
        ((n : ℚ), if (k.reads.users cfg).isSome then LoadSource.users else .lanes) :=
    fun k hk => foreignNow_eq (reflects k hk) (observed_of_mem hk)
  have counts : ∀ p ∈ (looks cfg own events).map fun k => (k.obs, k.maxConcurrency), Counts p := by
    intro p hp f hf
    obtain ⟨k, hk, rfl⟩ := List.mem_map.mp hp
    rw [counted k hk] at hf
    obtain ⟨n, _, rfl⟩ := Option.map_eq_some_iff.mp hf
    exact ⟨n, rfl⟩
  have saw : (∀ p ∈ (looks cfg own events).map fun k => (k.obs, k.maxConcurrency), SawNobody p) ↔
      ∀ k ∈ looks cfg own events, k.shows cfg = some 0 := by
    rw [List.forall_mem_map]
    apply forall_congr'
    intro k
    apply imp_congr_right
    intro hk
    unfold SawNobody
    rw [counted k hk]
    constructor
    · rintro ⟨source, hs, _⟩
      obtain ⟨n, hn, he⟩ := Option.map_eq_some_iff.mp hs
      have none_there : (n : ℚ) = 0 := congrArg Prod.fst he
      have zero : n = 0 := by exact_mod_cast none_there
      rw [hn, zero]
    · intro hs
      rw [hs]
      refine ⟨_, rfl, ?_⟩
      split
      · decide
      · decide
  have quiet := fun engineTokS => quiet_iff counts engineTokS
  simp only [saw] at quiet
  have run : (Watch.run cfg ⟨own, {}⟩ (events.map Prod.fst)).load =
      sampled {} ((looks cfg own events).map fun k => (k.obs, k.maxConcurrency)) :=
    looks_load cfg ⟨own, {}⟩ events
  unfold QuietIsProof
  rw [run]
  constructor
  · intro proof
    by_cases hshow : ∃ k ∈ looks cfg own events, k.shows cfg ≠ some 0
    · exact Or.inl hshow
    · right
      push Not at hshow
      intro k hk
      have ne : (looks cfg own events).map (fun k => (k.obs, k.maxConcurrency)) ≠ [] :=
        List.ne_nil_of_mem (List.mem_map_of_mem hk)
      obtain ⟨b, hb, hq⟩ := (quiet none).mpr ⟨ne, hshow⟩
      exact proof none b hb hq k hk
  · rintro (⟨k, hk, hshow⟩ | nobody) engineTokS b hb hq
    · exact absurd (((quiet engineTokS).mp ⟨b, hb, hq⟩).2 k hk) hshow
    · exact nobody

/-- A benchmark's watch with a gateway, or without one. -/
def watchOf (hasGate : Bool) : WatchConfig := ⟨"0", "10", hasGate, fun _ => none⟩

/-- One poll while the benchmark has a request on the engine, directly or through the gateway, and
the gateway publishes its users. -/
def tablePoll : WatchEvent × Traffic :=
  (.poll ⟨100, none, {}, some (some [⟨"trusted", benchUser, 1⟩])⟩ 4,
    { direct := ⟨2, 1⟩, own := ⟨1, 0⟩ })

theorem table_run_is_proof :
    QuietIsProof (watchOf true) ⟨.new 100, {}⟩ [tablePoll] := by
  refine (quiet_is_proof_iff (watchOf true) (.new 100) [tablePoll] ?_).mpr (Or.inr ?_)
  · intro k hk
    cases List.mem_singleton.mp hk
    refine ⟨by decide, ?_, ?_, ?_⟩
    · intro h
      exact nomatch h
    · intro kind h
      exact nomatch h
    · intro users h
      cases h
      decide
  · intro k hk
    cases List.mem_singleton.mp hk
    exact ⟨by decide, Or.inl rfl⟩

/-- One poll of vLLM without a gateway, while somebody else has a request there. -/
def strangerPoll : WatchEvent × Traffic :=
  (.poll ⟨100, some .vllm, { metrics := some [⟨"vllm:num_requests_running", [], 1⟩] }, none⟩ 4,
    { stray := ⟨1, 0⟩ })

theorem a_stranger_on_vllm_is_quiet :
    (∀ k ∈ looks (watchOf false) (.new 100) [strangerPoll], Reflects (watchOf false) k) ∧
      ¬QuietIsProof (watchOf false) ⟨.new 100, {}⟩ [strangerPoll] := by
  constructor
  · intro k hk
    cases List.mem_singleton.mp hk
    refine ⟨by decide, ?_, ?_, ?_⟩
    · intro h
      exact nomatch h
    · intro kind h
      cases h
      decide +kernel
    · intro users h
      exact nomatch h
  · intro proof
    have quiet : ∃ b ∈ (Watch.run (watchOf false) ⟨.new 100, {}⟩ [strangerPoll.1]).load.finish none,
        b.loadClass = .quiet := by
      decide +kernel
    obtain ⟨b, hb, hq⟩ := quiet
    have nobody := (proof none b hb hq _ List.mem_cons_self).1
    exact absurd nobody (by decide)

end Lss.Analysis.QuietCards
