import Lss.Analysis.RuleJudgements

/-!
# The rules along a run of evaluations

What one evaluation does to one rule, carried along a whole run. For a rule that is built on
`Sustained` the run is the run of its machine over every judgement made along it. The other
rules that send and recover are the low-decode rule, the container restarts and the GPU
faults; for each of them one evaluation is described by the signals it gives and the part
of the engine they depend on.
-/

set_option autoImplicit false

namespace Lss.Analysis.RuleRuns

open Lss.Library Lss.Model Lss.Analysis.SustainedRule Lss.Analysis.RuleGroups
  Lss.Analysis.RuleJudgements

section

variable {F : Type} [F64 F] (env : Env) (cfg : RulesConfig F)

/-- The run of the engine over some observations. -/
abbrev engineRun (e : Engine F) (os : List (Observation F)) : Engine F × List AlertEvent :=
  Machine.run (fun e o => evaluate env cfg o e) e os

/-- Every judgement of a rule along a run. -/
def judgementsAlong (k : RuleKey) : Engine F → List (Observation F) → List Judgement
  | _, [] => []
  | e, o :: os => judgements cfg o e k ++ judgementsAlong k (evaluate env cfg o e).1 os

/-! ## The serve rules -/

/-- A serve rule is its machine as far as its state and its fires go. Both rules share the
recovery. -/
theorem evaluate_serve (o : Observation F) (e : Engine F) {k : RuleKey}
    (hk : k = .serveDown ∨ k = .serveDownPage) :
    sustained (evaluate env cfg o e).1 k =
        (ruleRun cfg k (sustained e k) (judgements cfg o e k)).1 ∧
      (signals k (evaluate env cfg o e).2).filter isFire =
        (ruleRun cfg k (sustained e k) (judgements cfg o e k)).2.filter isFire := by
  rw [signals_evaluate]
  rcases hk with rfl | rfl
  · rw [judgements, judged, List.map_singleton, ruleRun_singleton]
    refine ⟨rfl, ?_⟩
    simp only [group, groupEvents, evalServeDown, sustained, holdSecs]
    cases hw : (e.serveDown.step o.now (!o.serveUp) cfg.serveDownSecs cfg.cooldownSecs).2 <;>
      cases hp : (e.serveDownPage.step o.now (!o.serveUp) cfg.serveDownPageSecs
        cfg.cooldownSecs).2 <;>
      simp [signals, edgeSignal, isFire]
  · rw [judgements, judged, List.map_singleton, ruleRun_singleton]
    refine ⟨rfl, ?_⟩
    simp only [group, groupEvents, evalServeDown, sustained, holdSecs]
    cases hw : (e.serveDown.step o.now (!o.serveUp) cfg.serveDownSecs cfg.cooldownSecs).2 <;>
      cases hp : (e.serveDownPage.step o.now (!o.serveUp) cfg.serveDownPageSecs
        cfg.cooldownSecs).2 <;>
      simp [signals, edgeSignal, isFire]

/-- The state and the fires of every sustained rule are those of its machine. -/
theorem evaluate_fires (o : Observation F) (e : Engine F) {k : RuleKey}
    (hk : isSustained k = true) :
    sustained (evaluate env cfg o e).1 k =
        (ruleRun cfg k (sustained e k) (judgements cfg o e k)).1 ∧
      (signals k (evaluate env cfg o e).2).filter isFire =
        (ruleRun cfg k (sustained e k) (judgements cfg o e k)).2.filter isFire := by
  by_cases hserve : group k = .serve
  · refine evaluate_serve env cfg o e ?_
    cases k <;> simp [group] at hserve <;> simp
  · obtain ⟨h1, h2⟩ := evaluate_rule env cfg o e hk hserve
    exact ⟨h1, by rw [h2]⟩

/-! ## Sustained rules along a run -/

/-- Along a run, the state and the fires of a sustained rule are those of its machine. -/
theorem run_fires (k : RuleKey) (hk : isSustained k = true) (e : Engine F)
    (os : List (Observation F)) :
    sustained (engineRun env cfg e os).1 k =
        (ruleRun cfg k (sustained e k) (judgementsAlong env cfg k e os)).1 ∧
      (signals k (engineRun env cfg e os).2).filter isFire =
        (ruleRun cfg k (sustained e k) (judgementsAlong env cfg k e os)).2.filter isFire := by
  induction os generalizing e with
  | nil => exact ⟨rfl, rfl⟩
  | cons o os ih =>
      obtain ⟨h1, h2⟩ := evaluate_fires env cfg o e hk
      obtain ⟨h3, h4⟩ := ih (evaluate env cfg o e).1
      simp only [engineRun, judgementsAlong, Machine.run_cons, Machine.run_append, ruleRun,
        signals_append, List.filter_append] at h1 h2 h3 h4 ⊢
      rw [h3, h4, h1, h2]
      exact ⟨rfl, rfl⟩

/-- Along a run, all the signals of a sustained rule that is not a serve rule are those of its
machine. -/
theorem run_signals (k : RuleKey) (hk : isSustained k = true) (hserve : group k ≠ .serve)
    (e : Engine F) (os : List (Observation F)) :
    signals k (engineRun env cfg e os).2 =
      (ruleRun cfg k (sustained e k) (judgementsAlong env cfg k e os)).2 := by
  induction os generalizing e with
  | nil => rfl
  | cons o os ih =>
      obtain ⟨h1, h2⟩ := evaluate_rule env cfg o e hk hserve
      have h3 := ih (evaluate env cfg o e).1
      simp only [engineRun, judgementsAlong, Machine.run_cons, Machine.run_append, ruleRun,
        signals_append] at h1 h2 h3 ⊢
      rw [h3, h1, h2]

/-- The judgements along a run are made at the times of its observations. -/
theorem mem_judgementsAlong (k : RuleKey) (e : Engine F) (os : List (Observation F))
    {j : Judgement} (h : j ∈ judgementsAlong env cfg k e os) : j.1 ∈ os.map Observation.now := by
  induction os generalizing e with
  | nil => simp [judgementsAlong] at h
  | cons o os ih =>
      rcases List.mem_append.1 h with h | h
      · obtain ⟨c, -, rfl⟩ := List.mem_map.1 h
        simp
      · exact List.mem_cons_of_mem _ (ih _ h)

/-- Observations in order of time make judgements in order of time. -/
theorem judgementsAlong_ordered (k : RuleKey) (e : Engine F) {os : List (Observation F)}
    (ordered : (os.map Observation.now).Pairwise (· ≤ ·)) :
    ((judgementsAlong env cfg k e os).map Prod.fst).Pairwise (· ≤ ·) := by
  induction os generalizing e with
  | nil => exact List.Pairwise.nil
  | cons o os ih =>
      have hhead := (List.pairwise_cons.1 ordered).1
      rw [judgementsAlong, List.map_append, List.pairwise_append]
      refine ⟨?_, ih _ (List.pairwise_cons.1 ordered).2, ?_⟩
      · refine List.pairwise_of_forall_mem_list fun a ha b hb => ?_
        simp only [judgements, List.map_map, List.mem_map] at ha hb
        obtain ⟨_, _, rfl⟩ := ha
        obtain ⟨_, _, rfl⟩ := hb
        exact le_refl _
      · intro a ha b hb
        obtain ⟨x, hx, rfl⟩ := List.mem_map.1 ha
        obtain ⟨y, hy, rfl⟩ := List.mem_map.1 hb
        obtain ⟨c, -, rfl⟩ := List.mem_map.1 hx
        exact hhead _ (mem_judgementsAlong env cfg k _ os hy)

/-! ## The low-decode rule -/

/-- What one evaluation does to the low-decode rule: nothing, a fire after the cooldown of a
rule that is not announced, or the recovery of one that is. -/
theorem evalC1_decode (o : Observation F) (c1 : C1State F) :
    (signals .c1Decode (evalC1 env cfg o c1).2 = [] ∧
      (evalC1 env cfg o c1).1.announced = c1.announced ∧
      (evalC1 env cfg o c1).1.lastSent = c1.lastSent) ∨
    (signals .c1Decode (evalC1 env cfg o c1).2 = [(o.now, false)] ∧ c1.announced = false ∧
      (∀ t, c1.lastSent = some t → cfg.cooldownSecs ≤ o.now - t) ∧
      (evalC1 env cfg o c1).1.announced = true ∧
      (evalC1 env cfg o c1).1.lastSent = some o.now) ∨
    (signals .c1Decode (evalC1 env cfg o c1).2 = [(o.now, true)] ∧ c1.announced = true ∧
      (evalC1 env cfg o c1).1.announced = false ∧
      (evalC1 env cfg o c1).1.lastSent = c1.lastSent) := by
  have stale : ∀ c : C1State F, signals .c1Decode (evalC1Stale cfg o c).2 = [] := fun c =>
    signals_eq_nil fun ev hev => by
      rw [rule_of_mem_evalC1Stale cfg o hev]
      decide
  unfold evalC1
  by_cases hb : o.benchActive = true
  · rw [if_pos hb]
    exact Or.inl ⟨rfl, rfl, rfl⟩
  rw [if_neg hb]
  dsimp only
  rw [signals_append, stale, List.append_nil]
  unfold evalC1Decode
  cases o.probeTokS with
  | none => exact Or.inl ⟨rfl, rfl, rfl⟩
  | some v =>
      dsimp only
      unfold c1Probe
      dsimp only
      cases c1Baseline cfg { c1 with validated := true, lastValidTs := some o.now } with
      | none => exact Or.inl ⟨rfl, rfl, rfl⟩
      | some baseline =>
          dsimp only
          by_cases hlow : F64.lt v (cfg.c1Ratio * baseline) = true
          · rw [if_pos hlow]
            unfold c1Low
            dsimp only
            split
            · next hfire =>
                simp only [Bool.and_eq_true, Bool.not_eq_true'] at hfire
                refine Or.inr (Or.inl ⟨rfl, hfire.1.2, ?_, rfl, rfl⟩)
                intro t ht
                have hcooled := hfire.2
                simp only [c1Cooled, ht] at hcooled
                exact of_decide_eq_true hcooled
            · exact Or.inl ⟨rfl, rfl, rfl⟩
          · rw [if_neg hlow]
            cases ha : c1.announced with
            | true => exact Or.inr (Or.inr ⟨rfl, rfl, rfl, rfl⟩)
            | false => exact Or.inl ⟨rfl, rfl, rfl⟩

end

end Lss.Analysis.RuleRuns
