import Lss.Analysis.RuleGroups

/-!
# What an evaluation judges

For every rule that is built on `Sustained`, an evaluation judges a condition: once, not at
all when it has no reading, or once for each reading of the GPU of the rule. This file says
which conditions these are and proves that the evaluation is the machine of
`Lss.Analysis.SustainedRule` run over them: it changes the state of the rule as that machine
does, and the signals of the rule are that machine's signals. The two serve rules share one
recovery, so for them only the fires are the machine's own.
-/

set_option autoImplicit false

namespace Lss.Analysis.RuleJudgements

open Lss.Library Lss.Model Lss.Analysis.SustainedRule Lss.Analysis.RuleGroups

/-- The rules that are built on `Sustained`, the staleness rule apart. -/
def isSustained : RuleKey → Bool
  | .thermalDigest | .c1Decode | .c1Stale | .containerRestart _ | .xid _ | .testAlert => false
  | _ => true

section

variable {F : Type} [F64 F] (env : Env) (cfg : RulesConfig F) (o : Observation F)

/-- How long the condition of a rule must hold before it fires. -/
def holdSecs (cfg : RulesConfig F) : RuleKey → ℤ
  | .serveDown => cfg.serveDownSecs
  | .serveDownPage => cfg.serveDownPageSecs
  | .gateDown => cfg.gateDownSecs
  | .gateChargeErrors => cfg.chargeErrorsSecs
  | .gateDiscountInert => cfg.discountInertSecs
  | .gateColdBudget => cfg.coldBudgetSecs
  | .queuePressure => cfg.queueSecs
  | .gateWaiters => cfg.waitersSecs
  | .gpuMissing => cfg.gpuMissingSecs
  | .thermalTemp _ | .thermalThrottle _ => cfg.thermalSecs
  | .ompDefaultMismatch => cfg.ompMismatchHoldSecs
  | .diskFull | .diskFullPage | .diskGrowth => cfg.diskSecs
  | _ => 0

/-- The state the engine keeps for a rule that is built on `Sustained`. -/
def sustained (e : Engine F) : RuleKey → Sustained
  | .serveDown => e.serveDown
  | .serveDownPage => e.serveDownPage
  | .gateDown => e.gateDown
  | .gateChargeErrors => e.chargeErrors
  | .gateDiscountInert => e.discountInert
  | .gateColdBudget => e.coldBudget
  | .queuePressure => e.queue
  | .gateWaiters => e.waiters
  | .gpuMissing => e.gpuMissing
  | .thermalTemp i => e.thermal.thermalTemp[i]?.getD {}
  | .thermalThrottle i => e.thermal.thermalThrottle[i]?.getD {}
  | .rejects413 => e.rejects413.rule
  | .rejects429 => e.rejects429.rule
  | .ompDefaultMismatch => e.ompDefault
  | .diskFull => e.diskFull
  | .diskFullPage => e.diskFullPage
  | .diskGrowth => e.diskGrowth.rule
  | _ => {}

/-- The readings among some that the thermal rules of GPU `i` judge. -/
def readingsOf (cfg : RulesConfig F) (i : ℕ) (gpus : List (GpuObs F)) : List (GpuObs F) :=
  gpus.filter fun g => decide (g.index = i) && !cfg.thermalExclude.contains g.index

/-- Whether the window of a refusal counter grew by too much. -/
def rejectsGrew (points : List (ℤ × ℕ)) (value : ℕ) : Bool :=
  decide (cfg.rejectGrowth < (GrowthWindow.push points o.now value cfg.rejectWindowSecs).2)

/-- The conditions an evaluation judges for a rule, in the order it judges them. -/
def judged (e : Engine F) : RuleKey → List Bool
  | .serveDown | .serveDownPage => [!o.serveUp]
  | .gateDown => [!o.gateUp]
  | .gateChargeErrors => o.gateShadow.toList.map fun sh => decide (0 < sh.chargeErrors)
  | .gateDiscountInert => o.gateShadow.toList.map fun sh =>
      sh.discountInert cfg.discountMinAdmissions
  | .gateColdBudget => (coldBudgetReading o).toList.map fun (inflight, capacity, hit) =>
      F64.le (F64.lit (9 / 10) * F64.ofNat capacity) (F64.ofNat inflight : F) &&
        F64.lt hit cfg.coldBudgetHitRate
  | .queuePressure =>
      [F64.le cfg.queueReqs (if o.benchActive then F64.lit 0 else o.queue.getD (F64.lit 0))]
  | .gateWaiters => [decide (0 < if o.benchActive then 0 else o.trustedWaiters.getD 0)]
  | .gpuMissing => [decide (gpuCount o < max e.gpuCountSeen (gpuCount o))]
  | .thermalTemp i => (readingsOf cfg i (o.gpus.getD [])).map (gpuHot cfg)
  | .thermalThrottle i => (readingsOf cfg i (o.gpus.getD [])).map gpuThrottled
  | .rejects413 => o.rejected413.toList.map (rejectsGrew cfg o e.rejects413.points)
  | .rejects429 => o.rejected429.toList.map (rejectsGrew cfg o e.rejects429.points)
  | .ompDefaultMismatch => [o.ompMismatch.isSome]
  | .diskFull => o.disk.toList.map fun d => diskOver cfg e.diskFull (d.usedPct F) cfg.diskWarnPct
  | .diskFullPage => o.disk.toList.map fun d =>
      diskOver cfg e.diskFullPage (d.usedPct F) cfg.diskPagePct
  | .diskGrowth => o.disk.toList.map fun d =>
      F64.le (cfg.diskGrowthGb * F64.lit 1000000000)
        (F64.ofNat (DiskGrowth.push e.diskGrowth.points o.now d.availBytes
          cfg.diskGrowthSecs).2 : F)
  | _ => []

/-- The judgements of a rule in one evaluation, all made at the time of the observation. -/
def judgements (e : Engine F) (k : RuleKey) : List Judgement :=
  (judged cfg o e k).map fun cond => (o.now, cond)

/-- The machine of a rule. -/
abbrev ruleRun (cfg : RulesConfig F) (k : RuleKey) (s : Sustained) (js : List Judgement) :
    Sustained × List Signal :=
  Machine.run (judge (holdSecs cfg k) cfg.cooldownSecs) s js

/-! ## The thermal rules -/

omit [F64 F] in
theorem readingsOf_excluded {g : GpuObs F} (h : cfg.thermalExclude.contains g.index = true)
    (i : ℕ) : readingsOf cfg i [g] = [] := by
  simp only [readingsOf, List.filter_cons, List.filter_nil, h, Bool.not_true, Bool.and_false,
    Bool.false_eq_true, if_false]

omit [F64 F] in
theorem readingsOf_self {g : GpuObs F} (h : ¬cfg.thermalExclude.contains g.index = true) :
    readingsOf cfg g.index [g] = [g] := by
  simp only [readingsOf, List.filter_cons, List.filter_nil, h, decide_true, Bool.true_and,
    Bool.not_false, if_true]

omit [F64 F] in
theorem readingsOf_other {g : GpuObs F} {i : ℕ} (h : g.index ≠ i) :
    readingsOf cfg i [g] = [] := by
  simp only [readingsOf, List.filter_cons, List.filter_nil, h, decide_false, Bool.false_and,
    Bool.false_eq_true, if_false]

/-- What the reading of one GPU does to the temperature rule of GPU `i`. -/
theorem evalGpu_temp (dt : ℤ) (st : ThermalState F) (g : GpuObs F) (i : ℕ) :
    (evalGpu env cfg o dt st g).1.thermalTemp[i]?.getD {} =
        (ruleRun cfg (.thermalTemp i) (st.thermalTemp[i]?.getD {})
          ((readingsOf cfg i [g]).map fun g => (o.now, gpuHot cfg g))).1 ∧
      signals (.thermalTemp i) (evalGpu env cfg o dt st g).2 =
        (ruleRun cfg (.thermalTemp i) (st.thermalTemp[i]?.getD {})
          ((readingsOf cfg i [g]).map fun g => (o.now, gpuHot cfg g))).2 := by
  unfold evalGpu
  by_cases hex : cfg.thermalExclude.contains g.index = true
  · rw [if_pos hex, readingsOf_excluded cfg hex]
    exact ⟨rfl, rfl⟩
  · rw [if_neg hex]
    unfold judgeGpu
    by_cases hi : g.index = i
    · subst hi
      rw [readingsOf_self cfg hex]
      refine ⟨?_, ?_⟩
      · simp [judge, holdSecs]
      · rw [signals_append, signals_pushEdge, signals_pushEdge_ne (by simp)]
        simp [judge, holdSecs]
    · rw [readingsOf_other cfg hi]
      refine ⟨?_, ?_⟩
      · simp [Std.ExtTreeMap.getElem?_insert, hi]
      · rw [signals_append, signals_pushEdge_ne (by simpa using hi),
          signals_pushEdge_ne (by simp)]
        rfl

/-- What the reading of one GPU does to the throttle rule of GPU `i`. -/
theorem evalGpu_throttle (dt : ℤ) (st : ThermalState F) (g : GpuObs F) (i : ℕ) :
    (evalGpu env cfg o dt st g).1.thermalThrottle[i]?.getD {} =
        (ruleRun cfg (.thermalThrottle i) (st.thermalThrottle[i]?.getD {})
          ((readingsOf cfg i [g]).map fun g => (o.now, gpuThrottled g))).1 ∧
      signals (.thermalThrottle i) (evalGpu env cfg o dt st g).2 =
        (ruleRun cfg (.thermalThrottle i) (st.thermalThrottle[i]?.getD {})
          ((readingsOf cfg i [g]).map fun g => (o.now, gpuThrottled g))).2 := by
  unfold evalGpu
  by_cases hex : cfg.thermalExclude.contains g.index = true
  · rw [if_pos hex, readingsOf_excluded cfg hex]
    exact ⟨rfl, rfl⟩
  · rw [if_neg hex]
    unfold judgeGpu
    by_cases hi : g.index = i
    · subst hi
      rw [readingsOf_self cfg hex]
      refine ⟨?_, ?_⟩
      · simp [judge, holdSecs]
      · rw [signals_append, signals_pushEdge_ne (by simp), signals_pushEdge]
        simp [judge, holdSecs]
    · rw [readingsOf_other cfg hi]
      refine ⟨?_, ?_⟩
      · simp [Std.ExtTreeMap.getElem?_insert, hi]
      · rw [signals_append, signals_pushEdge_ne (by simp),
          signals_pushEdge_ne (by simpa using hi)]
        rfl

/-- What a whole reading does to the thermal rules of a GPU, from what the reading of one GPU
does. -/
theorem run_evalGpu {key : RuleKey} {get : ThermalState F → Sustained} {cond : GpuObs F → Bool}
    {i : ℕ} {dt : ℤ}
    (one : ∀ st g, get (evalGpu env cfg o dt st g).1 = (ruleRun cfg key (get st)
        ((readingsOf cfg i [g]).map fun g => (o.now, cond g))).1 ∧
      signals key (evalGpu env cfg o dt st g).2 = (ruleRun cfg key (get st)
        ((readingsOf cfg i [g]).map fun g => (o.now, cond g))).2)
    (st : ThermalState F) (gpus : List (GpuObs F)) :
    get (Machine.run (evalGpu env cfg o dt) st gpus).1 = (ruleRun cfg key (get st)
        ((readingsOf cfg i gpus).map fun g => (o.now, cond g))).1 ∧
      signals key (Machine.run (evalGpu env cfg o dt) st gpus).2 = (ruleRun cfg key (get st)
        ((readingsOf cfg i gpus).map fun g => (o.now, cond g))).2 := by
  induction gpus generalizing st with
  | nil => exact ⟨rfl, rfl⟩
  | cons g gpus ih =>
      have hsplit : readingsOf cfg i (g :: gpus) = readingsOf cfg i [g] ++ readingsOf cfg i gpus := by
        unfold readingsOf
        rw [← List.filter_append, List.singleton_append]
      obtain ⟨h1, h2⟩ := one st g
      obtain ⟨h3, h4⟩ := ih (evalGpu env cfg o dt st g).1
      rw [hsplit, List.map_append]
      simp only [ruleRun, Machine.run_append, Machine.run_cons, signals_append]
      rw [h3, h4, h1, h2]
      exact ⟨rfl, rfl⟩

/-- The thermal rules of a GPU in a whole evaluation: the digest has no part in them. -/
theorem evalThermal_rule (key : RuleKey) (get : ThermalState F → Sustained)
    (cond : GpuObs F → Bool) (i : ℕ)
    (one : ∀ dt st g, get (evalGpu env cfg o dt st g).1 = (ruleRun cfg key (get st)
        ((readingsOf cfg i [g]).map fun g => (o.now, cond g))).1 ∧
      signals key (evalGpu env cfg o dt st g).2 = (ruleRun cfg key (get st)
        ((readingsOf cfg i [g]).map fun g => (o.now, cond g))).2)
    (frame : ∀ (st : ThermalState F) (d : Digest F), get { st with digest := d } = get st)
    (hkey : key ≠ .thermalDigest) (st : ThermalState F) :
    get (evalThermal env cfg o st).1 = (ruleRun cfg key (get st)
        ((readingsOf cfg i (o.gpus.getD [])).map fun g => (o.now, cond g))).1 ∧
      signals key (evalThermal env cfg o st).2 = (ruleRun cfg key (get st)
        ((readingsOf cfg i (o.gpus.getD [])).map fun g => (o.now, cond g))).2 := by
  unfold evalThermal
  cases o.gpus with
  | none => exact ⟨frame st _, rfl⟩
  | some gpus =>
      obtain ⟨h1, h2⟩ := run_evalGpu env cfg o (one (digestDt o st.digest))
        { st with digest := openDigest o st.digest } gpus
      have hdigest : ∀ d : Digest F, signals key (evalDigest env cfg o d).2 = [] :=
        fun d => signals_eq_nil fun ev hev => by
          rw [rule_of_mem_evalDigest env cfg o hev]
          exact hkey.symm
      have hopen : get { st with digest := openDigest o st.digest } = get st := frame st _
      rw [hopen] at h1 h2
      refine ⟨?_, ?_⟩
      · exact (frame _ _).trans h1
      · rw [signals_append, hdigest, List.append_nil]
        exact h2

/-! ## Every rule -/

omit [F64 F] in
/-- A rule judged once per evaluation. -/
theorem ruleRun_singleton (k : RuleKey) (s : Sustained) (now : ℤ) (cond : Bool) :
    ruleRun cfg k s [(now, cond)] = ((s.step now cond (holdSecs cfg k) cfg.cooldownSecs).1,
      edgeSignal now (s.step now cond (holdSecs cfg k) cfg.cooldownSecs).2) := by
  simp [ruleRun, judge]

/-- A rule that is not a serve rule is its machine, run over the judgements of the
evaluation. -/
theorem evaluate_rule (e : Engine F) {k : RuleKey} (hk : isSustained k = true)
    (hserve : group k ≠ .serve) :
    sustained (evaluate env cfg o e).1 k =
        (ruleRun cfg k (sustained e k) (judgements cfg o e k)).1 ∧
      signals k (evaluate env cfg o e).2 =
        (ruleRun cfg k (sustained e k) (judgements cfg o e k)).2 := by
  rw [signals_evaluate]
  cases k with
  | serveDown | serveDownPage => exact absurd rfl hserve
  | thermalDigest | c1Decode | c1Stale | testAlert => exact absurd hk (by decide)
  | containerRestart role => exact absurd hk (by simp [isSustained])
  | xid label => exact absurd hk (by simp [isSustained])
  | gateDown =>
      refine ⟨?_, ?_⟩
      · rw [judgements, judged, List.map_singleton, ruleRun_singleton]; rfl
      · rw [judgements, judged, List.map_singleton, ruleRun_singleton]
        exact signals_pushEdge _ _ _ _ _ _
  | gpuMissing =>
      refine ⟨?_, ?_⟩
      · rw [judgements, judged, List.map_singleton, ruleRun_singleton]; rfl
      · rw [judgements, judged, List.map_singleton, ruleRun_singleton]
        exact signals_pushEdge _ _ _ _ _ _
  | ompDefaultMismatch =>
      refine ⟨?_, ?_⟩
      · rw [judgements, judged, List.map_singleton, ruleRun_singleton]; rfl
      · rw [judgements, judged, List.map_singleton, ruleRun_singleton]
        exact signals_pushEdge _ _ _ _ _ _
  | queuePressure =>
      refine ⟨?_, ?_⟩
      · rw [judgements, judged, List.map_singleton, ruleRun_singleton]; rfl
      · rw [judgements, judged, List.map_singleton, ruleRun_singleton]
        show signals _ (pushEdge _ _ _ _ _ _ ++ pushEdge _ _ _ _ _ _) = _
        rw [signals_append, signals_pushEdge, signals_pushEdge_ne (by simp), List.append_nil]
        rfl
  | gateWaiters =>
      refine ⟨?_, ?_⟩
      · rw [judgements, judged, List.map_singleton, ruleRun_singleton]; rfl
      · rw [judgements, judged, List.map_singleton, ruleRun_singleton]
        show signals _ (pushEdge _ _ _ _ _ _ ++ pushEdge _ _ _ _ _ _) = _
        rw [signals_append, signals_pushEdge_ne (by simp), signals_pushEdge, List.nil_append]
        rfl
  | gateChargeErrors =>
      simp only [judgements, judged, group, groupEvents, sustained, evaluate, evalCharging]
      cases o.gateShadow with
      | none => exact ⟨rfl, rfl⟩
      | some sh =>
          simp only [Option.toList_some, List.map_singleton, ruleRun_singleton]
          rw [signals_append, signals_pushEdge, signals_pushEdge_ne (by simp), List.append_nil]
          exact ⟨rfl, rfl⟩
  | gateDiscountInert =>
      simp only [judgements, judged, group, groupEvents, sustained, evaluate, evalCharging]
      cases o.gateShadow with
      | none => exact ⟨rfl, rfl⟩
      | some sh =>
          simp only [Option.toList_some, List.map_singleton, ruleRun_singleton]
          rw [signals_append, signals_pushEdge_ne (by simp), signals_pushEdge, List.nil_append]
          exact ⟨rfl, rfl⟩
  | gateColdBudget =>
      simp only [judgements, judged, group, groupEvents, sustained, evaluate, evalColdBudget]
      cases coldBudgetReading o with
      | none => exact ⟨rfl, rfl⟩
      | some r =>
          simp only [Option.toList_some, List.map_singleton, ruleRun_singleton]
          rw [signals_pushEdge]
          exact ⟨rfl, rfl⟩
  | rejects413 =>
      simp only [judgements, judged, group, groupEvents, sustained, evaluate, evalReject]
      cases o.rejected413 with
      | none => exact ⟨rfl, rfl⟩
      | some v =>
          simp only [Option.toList_some, List.map_singleton, ruleRun_singleton]
          rw [signals_pushEdge]
          exact ⟨rfl, rfl⟩
  | rejects429 =>
      simp only [judgements, judged, group, groupEvents, sustained, evaluate, evalReject]
      cases o.rejected429 with
      | none => exact ⟨rfl, rfl⟩
      | some v =>
          simp only [Option.toList_some, List.map_singleton, ruleRun_singleton]
          rw [signals_pushEdge]
          exact ⟨rfl, rfl⟩
  | diskFull =>
      simp only [judgements, judged, group, groupEvents, sustained, evaluate, evalDisk]
      cases o.disk with
      | none => exact ⟨rfl, rfl⟩
      | some d =>
          simp only [Option.toList_some, List.map_singleton, ruleRun_singleton, evalDiskLevel]
          rw [signals_append, signals_append, signals_pushEdge, signals_pushEdge_ne (by simp),
            signals_pushEdge_ne (by simp), List.append_nil, List.append_nil]
          exact ⟨rfl, rfl⟩
  | diskFullPage =>
      simp only [judgements, judged, group, groupEvents, sustained, evaluate, evalDisk]
      cases o.disk with
      | none => exact ⟨rfl, rfl⟩
      | some d =>
          simp only [Option.toList_some, List.map_singleton, ruleRun_singleton, evalDiskLevel]
          rw [signals_append, signals_append, signals_pushEdge_ne (by simp), signals_pushEdge,
            signals_pushEdge_ne (by simp), List.append_nil, List.nil_append]
          exact ⟨rfl, rfl⟩
  | diskGrowth =>
      simp only [judgements, judged, group, groupEvents, sustained, evaluate, evalDisk]
      cases o.disk with
      | none => exact ⟨rfl, rfl⟩
      | some d =>
          simp only [Option.toList_some, List.map_singleton, ruleRun_singleton, evalDiskLevel]
          rw [signals_append, signals_append, signals_pushEdge_ne (by simp),
            signals_pushEdge_ne (by simp), signals_pushEdge, List.append_nil, List.nil_append]
          exact ⟨rfl, rfl⟩
  | thermalTemp i =>
      have h := evalThermal_rule env cfg o (.thermalTemp i)
        (fun st => st.thermalTemp[i]?.getD {}) (gpuHot cfg) i
        (fun dt st g => evalGpu_temp env cfg o dt st g i) (fun _ _ => rfl) (by simp) e.thermal
      simp only [judgements, judged, List.map_map, Function.comp_def]
      exact h
  | thermalThrottle i =>
      have h := evalThermal_rule env cfg o (.thermalThrottle i)
        (fun st => st.thermalThrottle[i]?.getD {}) gpuThrottled i
        (fun dt st g => evalGpu_throttle env cfg o dt st g i) (fun _ _ => rfl) (by simp) e.thermal
      simp only [judgements, judged, List.map_map, Function.comp_def]
      exact h

end

end Lss.Analysis.RuleJudgements
