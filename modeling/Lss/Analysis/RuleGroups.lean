import Lss.Analysis.SustainedRule

/-!
# The rules of one evaluation, one at a time

An evaluation concatenates the events of independent groups of rules. This file takes it
apart again: the events of one rule come from the group of that rule alone, and for every
rule that is built on `Sustained` they are the signals of the machine of
`Lss.Analysis.SustainedRule`, run over the judgements the evaluation makes.
-/

set_option autoImplicit false

namespace Lss.Analysis.RuleGroups

open Lss.Library Lss.Model Lss.Analysis.SustainedRule

/-! ## Groups -/

/-- The groups of rules that one evaluation goes through. -/
inductive Group where
  | serve
  | gate
  | restarts
  | xids
  | queue
  | missing
  | thermal
  | c1
  | rejects413
  | rejects429
  | omp
  | charging
  | cold
  | disk
  | test
deriving DecidableEq

/-- The groups in the order of an evaluation. -/
def Group.all : List Group :=
  [.serve, .gate, .restarts, .xids, .queue, .missing, .thermal, .c1, .rejects413, .rejects429,
    .omp, .charging, .cold, .disk, .test]

theorem Group.mem_all (g : Group) : g ∈ Group.all := by cases g <;> decide

theorem Group.nodup_all : Group.all.Nodup := by decide

/-- The group a rule is evaluated in. -/
def group : RuleKey → Group
  | .serveDown | .serveDownPage => .serve
  | .gateDown => .gate
  | .gateChargeErrors | .gateDiscountInert => .charging
  | .gateColdBudget => .cold
  | .queuePressure | .gateWaiters => .queue
  | .gpuMissing => .missing
  | .thermalTemp _ | .thermalThrottle _ | .thermalDigest => .thermal
  | .rejects413 => .rejects413
  | .rejects429 => .rejects429
  | .c1Decode | .c1Stale => .c1
  | .ompDefaultMismatch => .omp
  | .diskFull | .diskFullPage | .diskGrowth => .disk
  | .containerRestart _ => .restarts
  | .xid _ => .xids
  | .testAlert => .test

section

variable {F : Type} [F64 F] (env : Env) (cfg : RulesConfig F) (o : Observation F)

/-- The events of one group of an evaluation. -/
def groupEvents (e : Engine F) : Group → List AlertEvent
  | .serve => (evalServeDown cfg o e.serveDown e.serveDownPage).2
  | .gate => (evalGateDown cfg o e.gateDown).2
  | .restarts => (evalRestarts cfg o e.restarts).2
  | .xids => (evalXids cfg o (evalRestarts cfg o e.restarts).1.eventLastSent).2
  | .queue => (evalQueue cfg o e.queue e.waiters).2
  | .missing => (evalGpuMissing cfg o e.gpuMissing e.gpuCountSeen).2
  | .thermal => (evalThermal env cfg o e.thermal).2
  | .c1 => (evalC1 env cfg o e.c1).2
  | .rejects413 => (evalReject cfg o .rejects413 "413" o.rejected413 e.rejects413).2
  | .rejects429 => (evalReject cfg o .rejects429 "429" o.rejected429 e.rejects429).2
  | .omp => (evalOmpDefault cfg o e.ompDefault).2
  | .charging => (evalCharging cfg o e.chargeErrors e.discountInert).2
  | .cold => (evalColdBudget cfg o e.coldBudget).2
  | .disk => (evalDisk cfg o e.diskFull e.diskFullPage e.diskGrowth).2
  | .test => evalTestAlerts o

theorem evaluate_events (e : Engine F) :
    (evaluate env cfg o e).2 = Group.all.flatMap (groupEvents env cfg o e) := by
  simp only [evaluate, Group.all, List.flatMap_cons, List.flatMap_nil, groupEvents,
    List.append_nil, List.append_assoc]

/-! ## Which rules a group sends for -/

theorem rule_of_mem_pushEdge {ed : Edge} {now : ℤ} {k : RuleKey} {sev : Severity}
    {fire recover : String} {ev : AlertEvent} (h : ev ∈ pushEdge ed now k sev fire recover) :
    ev.rule = k := by
  cases ed <;> simp [pushEdge] at h <;> simp [h]

omit [F64 F] in
theorem group_evalServeDown {s p : Sustained} {ev : AlertEvent}
    (h : ev ∈ (evalServeDown cfg o s p).2) : group ev.rule = .serve := by
  simp only [evalServeDown, List.mem_append] at h
  rcases h with (h | h) | h
  · split at h <;> simp at h; simp [h, group]
  · split at h <;> simp at h; simp [h, group]
  · split at h <;> simp at h; simp [h, group]

omit [F64 F] in
theorem group_noteRestart {st : RestartState} {r : RestartObs} {ev : AlertEvent}
    (h : ev ∈ (noteRestart cfg o st r).2) : group ev.rule = .restarts := by
  unfold noteRestart at h
  split at h
  · rw [List.mem_singleton.1 h]
    rfl
  · split at h <;> simp at h

omit [F64 F] in
theorem group_evalRestarts {st : RestartState} {ev : AlertEvent}
    (h : ev ∈ (evalRestarts cfg o st).2) : group ev.rule = .restarts := by
  simp only [evalRestarts, List.mem_append] at h
  rcases h with h | h
  · obtain ⟨_, _, _, _, h⟩ := Machine.mem_run _ h
    exact group_noteRestart cfg o h
  · obtain ⟨_, _, _, _, h⟩ := Machine.mem_run _ h
    simp only [settleRestart, List.mem_singleton] at h
    rw [h]; rfl

omit [F64 F] in
theorem group_evalXids {sent : Std.ExtTreeMap String ℤ} {ev : AlertEvent}
    (h : ev ∈ (evalXids cfg o sent).2) : group ev.rule = .xids := by
  obtain ⟨_, x, _, _, h⟩ := Machine.mem_run _ h
  simp only [noteXid] at h
  split at h
  · rw [List.mem_singleton.1 h]
    unfold xidRuleKey
    cases x.gpu <;> rfl
  · simp at h

theorem group_evalGpu {dt : ℤ} {st : ThermalState F} {g : GpuObs F} {ev : AlertEvent}
    (h : ev ∈ (evalGpu env cfg o dt st g).2) : group ev.rule = .thermal := by
  unfold evalGpu at h
  split at h
  · simp at h
  · unfold judgeGpu at h
    rcases List.mem_append.1 h with h | h
    · rw [rule_of_mem_pushEdge h]; rfl
    · rw [rule_of_mem_pushEdge h]; rfl

theorem rule_of_mem_evalDigest {d : Digest F} {ev : AlertEvent}
    (h : ev ∈ (evalDigest env cfg o d).2) : ev.rule = .thermalDigest := by
  unfold evalDigest at h
  split at h
  · dsimp only at h
    split at h
    · simp at h
    · rw [List.mem_singleton.1 h]; rfl
  · simp at h

theorem group_evalThermal {st : ThermalState F} {ev : AlertEvent}
    (h : ev ∈ (evalThermal env cfg o st).2) : group ev.rule = .thermal := by
  unfold evalThermal at h
  split at h
  · simp at h
  · rcases List.mem_append.1 h with h | h
    · obtain ⟨_, _, _, _, h⟩ := Machine.mem_run _ h
      exact group_evalGpu env cfg o h
    · rw [rule_of_mem_evalDigest env cfg o h]; rfl

theorem rule_of_mem_c1Low {c1 : C1State F} {v baseline floor : F} {ev : AlertEvent}
    (h : ev ∈ (c1Low env cfg o c1 v baseline floor).2) : ev.rule = .c1Decode := by
  unfold c1Low at h
  dsimp only at h
  split at h
  · rw [List.mem_singleton.1 h]; rfl
  · simp at h

theorem rule_of_mem_c1Probe {c1 : C1State F} {v : F} {ev : AlertEvent}
    (h : ev ∈ (c1Probe env cfg o c1 v).2) : ev.rule = .c1Decode := by
  unfold c1Probe at h
  dsimp only at h
  split at h
  · split at h
    · exact rule_of_mem_c1Low env cfg o h
    · dsimp only at h
      split at h
      · rw [List.mem_singleton.1 h]; rfl
      · simp at h
  · simp at h

omit [F64 F] in
theorem rule_of_mem_evalC1Stale {c1 : C1State F} {ev : AlertEvent}
    (h : ev ∈ (evalC1Stale cfg o c1).2) : ev.rule = .c1Stale := by
  unfold evalC1Stale at h
  rcases List.mem_append.1 h with h | h
  · split at h
    · simp at h
    · split at h
      · rw [List.mem_singleton.1 h]; rfl
      · rw [List.mem_singleton.1 h]; rfl
      · simp at h
  · split at h
    · rw [List.mem_singleton.1 h]; rfl
    · simp at h

theorem rule_of_mem_evalC1Decode {c1 : C1State F} {ev : AlertEvent}
    (h : ev ∈ (evalC1Decode env cfg o c1).2) : ev.rule = .c1Decode := by
  unfold evalC1Decode at h
  split at h
  · simp at h
  · exact rule_of_mem_c1Probe env cfg o h

theorem group_evalC1 {c1 : C1State F} {ev : AlertEvent}
    (h : ev ∈ (evalC1 env cfg o c1).2) : group ev.rule = .c1 := by
  unfold evalC1 at h
  split at h
  · simp at h
  · rcases List.mem_append.1 h with h | h
    · rw [rule_of_mem_evalC1Decode env cfg o h]; rfl
    · rw [rule_of_mem_evalC1Stale cfg o h]; rfl

omit [F64 F] in
theorem rule_of_mem_evalReject {k : RuleKey} {code : String} {value : Option ℕ}
    {win : GrowthWindow} {ev : AlertEvent} (h : ev ∈ (evalReject cfg o k code value win).2) :
    ev.rule = k := by
  unfold evalReject at h
  split at h
  · simp at h
  · exact rule_of_mem_pushEdge h

omit [F64 F] in
theorem group_evalCharging {s t : Sustained} {ev : AlertEvent}
    (h : ev ∈ (evalCharging cfg o s t).2) : group ev.rule = .charging := by
  unfold evalCharging at h
  split at h
  · simp at h
  · rcases List.mem_append.1 h with h | h
    · rw [rule_of_mem_pushEdge h]; rfl
    · rw [rule_of_mem_pushEdge h]; rfl

theorem rule_of_mem_evalColdBudget {s : Sustained} {ev : AlertEvent}
    (h : ev ∈ (evalColdBudget cfg o s).2) : ev.rule = .gateColdBudget := by
  unfold evalColdBudget at h
  split at h
  · simp at h
  · exact rule_of_mem_pushEdge h

theorem group_evalDisk {s t : Sustained} {g : DiskGrowth} {ev : AlertEvent}
    (h : ev ∈ (evalDisk cfg o s t g).2) : group ev.rule = .disk := by
  unfold evalDisk at h
  split at h
  · simp at h
  · simp only [List.mem_append, evalDiskLevel] at h
    rcases h with (h | h) | h
    · rw [rule_of_mem_pushEdge h]; rfl
    · rw [rule_of_mem_pushEdge h]; rfl
    · rw [rule_of_mem_pushEdge h]; rfl

/-- Every event of a group is an event of a rule of that group. -/
theorem group_of_mem {e : Engine F} {g : Group} {ev : AlertEvent}
    (h : ev ∈ groupEvents env cfg o e g) : group ev.rule = g := by
  cases g with
  | serve => exact group_evalServeDown cfg o h
  | gate => rw [rule_of_mem_pushEdge h]; rfl
  | restarts => exact group_evalRestarts cfg o h
  | xids => exact group_evalXids cfg o h
  | queue =>
      rcases List.mem_append.1 h with h | h
      · rw [rule_of_mem_pushEdge h]; rfl
      · rw [rule_of_mem_pushEdge h]; rfl
  | missing => rw [rule_of_mem_pushEdge h]; rfl
  | thermal => exact group_evalThermal env cfg o h
  | c1 => exact group_evalC1 env cfg o h
  | rejects413 => rw [rule_of_mem_evalReject cfg o h]; rfl
  | rejects429 => rw [rule_of_mem_evalReject cfg o h]; rfl
  | omp => rw [rule_of_mem_pushEdge h]; rfl
  | charging => exact group_evalCharging cfg o h
  | cold => rw [rule_of_mem_evalColdBudget cfg o h]; rfl
  | disk => exact group_evalDisk cfg o h
  | test =>
      obtain ⟨m, -, rfl⟩ := List.mem_map.1 h
      rfl

/-- Picking one of several lists that are told apart by a label. -/
theorem filter_flatMap_of_label {α β : Type} [DecidableEq β] (f : β → List α) (label : α → β)
    (hlabel : ∀ g, ∀ a ∈ f g, label a = g) (g : β) {gs : List β} (hg : g ∈ gs)
    (hnodup : gs.Nodup) :
    (gs.flatMap f).filter (fun a => decide (label a = g)) = f g := by
  have other : ∀ hs : List β, g ∉ hs →
      (hs.flatMap f).filter (fun a => decide (label a = g)) = [] := by
    intro hs hmem
    refine List.filter_eq_nil_iff.2 fun a ha => ?_
    obtain ⟨g', hg', ha'⟩ := List.mem_flatMap.1 ha
    intro heq
    have : g' = g := (hlabel g' a ha').symm.trans (by simpa using heq)
    exact hmem (this ▸ hg')
  obtain ⟨pre, post, rfl⟩ := List.append_of_mem hg
  have hsplit := List.nodup_append.1 hnodup
  have hpre : g ∉ pre := fun h => hsplit.2.2 g h g (by simp) rfl
  have hpost : g ∉ post := (List.nodup_cons.1 hsplit.2.1).1
  have hself : (f g).filter (fun a => decide (label a = g)) = f g :=
    List.filter_eq_self.2 fun a ha => by simp [hlabel g a ha]
  rw [List.flatMap_append, List.flatMap_cons, List.filter_append, List.filter_append,
    other pre hpre, other post hpost, hself]
  simp

/-- The events of a group, picked out of an evaluation. -/
theorem evaluate_filter_group (e : Engine F) (g : Group) :
    (evaluate env cfg o e).2.filter (fun ev => decide (group ev.rule = g)) =
      groupEvents env cfg o e g := by
  have h := filter_flatMap_of_label (groupEvents env cfg o e) (fun ev => group ev.rule)
    (fun g ev h => group_of_mem env cfg o h) g (Group.mem_all g) Group.nodup_all
  rw [evaluate_events]
  exact h

/-! ## The signals of one rule -/

/-- The signals of one rule in a log. -/
def signals (k : RuleKey) (log : List AlertEvent) : List Signal :=
  (log.filter fun ev => decide (ev.rule = k)).map fun ev => (ev.ts, ev.recovered)

@[simp] theorem signals_nil (k : RuleKey) : signals k [] = [] := rfl

@[simp] theorem signals_append (k : RuleKey) (log log' : List AlertEvent) :
    signals k (log ++ log') = signals k log ++ signals k log' := by
  simp [signals]

/-- Events of other rules give no signal. -/
theorem signals_eq_nil {k : RuleKey} {log : List AlertEvent} (h : ∀ ev ∈ log, ev.rule ≠ k) :
    signals k log = [] := by
  unfold signals
  rw [List.filter_eq_nil_iff.2 fun ev hev => by simp [h ev hev]]
  rfl

theorem signals_pushEdge (k : RuleKey) (ed : Edge) (now : ℤ) (sev : Severity)
    (fire recover : String) :
    signals k (pushEdge ed now k sev fire recover) = edgeSignal now ed := by
  cases ed <;> simp [signals, pushEdge, edgeSignal]

theorem signals_pushEdge_ne {k k' : RuleKey} (h : k' ≠ k) (ed : Edge) (now : ℤ)
    (sev : Severity) (fire recover : String) :
    signals k (pushEdge ed now k' sev fire recover) = [] :=
  signals_eq_nil fun ev hev => by rw [rule_of_mem_pushEdge hev]; exact h

/-- The events of a rule are picked out of an evaluation by picking its group first. -/
theorem filter_rule_eq (log : List AlertEvent) (k : RuleKey) :
    log.filter (fun ev => decide (ev.rule = k)) =
      (log.filter fun ev => decide (group ev.rule = group k)).filter
        (fun ev => decide (ev.rule = k)) := by
  rw [List.filter_filter]
  refine List.filter_congr fun ev _ => ?_
  by_cases h : ev.rule = k
  · simp [h]
  · simp [h]

/-- The signals of a rule come from its own group. -/
theorem signals_evaluate (e : Engine F) (k : RuleKey) :
    signals k (evaluate env cfg o e).2 = signals k (groupEvents env cfg o e (group k)) := by
  unfold signals
  rw [filter_rule_eq, evaluate_filter_group]

end

end Lss.Analysis.RuleGroups
