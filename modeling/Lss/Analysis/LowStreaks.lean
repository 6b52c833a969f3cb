import Lss.Analysis.RuleGroups

/-!
# The probes behind an alert of low decode

The streak names the probes that were judged low since the last one that was not, without those
that were found invalid after they were judged. The alert is sent only over enough of them.
-/

set_option autoImplicit false

namespace Lss.Analysis.LowStreaks

open Lss.Model Lss.Library RuleGroups

/-! ## Runs and their verdicts -/

/-- What happens to the engine: an evaluation, or a repair of the streak. -/
inductive Step (F : Type) where
  | evaluate (o : Observation F)
  | retain (stillValid : ℤ → Bool)

/-- What a step says about probes. -/
inductive Verdict where
  /-- a valid probe is judged low -/
  | low (ts : ℤ)
  /-- a valid probe is judged not to be low -/
  | notLow
  /-- some probes are found to be no valid readings -/
  | repaired (stillValid : ℤ → Bool)
  /-- nothing is judged -/
  | nothing

section Runs

variable {F : Type} [F64 F] (env : Env) (cfg : RulesConfig F)

def step (e : Engine F) : Step F → Engine F × List AlertEvent
  | .evaluate o => evaluate env cfg o e
  | .retain stillValid => ((retainC1Streak e stillValid).1, [])

/-- A probe is judged outside a benchmark, against the baseline in force. -/
def verdict (e : Engine F) : Step F → Verdict
  | .evaluate o =>
    if o.benchActive then .nothing
    else
      match o.probeTokS with
      | none => .nothing
      | some v =>
        match c1Baseline cfg e.c1 with
        | none => .nothing
        | some baseline =>
          if F64.lt v (cfg.c1Ratio * baseline) then .low (o.probeTs.getD o.now) else .notLow
  | .retain stillValid => .repaired stillValid

/-- What the steps of a run say. -/
def verdicts : Engine F → List (Step F) → List Verdict
  | _, [] => []
  | e, s :: steps => verdict cfg e s :: verdicts (step env cfg e s).1 steps

theorem verdicts_concat (e : Engine F) (steps : List (Step F)) (s : Step F) :
    verdicts env cfg e (steps ++ [s]) =
      verdicts env cfg e steps ++ [verdict cfg (Machine.run (step env cfg) e steps).1 s] := by
  induction steps generalizing e with
  | nil => rfl
  | cons first steps ih =>
      rw [List.cons_append]
      unfold verdicts
      rw [ih]
      rfl

/-- The probes that the streak names. -/
def streak (e : Engine F) : List ℤ := e.c1.lowProbes.map Prod.fst

/-- A probe was judged low, none that was judged since was not, and no repair since dropped it. -/
def Evidence (said : List Verdict) (ts : ℤ) : Prop :=
  ∃ before after, said = before ++ .low ts :: after ∧ .notLow ∉ after ∧
    ∀ stillValid, .repaired stillValid ∈ after → stillValid ts = true

/-! ## One step -/

/-- The streak after a verdict. -/
def judge (named : List ℤ) : Verdict → List ℤ
  | .low ts => if ts ∈ named then named else named ++ [ts]
  | .notLow => []
  | .repaired stillValid => named.filter stillValid
  | .nothing => named

omit [F64 F] in
/-- The staleness rule leaves the streak alone. -/
theorem lowProbes_evalC1Stale (o : Observation F) (c1 : C1State F) :
    (evalC1Stale cfg o c1).1.lowProbes = c1.lowProbes := rfl

omit [F64 F] in
theorem map_c1LowProbes (o : Observation F) (c1 : C1State F) (v : F) :
    (c1LowProbes o c1 v).map Prod.fst =
      judge (c1.lowProbes.map Prod.fst) (.low (o.probeTs.getD o.now)) := by
  have named : (c1.lowProbes.any fun p => p.1 == o.probeTs.getD o.now) = true ↔
      o.probeTs.getD o.now ∈ c1.lowProbes.map Prod.fst := by
    simp only [List.any_eq_true, beq_iff_eq, List.mem_map]
  unfold c1LowProbes judge
  dsimp only
  by_cases h : o.probeTs.getD o.now ∈ c1.lowProbes.map Prod.fst
  · rw [if_pos (named.mpr h), if_pos h]
  · rw [if_neg (mt named.mp h), if_neg h, List.map_append]
    rfl

theorem lowProbes_c1Low (o : Observation F) (c1 : C1State F) (v baseline floor : F) :
    (c1Low env cfg o c1 v baseline floor).1.lowProbes = c1LowProbes o c1 v := by
  unfold c1Low
  dsimp only
  split
  · rfl
  · rfl

/-- A valid probe changes the streak as its verdict says. -/
theorem lowProbes_c1Probe (o : Observation F) (c1 : C1State F) (v : F) :
    (c1Probe env cfg o c1 v).1.lowProbes.map Prod.fst =
      judge (c1.lowProbes.map Prod.fst)
        (match c1Baseline cfg c1 with
          | none => .nothing
          | some baseline =>
            if F64.lt v (cfg.c1Ratio * baseline) then .low (o.probeTs.getD o.now)
            else .notLow) := by
  have same : c1Baseline cfg { c1 with validated := true, lastValidTs := some o.now } =
      c1Baseline cfg c1 := rfl
  unfold c1Probe
  dsimp only at same ⊢
  rw [same]
  cases c1Baseline cfg c1 with
  | none => rfl
  | some baseline =>
      dsimp only
      split
      · rw [lowProbes_c1Low]
        exact map_c1LowProbes o _ v
      · rfl

theorem streak_step (e : Engine F) (s : Step F) :
    streak (step env cfg e s).1 = judge (streak e) (verdict cfg e s) := by
  cases s with
  | retain stillValid =>
      show (List.filter (fun p => stillValid p.1) e.c1.lowProbes).map Prod.fst =
        (e.c1.lowProbes.map Prod.fst).filter stillValid
      rw [List.filter_map]
      rfl
  | evaluate o =>
      show (evalC1 env cfg o e.c1).1.lowProbes.map Prod.fst = _
      unfold evalC1 verdict streak
      dsimp only
      split
      · rfl
      · rw [lowProbes_evalC1Stale]
        unfold evalC1Decode
        cases o.probeTokS with
        | none => rfl
        | some v => exact lowProbes_c1Probe env cfg o e.c1 v

/-! ## A run -/

theorem nodup_judge {named : List ℤ} (h : named.Nodup) (v : Verdict) : (judge named v).Nodup := by
  cases v with
  | low ts =>
      show (if ts ∈ named then named else named ++ [ts]).Nodup
      split
      · exact h
      · rename_i fresh
        exact List.nodup_append.mpr ⟨h, List.nodup_cons.mpr ⟨List.not_mem_nil, List.nodup_nil⟩,
          fun a ha b hb same => fresh (List.mem_singleton.mp hb ▸ same ▸ ha)⟩
  | notLow => exact List.nodup_nil
  | repaired stillValid => exact h.filter _
  | nothing => exact h

/-- What a verdict leaves of what was named before. -/
def Spares (v : Verdict) (ts : ℤ) : Prop :=
  v ≠ .notLow ∧ ∀ stillValid, v = .repaired stillValid → stillValid ts = true

theorem evidence_concat (said : List Verdict) (v : Verdict) (ts : ℤ) :
    Evidence (said ++ [v]) ts ↔ v = .low ts ∨ (Evidence said ts ∧ Spares v ts) := by
  constructor
  · rintro ⟨before, after, split, clean, valid⟩
    rcases List.eq_nil_or_concat after with rfl | ⟨after, last, rfl⟩
    · exact .inl (List.append_inj' split rfl |>.2 |> List.cons.inj |>.1)
    · rw [List.concat_eq_append] at split clean valid
      rw [← List.cons_append, ← List.append_assoc] at split
      obtain ⟨rfl, same⟩ := List.append_inj' split rfl
      obtain rfl := (List.cons.inj same).1
      refine .inr ⟨⟨before, after, rfl, ?_, ?_⟩, ?_, ?_⟩
      · exact fun h => clean (List.mem_append_left _ h)
      · exact fun p h => valid p (List.mem_append_left _ h)
      · exact fun h => clean (List.mem_append_right _ (h ▸ List.mem_singleton_self _))
      · exact fun p h => valid p (List.mem_append_right _ (h ▸ List.mem_singleton_self _))
  · rintro (rfl | ⟨⟨before, after, rfl, clean, valid⟩, spared, kept⟩)
    · exact ⟨said, [], rfl, List.not_mem_nil, fun _ h => absurd h List.not_mem_nil⟩
    · refine ⟨before, after ++ [v], by rw [List.append_assoc, List.cons_append], ?_, ?_⟩
      · intro h
        rcases List.mem_append.mp h with h | h
        · exact clean h
        · exact spared (List.mem_singleton.mp h).symm
      · intro p h
        rcases List.mem_append.mp h with h | h
        · exact valid p h
        · exact kept p (List.mem_singleton.mp h).symm

theorem mem_judge (named : List ℤ) (v : Verdict) (ts : ℤ) :
    ts ∈ judge named v ↔ v = .low ts ∨ (ts ∈ named ∧ Spares v ts) := by
  cases v with
  | low t =>
      have spares : Spares (.low t) ts := ⟨nofun, nofun⟩
      have same : Verdict.low t = .low ts ↔ ts = t := by
        rw [Verdict.low.injEq]
        exact eq_comm
      rw [same, and_iff_left spares]
      show ts ∈ (if t ∈ named then named else named ++ [t]) ↔ _
      split
      · rename_i known
        exact ⟨.inr, fun h => h.elim (fun h => h ▸ known) id⟩
      · rw [List.mem_append, List.mem_singleton, or_comm]
  | notLow =>
      refine iff_of_false List.not_mem_nil ?_
      rintro (h | h)
      · cases h
      · exact h.2.1 rfl
  | repaired stillValid =>
      show ts ∈ named.filter stillValid ↔ _
      rw [List.mem_filter]
      constructor
      · exact fun h => .inr ⟨h.1, nofun, fun p hp => Verdict.repaired.inj hp ▸ h.2⟩
      · rintro (h | h)
        · cases h
        · exact ⟨h.1, h.2.2 stillValid rfl⟩
  | nothing =>
      refine ⟨fun h => .inr ⟨h, nofun, nofun⟩, ?_⟩
      rintro (h | h)
      · cases h
      · exact h.1

/-- After every run the streak names each probe once, and those that are evidence. -/
theorem streak_run (steps : List (Step F)) :
    (streak (Machine.run (step env cfg) {} steps).1).Nodup ∧
      ∀ ts, ts ∈ streak (Machine.run (step env cfg) {} steps).1 ↔
        Evidence (verdicts env cfg {} steps) ts := by
  induction steps using List.reverseRecOn with
  | nil =>
      refine ⟨List.nodup_nil, fun ts => iff_of_false List.not_mem_nil ?_⟩
      rintro ⟨before, after, split, _⟩
      exact List.append_ne_nil_of_right_ne_nil before (List.cons_ne_nil _ _) split.symm
  | append_singleton steps s ih =>
      rw [Machine.run_concat, streak_step, verdicts_concat]
      refine ⟨nodup_judge ih.1 _, fun ts => ?_⟩
      rw [mem_judge, evidence_concat, ih.2]

/-- The alert of low decode is sent over a streak that is long enough. -/
theorem length_of_c1Low (o : Observation F) (c1 : C1State F) (v baseline floor : F)
    {ev : AlertEvent} (sent : ev ∈ (c1Low env cfg o c1 v baseline floor).2) :
    cfg.c1Consecutive ≤ (c1Low env cfg o c1 v baseline floor).1.lowProbes.length := by
  rw [lowProbes_c1Low]
  unfold c1Low at sent
  dsimp only at sent
  split at sent
  · rename_i enough
    rw [Bool.and_eq_true, Bool.and_eq_true] at enough
    exact of_decide_eq_true enough.1.1
  · exact absurd sent List.not_mem_nil

theorem length_of_c1Probe (o : Observation F) (c1 : C1State F) (v : F) {ev : AlertEvent}
    (sent : ev ∈ (c1Probe env cfg o c1 v).2) (fires : ev.recovered = false) :
    cfg.c1Consecutive ≤ (c1Probe env cfg o c1 v).1.lowProbes.length := by
  unfold c1Probe at sent ⊢
  dsimp only at sent ⊢
  split
  · rename_i baseline inForce
    rw [inForce] at sent
    dsimp only at sent
    split
    · rename_i low
      rw [if_pos low] at sent
      exact length_of_c1Low env cfg o _ v _ _ sent
    · rename_i high
      rw [if_neg high] at sent
      dsimp only at sent
      split at sent
      · rw [List.mem_singleton.mp sent] at fires
        cases fires
      · exact absurd sent List.not_mem_nil
  · rename_i learning
    rw [learning] at sent
    exact absurd sent List.not_mem_nil

theorem length_of_fires (e : Engine F) (s : Step F) {ev : AlertEvent}
    (sent : ev ∈ (step env cfg e s).2) (rule : ev.rule = .c1Decode)
    (fires : ev.recovered = false) :
    cfg.c1Consecutive ≤ (streak (step env cfg e s).1).length := by
  cases s with
  | retain stillValid => exact absurd sent List.not_mem_nil
  | evaluate o =>
      have of_group : ev ∈ (evalC1 env cfg o e.c1).2 := by
        have events := evaluate_filter_group env cfg o e .c1
        show ev ∈ groupEvents env cfg o e .c1
        rw [← events, List.mem_filter, rule]
        exact ⟨sent, rfl⟩
      show cfg.c1Consecutive ≤ ((evalC1 env cfg o e.c1).1.lowProbes.map Prod.fst).length
      rw [List.length_map]
      unfold evalC1 at of_group ⊢
      split
      · rename_i bench
        rw [if_pos bench] at of_group
        exact absurd of_group List.not_mem_nil
      · rename_i idle
        rw [if_neg idle] at of_group
        dsimp only at of_group ⊢
        rw [lowProbes_evalC1Stale]
        rcases List.mem_append.mp of_group with decode | stale
        · unfold evalC1Decode at decode ⊢
          cases valid : o.probeTokS with
          | none =>
              rw [valid] at decode
              exact absurd decode List.not_mem_nil
          | some v =>
              rw [valid] at decode
              exact length_of_c1Probe env cfg o e.c1 v decode fires
        · rw [rule_of_mem_evalC1Stale cfg o stale] at rule
          cases rule

/-- An alert of low decode has named evidence: after every run of evaluations and repairs the
streak is exactly the probes that were judged low since the last one that was not, without those
that a repair dropped since, and the alert is sent over enough of them. -/
theorem c1_decode_has_evidence (steps : List (Step F)) :
    let reached := (Machine.run (step env cfg) {} steps).1
    (streak reached).Nodup ∧
      (∀ ts, ts ∈ streak reached ↔ Evidence (verdicts env cfg {} steps) ts) ∧
      ∀ s, ∀ ev ∈ (step env cfg reached s).2, ev.rule = .c1Decode → ev.recovered = false →
        cfg.c1Consecutive ≤ (streak (step env cfg reached s).1).length := by
  have run := streak_run env cfg steps
  exact ⟨run.1, run.2, fun s ev sent rule fires => length_of_fires env cfg _ s sent rule fires⟩

end Runs

end Lss.Analysis.LowStreaks
