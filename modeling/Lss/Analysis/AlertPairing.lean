import Lss.Analysis.EventRules

/-!
# Alerts are paired over whole runs

What a person who reads the messages of the collector may rely on, for every configuration
and every sequence of observations in order of time, from a fresh engine. A recovery follows
a fire of its family; a rule that fired does not fire again before a recovery of its family;
two fires of a rule are a cooldown apart; and a sustained rule fires only when its condition
has held for the rule's hold time.

The page escalation of the serve rule is a rule of its own that shares the recovery of the
warning. Between two fires of one of these two rules there is at least one recovery, and
there may be more: the other rule may have fired and recovered meanwhile. For every other
rule there is exactly one.
-/

set_option autoImplicit false

namespace Lss.Analysis.AlertPairing

open Lss.Library Lss.Model Lss.Analysis.SustainedRule Lss.Analysis.RuleGroups
  Lss.Analysis.RuleJudgements Lss.Analysis.RuleRuns Lss.Analysis.EventRules

/-! ## Families -/

/-- The family of a rule: the two serve rules are one family, every other rule is its own. -/
def family : RuleKey → RuleKey
  | .serveDownPage => .serveDown
  | k => k

/-- The rules whose messages are paired. -/
def isPaired : RuleKey → Bool
  | .c1Stale | .thermalDigest | .testAlert => false
  | _ => true

/-- Whether an event is a fire of a rule. -/
def firesKey (k : RuleKey) (ev : AlertEvent) : Bool := decide (ev.rule = k) && !ev.recovered

/-- Whether an event is a fire of a family. -/
def firesFamily (fam : RuleKey) (ev : AlertEvent) : Bool :=
  decide (family ev.rule = fam) && !ev.recovered

/-- Whether an event is a recovery of a family. -/
def recoversFamily (fam : RuleKey) (ev : AlertEvent) : Bool :=
  decide (family ev.rule = fam) && ev.recovered

/-- The times at which a rule fired in a log. -/
def fireTimesOf (k : RuleKey) (log : List AlertEvent) : List ℤ :=
  (log.filter (firesKey k)).map AlertEvent.ts

theorem family_eq_iff {k : RuleKey} (hk : group k ≠ .serve) (k' : RuleKey) :
    family k' = family k ↔ k' = k := by
  cases k' <;> cases k <;> simp_all [family, group]

theorem firesKey_disjoint (k fam : RuleKey) (ev : AlertEvent) (h : firesKey k ev = true) :
    recoversFamily fam ev = false := by
  simp only [firesKey, Bool.and_eq_true, Bool.not_eq_true'] at h
  simp [recoversFamily, h.2]

/-- The fires of a rule, read off its signals. -/
theorem fireTimesOf_eq (k : RuleKey) (log : List AlertEvent) :
    fireTimesOf k log = fireTimes (signals k log) := by
  unfold fireTimesOf fireTimes signals
  rw [List.filter_map, List.filter_filter, List.map_map]
  refine congrArg (List.map AlertEvent.ts) (List.filter_congr fun ev _ => ?_)
  simp [firesKey, isFire, Bool.and_comm]

/-! ## From the signals of a rule to the log -/

section Single

variable {k : RuleKey} (hk : group k ≠ .serve) {log : List AlertEvent}
include hk

theorem firesFamily_eq (ev : AlertEvent) : firesFamily (family k) ev = firesKey k ev := by
  simp only [firesFamily, firesKey, family_eq_iff hk]

theorem recoversFamily_eq (ev : AlertEvent) :
    recoversFamily (family k) ev = (decide (ev.rule = k) && isRecovery (ev.ts, ev.recovered)) := by
  simp only [recoversFamily, family_eq_iff hk, isRecovery]

theorem paired_of_signals (h : AlertLog.PairedFrom isFire isRecovery false (signals k log)) :
    AlertLog.Paired (firesFamily (family k)) (recoversFamily (family k)) log := by
  refine AlertLog.paired_of_pairedFrom ((AlertLog.pairedFrom_project ?_ ?_ false log).1 h)
  · intro ev
    rw [firesFamily_eq hk]
    rfl
  · exact recoversFamily_eq hk

theorem separated_of_signals
    (h : AlertLog.SeparatedFrom isFire isRecovery false (signals k log)) :
    AlertLog.Separated (firesKey k) (recoversFamily (family k)) log := by
  refine AlertLog.separated_of_separatedFrom (firesKey_disjoint k (family k))
    ((AlertLog.separatedFrom_project ?_ ?_ false log).1 h)
  · intro ev
    rfl
  · exact recoversFamily_eq hk

end Single

/-! ## The serve family -/

/-- What pairing of the serve family rests on, for a log and whether the two serve rules are
announced. -/
structure ServeTracked (warn page : Bool) (log : List AlertEvent) : Prop where
  paired : AlertLog.PairedFrom (firesFamily .serveDown) (recoversFamily .serveDown) false log
  outstanding : AlertLog.outstandingFrom (firesFamily .serveDown) (recoversFamily .serveDown)
    false log = (warn || page)
  warnSeparated : AlertLog.SeparatedFrom (firesKey .serveDown) (recoversFamily .serveDown)
    false log
  warnOutstanding : AlertLog.outstandingFrom (firesKey .serveDown) (recoversFamily .serveDown)
    false log = warn
  pageSeparated : AlertLog.SeparatedFrom (firesKey .serveDownPage) (recoversFamily .serveDown)
    false log
  pageOutstanding : AlertLog.outstandingFrom (firesKey .serveDownPage)
    (recoversFamily .serveDown) false log = page

/-- One more event of the serve family. -/
theorem ServeTracked.concat {warn page warn' page' : Bool} {log : List AlertEvent}
    (h : ServeTracked warn page log) (ev : AlertEvent)
    (paired : recoversFamily .serveDown ev = true → (warn || page) = true)
    (warnNew : firesKey .serveDown ev = true → warn = false)
    (pageNew : firesKey .serveDownPage ev = true → page = false)
    (next : (if recoversFamily .serveDown ev then false
      else if firesFamily .serveDown ev then true else warn || page) = (warn' || page'))
    (warnNext : (if recoversFamily .serveDown ev then false
      else if firesKey .serveDown ev then true else warn) = warn')
    (pageNext : (if recoversFamily .serveDown ev then false
      else if firesKey .serveDownPage ev then true else page) = page') :
    ServeTracked warn' page' (log ++ [ev]) where
  paired := by
    rw [AlertLog.pairedFrom_append, h.outstanding]
    exact ⟨h.paired, paired, trivial⟩
  outstanding := by
    rw [AlertLog.outstandingFrom_append, h.outstanding]
    exact next
  warnSeparated := by
    rw [AlertLog.separatedFrom_append, h.warnOutstanding]
    exact ⟨h.warnSeparated, fun hf _ => warnNew hf, trivial⟩
  warnOutstanding := by
    rw [AlertLog.outstandingFrom_append, h.warnOutstanding]
    exact warnNext
  pageSeparated := by
    rw [AlertLog.separatedFrom_append, h.pageOutstanding]
    exact ⟨h.pageSeparated, fun hf _ => pageNew hf, trivial⟩
  pageOutstanding := by
    rw [AlertLog.outstandingFrom_append, h.pageOutstanding]
    exact pageNext

theorem ServeTracked.fireWarn {page : Bool} {log : List AlertEvent}
    (h : ServeTracked false page log) (ts : ℤ) (m : String) :
    ServeTracked true page (log ++ [alert ts .serveDown .warn false m]) := by
  refine h.concat _ ?_ ?_ ?_ ?_ ?_ ?_ <;>
    simp [firesFamily, firesKey, recoversFamily, family]

theorem ServeTracked.firePage {warn : Bool} {log : List AlertEvent}
    (h : ServeTracked warn false log) (ts : ℤ) (m : String) :
    ServeTracked warn true (log ++ [alert ts .serveDownPage .page false m]) := by
  refine h.concat _ ?_ ?_ ?_ ?_ ?_ ?_ <;>
    simp [firesFamily, firesKey, recoversFamily, family]

theorem ServeTracked.recover {warn page : Bool} {log : List AlertEvent}
    (h : ServeTracked warn page log) (hout : (warn || page) = true) (ts : ℤ) (sev : Severity)
    (m : String) :
    ServeTracked false false (log ++ [alert ts .serveDown sev true m]) := by
  refine h.concat _ (fun _ => hout) ?_ ?_ ?_ ?_ ?_ <;>
    simp [firesKey, recoversFamily, family]

section

variable {F : Type} [F64 F] (env : Env) (cfg : RulesConfig F)

omit [F64 F] in
/-- One evaluation keeps the serve family tracked. -/
theorem ServeTracked.step {o : Observation F} {warn page : Sustained}
    {log : List AlertEvent} (h : ServeTracked warn.announced page.announced log) :
    ServeTracked (evalServeDown cfg o warn page).1.1.announced
      (evalServeDown cfg o warn page).1.2.announced
      (log ++ (evalServeDown cfg o warn page).2) := by
  unfold evalServeDown
  cases o.serveUp with
  | true =>
      simp only [Bool.not_true, step_false]
      cases hw : warn.announced with
      | true =>
          have hpage : ¬(if page.announced = true then Edge.recover else Edge.none) =
              Edge.fire := by
            cases page.announced <;> decide
          simp only [if_true, reduceCtorEq, if_false, true_or, List.nil_append, hpage]
          exact h.recover (by simp [hw]) _ _ _
      | false =>
          cases hp : page.announced with
          | true =>
              simp only [if_true, reduceCtorEq, if_false, or_true, List.nil_append,
                Bool.false_eq_true]
              exact h.recover (by simp [hp]) _ _ _
          | false =>
              rw [hw, hp] at h
              simpa using h
  | false =>
      simp only [Bool.not_false]
      rcases step_true_cases warn o.now cfg.serveDownSecs cfg.cooldownSecs with
        ⟨-, hwa, -, hw⟩ | hw
      · rw [hwa] at h
        rcases step_true_cases page o.now cfg.serveDownPageSecs cfg.cooldownSecs with
          ⟨-, hpa, -, hp⟩ | hp
        · rw [hpa] at h
          rw [hw, hp]
          simpa using (h.fireWarn o.now _).firePage o.now _
        · rw [hw, hp]
          simpa using h.fireWarn o.now _
      · rcases step_true_cases page o.now cfg.serveDownPageSecs cfg.cooldownSecs with
          ⟨-, hpa, -, hp⟩ | hp
        · rw [hpa] at h
          rw [hw, hp]
          simpa using h.firePage o.now _
        · rw [hw, hp]
          simpa using h

omit [F64 F] in
/-- The serve family is tracked through the events of its group. -/
theorem ServeTracked.ofGroup {warn page : Bool} {log : List AlertEvent}
    (h : ServeTracked warn page (log.filter fun ev => decide (group ev.rule = .serve))) :
    ServeTracked warn page log := by
  have hclear : ∀ ev, recoversFamily .serveDown ev =
      (decide (group ev.rule = .serve) && recoversFamily .serveDown (id ev)) := by
    intro ev
    cases hr : ev.rule <;> simp [recoversFamily, family, group, hr]
  have hfamily : ∀ ev, firesFamily .serveDown ev =
      (decide (group ev.rule = .serve) && firesFamily .serveDown (id ev)) := by
    intro ev
    cases hr : ev.rule <;> simp [firesFamily, family, group, hr]
  have hwarn : ∀ ev, firesKey .serveDown ev =
      (decide (group ev.rule = .serve) && firesKey .serveDown (id ev)) := by
    intro ev
    cases hr : ev.rule <;> simp [firesKey, group, hr]
  have hpage : ∀ ev, firesKey .serveDownPage ev =
      (decide (group ev.rule = .serve) && firesKey .serveDownPage (id ev)) := by
    intro ev
    cases hr : ev.rule <;> simp [firesKey, group, hr]
  rw [← List.map_id (log.filter _)] at h
  exact
    { paired := (AlertLog.pairedFrom_project hfamily hclear false log).1 h.paired
      outstanding := (AlertLog.outstandingFrom_project hfamily hclear false log).symm.trans
        h.outstanding
      warnSeparated := (AlertLog.separatedFrom_project hwarn hclear false log).1 h.warnSeparated
      warnOutstanding := (AlertLog.outstandingFrom_project hwarn hclear false log).symm.trans
        h.warnOutstanding
      pageSeparated := (AlertLog.separatedFrom_project hpage hclear false log).1 h.pageSeparated
      pageOutstanding := (AlertLog.outstandingFrom_project hpage hclear false log).symm.trans
        h.pageOutstanding }

/-- The serve family is tracked along every run. -/
theorem run_serveTracked (os : List (Observation F)) :
    ServeTracked (evaluateAll env cfg os).1.serveDown.announced
      (evaluateAll env cfg os).1.serveDownPage.announced (evaluateAll env cfg os).2 := by
  refine ServeTracked.ofGroup ?_
  refine Machine.run_induction (fun e o => evaluate env cfg o e)
    (fun _ e log => ServeTracked e.serveDown.announced e.serveDownPage.announced
      (log.filter fun ev => decide (group ev.rule = .serve))) ?_ ?_ os
  · exact ⟨trivial, rfl, trivial, rfl, trivial, rfl⟩
  · intro _ e log o h
    rw [List.filter_append, evaluate_filter_group]
    exact h.step cfg

/-! ## Rules with a clock -/

/-- The invariant rule for a property that also speaks of the time: it holds of a fresh engine
at any time, is kept as time passes, and is kept by an evaluation at its own time. -/
theorem timed_induction {P : ℤ → Engine F → List AlertEvent → Prop} (init : ∀ now, P now {} [])
    (mono : ∀ now now' e log, now ≤ now' → P now e log → P now' e log)
    (step : ∀ e log o, P o.now e log →
      P o.now (evaluate env cfg o e).1 (log ++ (evaluate env cfg o e).2))
    {os : List (Observation F)} (ordered : (os.map Observation.now).Pairwise (· ≤ ·)) {now : ℤ}
    (hnow : ∀ o ∈ os, o.now ≤ now) :
    P now (evaluateAll env cfg os).1 (evaluateAll env cfg os).2 := by
  revert ordered now
  refine Machine.run_induction (fun e o => evaluate env cfg o e)
    (fun os e log => (os.map Observation.now).Pairwise (· ≤ ·) → ∀ {now : ℤ},
      (∀ o ∈ os, o.now ≤ now) → P now e log) ?_ ?_ os
  · intro _ now _
    exact init now
  · intro os e log o ih ordered now hnow
    rw [List.map_append, List.pairwise_append] at ordered
    have hbefore : ∀ o' ∈ os, o'.now ≤ o.now := fun o' ho' =>
      ordered.2.2 o'.now (List.mem_map_of_mem ho') o.now (by simp)
    exact mono o.now now _ _ (hnow o (by simp)) (step e log o (ih ordered.1 hbefore))

/-- Every container role is tracked along every run. -/
theorem run_roleTracked (role : String) {os : List (Observation F)}
    (ordered : (os.map Observation.now).Pairwise (· ≤ ·)) {now : ℤ}
    (hnow : ∀ o ∈ os, o.now ≤ now) :
    RoleTracked cfg.cooldownSecs now (roleState (evaluateAll env cfg os).1.restarts role)
      (signals (.containerRestart role) (evaluateAll env cfg os).2) := by
  refine timed_induction env cfg (P := fun now e log => RoleTracked cfg.cooldownSecs now
    (roleState e.restarts role) (signals (.containerRestart role) log)) ?_ ?_ ?_ ordered hnow
  · exact fun now => roleTracked_nil cfg.cooldownSecs now
  · exact fun _ _ _ _ hle h => h.mono hle
  · intro e log o h
    rw [signals_append, signals_evaluate]
    have hstate : roleState (evaluate env cfg o e).1.restarts role =
        roleState (evalRestarts cfg o e.restarts).1 role := by
      unfold roleState
      exact congrArg (Prod.mk _) (evalXids_role cfg o _ role)
    rw [hstate]
    exact evalRestarts_tracked cfg o role h

/-- The faults of every label are told of a cooldown apart, and never recover. -/
theorem run_xidSpaced (label : String) {os : List (Observation F)}
    (ordered : (os.map Observation.now).Pairwise (· ≤ ·)) {now : ℤ}
    (hnow : ∀ o ∈ os, o.now ≤ now) :
    SpacedUntil cfg.cooldownSecs now
        (evaluateAll env cfg os).1.restarts.eventLastSent[(RuleKey.xid label).text]?
        (fireTimes (signals (.xid label) (evaluateAll env cfg os).2)) ∧
      ∀ s ∈ signals (.xid label) (evaluateAll env cfg os).2, isRecovery s = false := by
  refine timed_induction env cfg (P := fun now e log => SpacedUntil cfg.cooldownSecs now
      e.restarts.eventLastSent[(RuleKey.xid label).text]? (fireTimes (signals (.xid label) log)) ∧
    ∀ s ∈ signals (.xid label) log, isRecovery s = false) ?_ ?_ ?_ ordered hnow
  · exact fun now => ⟨⟨spaced_nil _ _, by simp⟩, by simp⟩
  · exact fun _ _ _ _ hle h => ⟨h.1.mono hle, h.2⟩
  · intro e log o h
    rw [signals_append, signals_evaluate, fireTimes_append]
    have hsent := evalRestarts_label cfg o e.restarts label
    obtain ⟨h1, h2⟩ := evalXids_spaced cfg o label (hsent ▸ h.1)
    refine ⟨h1, fun s hs => ?_⟩
    rcases List.mem_append.1 hs with hs | hs
    · exact h.2 s hs
    · exact h2 s hs

/-- The low-decode rule alternates, with its fires a cooldown apart, along every run. -/
theorem run_decodeTracked {os : List (Observation F)}
    (ordered : (os.map Observation.now).Pairwise (· ≤ ·)) {now : ℤ}
    (hnow : ∀ o ∈ os, o.now ≤ now) :
    RoleTracked cfg.cooldownSecs now
        ((evaluateAll env cfg os).1.c1.announced, (evaluateAll env cfg os).1.c1.lastSent)
        (signals .c1Decode (evaluateAll env cfg os).2) ∧
      AlertLog.SeparatedFrom isFire isRecovery false
        (signals .c1Decode (evaluateAll env cfg os).2) := by
  refine timed_induction env cfg (P := fun now e log => RoleTracked cfg.cooldownSecs now
      (e.c1.announced, e.c1.lastSent) (signals .c1Decode log) ∧
    AlertLog.SeparatedFrom isFire isRecovery false (signals .c1Decode log)) ?_ ?_ ?_ ordered hnow
  · exact fun now => ⟨roleTracked_nil cfg.cooldownSecs now, trivial⟩
  · exact fun _ _ _ _ hle h => ⟨h.1.mono hle, h.2⟩
  · intro e log o h
    rw [signals_append, signals_evaluate, AlertLog.separatedFrom_append, h.1.owed]
    have hc1 : (evaluate env cfg o e).1.c1 = (evalC1 env cfg o e.c1).1 := rfl
    rw [hc1]
    simp only [group, groupEvents]
    rcases evalC1_decode env cfg o e.c1 with ⟨hs, ha, hl⟩ | ⟨hs, hno, hcool, ha, hl⟩ |
      ⟨hs, hann, ha, hl⟩
    · rw [hs, ha, hl, List.append_nil]
      exact ⟨h.1, h.2, trivial⟩
    · rw [hs, ha, hl]
      exact ⟨h.1.fire hcool, h.2, by simp [hno], trivial⟩
    · rw [hs, ha, hl]
      exact ⟨h.1.recover hann, h.2, by simp [isFire], trivial⟩

/-! ## Every rule -/

omit [F64 F] in
theorem exists_bound (os : List (Observation F)) : ∃ now, ∀ o ∈ os, o.now ≤ now := by
  induction os with
  | nil => exact ⟨0, by simp⟩
  | cons o os ih =>
      obtain ⟨now, hnow⟩ := ih
      refine ⟨max o.now now, ?_⟩
      intro o' ho'
      rcases List.mem_cons.1 ho' with rfl | ho'
      · exact le_max_left _ _
      · exact (hnow o' ho').trans (le_max_right _ _)

/-- Two logs of signals with the same fires have the same fire times. -/
theorem fireTimes_congr {log log' : List Signal} (h : log.filter isFire = log'.filter isFire) :
    fireTimes log = fireTimes log' := by
  rw [fireTimes, fireTimes, h]

/-- The rules that fire, stay quiet until they recover, and recover. -/
def isLatched (k : RuleKey) : Bool := isSustained k || decide (k = .c1Decode)

omit [F64 F] in
theorem sustained_init (k : RuleKey) : sustained ({} : Engine F) k = {} := by
  cases k <;> simp [sustained]

theorem evaluateAll_eq (os : List (Observation F)) :
    evaluateAll env cfg os = engineRun env cfg {} os := rfl

/-- Every recovery follows a fire of its family, since the previous recovery. -/
theorem run_paired {os : List (Observation F)}
    (ordered : (os.map Observation.now).Pairwise (· ≤ ·)) {k : RuleKey} (hk : isPaired k = true) :
    AlertLog.Paired (firesFamily (family k)) (recoversFamily (family k))
      (evaluateAll env cfg os).2 := by
  obtain ⟨now, hnow⟩ := exists_bound os
  by_cases hserve : group k = .serve
  · have hfam : family k = .serveDown := by
      cases k <;> simp [group] at hserve <;> rfl
    rw [hfam]
    exact AlertLog.paired_of_pairedFrom (run_serveTracked env cfg os).paired
  · refine paired_of_signals hserve ?_
    by_cases hs : isSustained k = true
    · have hrun := (run_pairing (holdSecs cfg k) cfg.cooldownSecs (sustained ({} : Engine F) k)
        (judgementsAlong env cfg k {} os)).1
      rw [evaluateAll_eq, run_signals env cfg k hs hserve]
      simpa only [sustained_init] using hrun
    · cases k with
      | c1Decode => exact (run_decodeTracked env cfg ordered hnow).1.paired
      | containerRestart role => exact (run_roleTracked env cfg role ordered hnow).paired
      | xid label =>
          exact AlertLog.pairedFrom_of_no_clear _ _ (run_xidSpaced env cfg label ordered hnow).2
      | c1Stale | thermalDigest | testAlert => exact absurd hk (by decide)
      | _ => exact absurd rfl hs

/-- A rule that fired does not fire again before a recovery of its family. -/
theorem run_separated {os : List (Observation F)}
    (ordered : (os.map Observation.now).Pairwise (· ≤ ·)) {k : RuleKey}
    (hk : isLatched k = true) :
    AlertLog.Separated (firesKey k) (recoversFamily (family k)) (evaluateAll env cfg os).2 := by
  by_cases hserve : group k = .serve
  · have htracked := run_serveTracked env cfg os
    have hcases : k = .serveDown ∨ k = .serveDownPage := by
      cases k <;> simp [group] at hserve <;> simp
    rcases hcases with rfl | rfl
    · exact AlertLog.separated_of_separatedFrom (firesKey_disjoint _ _) htracked.warnSeparated
    · exact AlertLog.separated_of_separatedFrom (firesKey_disjoint _ _) htracked.pageSeparated
  · refine separated_of_signals hserve ?_
    by_cases hs : isSustained k = true
    · have hrun := (run_pairing (holdSecs cfg k) cfg.cooldownSecs (sustained ({} : Engine F) k)
        (judgementsAlong env cfg k {} os)).2.1
      rw [evaluateAll_eq, run_signals env cfg k hs hserve]
      simpa only [sustained_init] using hrun
    · have hdecode : k = .c1Decode := by simpa [isLatched, hs] using hk
      subst hdecode
      obtain ⟨now, hnow⟩ := exists_bound os
      exact (run_decodeTracked env cfg ordered hnow).2

/-- Two fires of a rule are a cooldown apart. -/
theorem run_fires_spaced {os : List (Observation F)}
    (ordered : (os.map Observation.now).Pairwise (· ≤ ·)) {k : RuleKey} (hk : isPaired k = true) :
    (fireTimesOf k (evaluateAll env cfg os).2).Pairwise
      (fun t t' => cfg.cooldownSecs ≤ t' - t) := by
  obtain ⟨now, hnow⟩ := exists_bound os
  rw [fireTimesOf_eq]
  by_cases hs : isSustained k = true
  · have hfires := (run_fires env cfg k hs {} os).2
    rw [evaluateAll_eq, fireTimes_congr hfires, sustained_init]
    have hjs := judgementsAlong_ordered env cfg k {} ordered
    cases hj : judgementsAlong env cfg k {} os with
    | nil => exact List.Pairwise.nil
    | cons j js =>
        rw [hj] at hjs
        have hmem : ∀ t ∈ j.1 :: js.map Prod.fst, t ≤ now := by
          intro t ht
          obtain ⟨x, hx, rfl⟩ := List.mem_map.1 (show t ∈ (j :: js).map Prod.fst from ht)
          obtain ⟨o, ho, hot⟩ := List.mem_map.1 (mem_judgementsAlong env cfg k {} os (hj ▸ hx))
          exact hot ▸ hnow o ho
        have hstart : SpacedUntil cfg.cooldownSecs j.1 ({} : Sustained).lastSent [] :=
          ⟨spaced_nil _ _, by simp⟩
        have hle : (j.1 :: (j :: js).map Prod.fst).Pairwise (· ≤ ·) := by
          refine List.pairwise_cons.2 ⟨?_, hjs⟩
          intro t ht
          rcases List.mem_cons.1 ht with rfl | ht
          · exact le_refl _
          · exact (List.pairwise_cons.1 hjs).1 t ht
        have hend : ∀ t ∈ j.1 :: (j :: js).map Prod.fst, t ≤ now := by
          intro t ht
          rcases List.mem_cons.1 ht with rfl | ht
          · exact hmem _ (by simp)
          · exact hmem t ht
        have hspaced := run_spaced (holdSecs cfg k) hstart hle hend
        exact hspaced.1.1
  · cases k with
    | c1Decode => exact (run_decodeTracked env cfg ordered hnow).1.spaced.1.1
    | containerRestart role => exact (run_roleTracked env cfg role ordered hnow).spaced.1.1
    | xid label => exact (run_xidSpaced env cfg label ordered hnow).1.1.1
    | c1Stale | thermalDigest | testAlert => exact absurd hk (by decide)
    | _ => exact absurd rfl hs

/-- The judgements of a rule end in a stretch without a false one that began at least `hold`
seconds before `now`. -/
def HeldFor (hold now : ℤ) (js : List Judgement) : Prop :=
  ∃ before start held, js = before ++ (start, true) :: held ∧ (∀ j ∈ held, j.2 = true) ∧
    hold ≤ now - start

/-- A sustained rule fires only at a judgement up to which its condition has held for the hold
time. -/
theorem fire_held {k : RuleKey} (hk : isSustained k = true) (pre : List (Observation F))
    (o : Observation F) {ev : AlertEvent}
    (hev : ev ∈ (evaluate env cfg o (evaluateAll env cfg pre).1).2) (hfire : firesKey k ev = true) :
    ∃ upTo j after, judgements cfg o (evaluateAll env cfg pre).1 k = upTo ++ j :: after ∧
      HeldFor (holdSecs cfg k) o.now (judgementsAlong env cfg k {} pre ++ (upTo ++ [j])) := by
  simp only [firesKey, Bool.and_eq_true, decide_eq_true_eq, Bool.not_eq_true'] at hfire
  have hmem : (ev.ts, false) ∈ (signals k
      (evaluate env cfg o (evaluateAll env cfg pre).1).2).filter isFire := by
    refine List.mem_filter.2 ⟨List.mem_map.2 ⟨ev, List.mem_filter.2 ⟨hev, by simp [hfire.1]⟩, ?_⟩,
      rfl⟩
    rw [hfire.2]
  rw [(evaluate_fires env cfg o (evaluateAll env cfg pre).1 hk).2] at hmem
  have hstate := (run_fires env cfg k hk {} pre).1
  have hheld : HeldSince (sustained (evaluateAll env cfg pre).1 k).since
      (judgementsAlong env cfg k {} pre) := by
    have hinit : HeldSince (sustained ({} : Engine F) k).since [] := by
      rw [sustained_init]
      intro t ht
      exact absurd ht (by simp)
    have := run_heldSince (holdSecs cfg k) cfg.cooldownSecs hinit
      (judgementsAlong env cfg k {} pre)
    rw [List.nil_append] at this
    exact (congrArg (fun s => HeldSince s.since _) hstate).mpr this
  obtain ⟨upTo, j, after, hsplit, -, before, start, held, heq, hall, hhold⟩ :=
    run_fire_held hheld (List.mem_filter.1 hmem).1
  have hj : j.1 = o.now := by
    have : j ∈ judgements cfg o (evaluateAll env cfg pre).1 k := hsplit ▸ by simp
    obtain ⟨c, -, rfl⟩ := List.mem_map.1 this
    rfl
  exact ⟨upTo, j, after, hsplit, before, start, held, heq, hall, hj ▸ hhold⟩

/-! ## The result -/

/-- Alerts are paired over whole runs, from a fresh engine and for every configuration. Every
recovery follows a fire of its family, since the family's previous recovery. Between two
fires of a latched rule there is a recovery of its family, and exactly one between a fire and
the next one unless the rule is a serve rule. Two fires of a rule are a cooldown apart. A
sustained rule fires only at a judgement up to which its condition has held for the hold
time. -/
theorem alert_pairing (os : List (Observation F))
    (ordered : (os.map Observation.now).Pairwise (· ≤ ·)) :
    (∀ k, isPaired k = true → AlertLog.Paired (firesFamily (family k))
      (recoversFamily (family k)) (evaluateAll env cfg os).2) ∧
    (∀ k, isLatched k = true → AlertLog.Separated (firesKey k) (recoversFamily (family k))
      (evaluateAll env cfg os).2) ∧
    (∀ k, isLatched k = true → family k ≠ .serveDown →
      ∀ a r b r' c, (evaluateAll env cfg os).2 = a ++ r :: (b ++ r' :: c) →
        firesKey k r = true → firesKey k r' = true → (∀ x ∈ b, firesKey k x = false) →
        (b.filter (recoversFamily (family k))).length = 1) ∧
    (∀ k, isPaired k = true → (fireTimesOf k (evaluateAll env cfg os).2).Pairwise
      (fun t t' => cfg.cooldownSecs ≤ t' - t)) ∧
    (∀ k, isSustained k = true → ∀ pre o post, os = pre ++ o :: post →
      ∀ ev ∈ (evaluate env cfg o (evaluateAll env cfg pre).1).2, firesKey k ev = true →
        ∃ upTo j after, judgements cfg o (evaluateAll env cfg pre).1 k = upTo ++ j :: after ∧
          HeldFor (holdSecs cfg k) o.now
            (judgementsAlong env cfg k {} pre ++ (upTo ++ [j]))) := by
  refine ⟨fun k hk => run_paired env cfg ordered hk, fun k hk => run_separated env cfg ordered hk,
    ?_, fun k hk => run_fires_spaced env cfg ordered hk, ?_⟩
  · intro k hk hserve a r b r' c hlog hr hr' hnext
    have hgroup : group k ≠ .serve := by
      intro hgroup
      apply hserve
      cases k <;> simp [group] at hgroup <;> rfl
    have hkp : isPaired k = true := by
      cases k <;> first | rfl | exact absurd hk (by simp [isLatched, isSustained])
    have hpaired := run_paired env cfg ordered hkp
    have hfam : firesFamily (family k) = firesKey k := funext fun ev => firesFamily_eq hgroup ev
    rw [hfam] at hpaired
    exact AlertLog.clear_unique (firesKey_disjoint k (family k)) hpaired
      (run_separated env cfg ordered hk) hlog hr hr' hnext
  · intro k hk pre o post _ ev hev hfire
    exact fire_held env cfg hk pre o hev hfire

end

/-! ## An outage that only pages -/

/-- Texts with temperatures in both units and no calendar. -/
def plainEnv : Env where
  tempUnits := .both
  fmtUtc _ := "-"

/-- A poll with the gateway up and the serve up or down. -/
def servePoll (now : ℤ) (up : Bool) : Observation ℚ where
  now := now
  serveUp := up
  gateUp := true
  probeIntervalSecs := 300

/-- Three outages of the serve under the default configuration. The second one comes during
the cooldown of the warning and only pages. -/
def outages : List (Observation ℚ) :=
  [servePoll 0 false, servePoll 120 false, servePoll 200 true, servePoll 300 false,
    servePoll 1200 false, servePoll 1300 true, servePoll 2000 false, servePoll 2120 false]

/-- What is sent about them. -/
def outageLog : List AlertEvent :=
  [alert 120 .serveDown .warn false "serve DOWN for 2m00s (/v1/models not answering)",
    alert 200 .serveDown .warn true "serve recovered after 3m20s down",
    alert 1200 .serveDownPage .page false "serve STILL DOWN after 15m00s - needs a human",
    alert 1300 .serveDown .page true "serve recovered after 16m40s down",
    alert 2120 .serveDown .warn false "serve DOWN for 2m00s (/v1/models not answering)"]

theorem evaluateAll_outages :
    (evaluateAll plainEnv RulesConfig.default outages).2 = outageLog := by
  decide +kernel

/-- Between two warnings about the serve there may be two recoveries: the page in between
recovered as well. -/
theorem serve_recoveries_not_unique :
    ¬∀ os : List (Observation ℚ), (os.map Observation.now).Pairwise (· ≤ ·) →
      ∀ k, isLatched k = true → ∀ a r b r' c,
        (evaluateAll plainEnv RulesConfig.default os).2 = a ++ r :: (b ++ r' :: c) →
        firesKey k r = true → firesKey k r' = true → (∀ x ∈ b, firesKey k x = false) →
        (b.filter (recoversFamily (family k))).length = 1 := by
  intro h
  have htwo := h outages (by decide) .serveDown rfl [] _ outageLog.tail.dropLast _ []
    evaluateAll_outages rfl rfl (by decide)
  exact absurd htwo (by decide)

/-- The warnings of the outages above are a cooldown apart. -/
theorem outages_spaced :
    fireTimesOf .serveDown (evaluateAll plainEnv RulesConfig.default outages).2 = [120, 2120] ∧
      (fireTimesOf .serveDown (evaluateAll plainEnv RulesConfig.default outages).2).Pairwise
        (fun t t' => (1800 : ℤ) ≤ t' - t) :=
  ⟨by rw [evaluateAll_outages]; decide,
    (alert_pairing plainEnv RulesConfig.default outages (by decide)).2.2.2.1
      .serveDown rfl⟩

end Lss.Analysis.AlertPairing
