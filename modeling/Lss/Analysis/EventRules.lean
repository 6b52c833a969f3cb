import Lss.Analysis.RuleRuns

/-!
# The event rules of one evaluation

Container restarts and GPU faults are told of as they happen, at most once per cooldown. A
restart that was told of also owes a recovery, once the container has been up for long
enough; the roles that owe one are the pending roles of the engine.
-/

set_option autoImplicit false

namespace Lss.Analysis.EventRules

open Lss.Library Lss.Model Lss.Analysis.SustainedRule Lss.Analysis.RuleGroups
  Lss.Analysis.RuleJudgements Lss.Analysis.RuleRuns

/-! ## The texts of event keys -/

theorem text_containerRestart (a : String) :
    (RuleKey.containerRestart a).text = "container_restart:" ++ a := rfl

theorem text_xid (a : String) : (RuleKey.xid a).text = "xid:" ++ a := rfl

theorem text_containerRestart_ne {a b : String} (h : a ≠ b) :
    (RuleKey.containerRestart a).text ≠ (RuleKey.containerRestart b).text := by
  rw [text_containerRestart, text_containerRestart]
  exact fun htext => h (String.append_right_inj _ |>.1 htext)

theorem text_xid_ne {a b : String} (h : a ≠ b) : (RuleKey.xid a).text ≠ (RuleKey.xid b).text := by
  rw [text_xid, text_xid]
  exact fun htext => h (String.append_right_inj _ |>.1 htext)

/-- No restart key has the text of a fault key. -/
theorem text_containerRestart_ne_xid (a b : String) :
    (RuleKey.containerRestart a).text ≠ (RuleKey.xid b).text := by
  rw [text_containerRestart, text_xid]
  intro htext
  have hfirst := congrArg (fun s : String => s.toList.head?) htext
  simp at hfirst

section

variable {F : Type} [F64 F] (cfg : RulesConfig F) (o : Observation F)

omit [F64 F] in
theorem eventCooled_iff (lastSent : Std.ExtTreeMap String ℤ) (k : RuleKey) (now cooldown : ℤ) :
    eventCooled lastSent k now cooldown = true ↔
      ∀ t, lastSent[k.text]? = some t → cooldown ≤ now - t := by
  unfold eventCooled
  cases lastSent[k.text]? with
  | none => simp
  | some t => simp

/-- What the engine keeps for the restarts of one role: whether one owes a recovery, and when
one was last told of. -/
def roleState (st : RestartState) (role : String) : Bool × Option ℤ :=
  (st.restartPending.contains role, st.eventLastSent[(RuleKey.containerRestart role).text]?)

/-! ## Telling of restarts -/

omit [F64 F] in
/-- What one observed restart does for a role: nothing, or a fire after the cooldown that then
owes a recovery. -/
theorem noteRestart_role (st : RestartState) (r : RestartObs) (a : String) :
    (signals (.containerRestart a) (noteRestart cfg o st r).2 = [] ∧
      roleState (noteRestart cfg o st r).1 a = roleState st a) ∨
    (signals (.containerRestart a) (noteRestart cfg o st r).2 = [(o.now, false)] ∧
      (∀ t, (roleState st a).2 = some t → cfg.cooldownSecs ≤ o.now - t) ∧
      roleState (noteRestart cfg o st r).1 a = (true, some o.now)) := by
  unfold noteRestart
  by_cases hcool : eventCooled st.eventLastSent (.containerRestart r.role) o.now
      cfg.cooldownSecs = true
  · rw [if_pos hcool]
    by_cases hr : r.role = a
    · subst hr
      refine Or.inr ⟨by simp [signals], (eventCooled_iff _ _ _ _).1 hcool, ?_⟩
      simp [roleState]
    · refine Or.inl ⟨by simp [signals, hr], ?_⟩
      simp [roleState, Std.ExtTreeMap.getElem?_insert, Std.ExtTreeMap.contains_insert, hr,
        text_containerRestart_ne hr]
  · rw [if_neg hcool]
    by_cases hpend : st.restartPending.contains r.role = true
    · rw [if_pos hpend]
      refine Or.inl ⟨rfl, ?_⟩
      by_cases hr : r.role = a
      · subst hr
        simp [roleState, hpend]
      · simp [roleState, Std.ExtTreeMap.contains_insert, hr]
    · rw [if_neg hpend]
      exact Or.inl ⟨rfl, rfl⟩

omit [F64 F] in
/-- What one role that is stable again does for a role. -/
theorem settleRestart_role (st : RestartState) (r a : String) :
    (r ≠ a ∧ signals (.containerRestart a) (settleRestart o st r).2 = [] ∧
      roleState (settleRestart o st r).1 a = roleState st a) ∨
    (r = a ∧ signals (.containerRestart a) (settleRestart o st r).2 = [(o.now, true)] ∧
      roleState (settleRestart o st r).1 a = (false, (roleState st a).2)) := by
  by_cases hr : r = a
  · subst hr
    exact Or.inr ⟨rfl, by simp [signals, settleRestart], by simp [roleState, settleRestart]⟩
  · refine Or.inl ⟨hr, by simp [signals, settleRestart, hr], ?_⟩
    simp [roleState, settleRestart, Std.ExtTreeMap.contains_erase, hr]

/-- What pairing and cooldown of a role rest on: the role owes a recovery exactly when its last
signal was a fire, and its fires are a cooldown apart. -/
structure RoleTracked (cooldown now : ℤ) (state : Bool × Option ℤ) (log : List Signal) :
    Prop where
  paired : AlertLog.PairedFrom isFire isRecovery false log
  owed : AlertLog.outstandingFrom isFire isRecovery false log = state.1
  spaced : SpacedUntil cooldown now state.2 (fireTimes log)

theorem RoleTracked.mono {cooldown now now' : ℤ} {state : Bool × Option ℤ} {log : List Signal}
    (h : RoleTracked cooldown now state log) (hle : now ≤ now') :
    RoleTracked cooldown now' state log :=
  ⟨h.paired, h.owed, h.spaced.mono hle⟩

theorem roleTracked_nil (cooldown now : ℤ) : RoleTracked cooldown now (false, none) [] :=
  ⟨trivial, rfl, spaced_nil cooldown none, by simp⟩

theorem RoleTracked.fire {cooldown now : ℤ} {state : Bool × Option ℤ} {log : List Signal}
    (h : RoleTracked cooldown now state log)
    (cooled : ∀ t, state.2 = some t → cooldown ≤ now - t) :
    RoleTracked cooldown now (true, some now) (log ++ [(now, false)]) where
  paired := by
    rw [AlertLog.pairedFrom_append]
    exact ⟨h.paired, by simp [isRecovery], trivial⟩
  owed := by
    rw [AlertLog.outstandingFrom_append]
    simp [AlertLog.outstandingFrom, isFire, isRecovery]
  spaced := by
    rw [fireTimes_append]
    exact h.spaced.send cooled

theorem RoleTracked.recover {cooldown now : ℤ} {state : Bool × Option ℤ} {log : List Signal}
    (h : RoleTracked cooldown now state log) (hstate : state.1 = true) :
    RoleTracked cooldown now (false, state.2) (log ++ [(now, true)]) where
  paired := by
    rw [AlertLog.pairedFrom_append, h.owed, hstate]
    exact ⟨h.paired, by simp, trivial⟩
  owed := by
    rw [AlertLog.outstandingFrom_append]
    simp [AlertLog.outstandingFrom, isRecovery]
  spaced := by
    rw [fireTimes_append]
    simpa [fireTimes, isFire] using h.spaced

omit [F64 F] in
theorem run_noteRestart (a : String) {st : RestartState} {log : List Signal}
    (h : RoleTracked cfg.cooldownSecs o.now (roleState st a) log) (rs : List RestartObs) :
    RoleTracked cfg.cooldownSecs o.now (roleState (Machine.run (noteRestart cfg o) st rs).1 a)
      (log ++ signals (.containerRestart a) (Machine.run (noteRestart cfg o) st rs).2) := by
  induction rs generalizing st log with
  | nil => simpa using h
  | cons r rs ih =>
      rw [Machine.run_cons, signals_append, ← List.append_assoc]
      refine ih ?_
      rcases noteRestart_role cfg o st r a with ⟨hs, hst⟩ | ⟨hs, hcool, hst⟩
      · rw [hs, hst, List.append_nil]
        exact h
      · rw [hs, hst]
        exact h.fire hcool

omit [F64 F] in
theorem run_settleRestart (a : String) {st : RestartState} {log : List Signal}
    (h : RoleTracked cfg.cooldownSecs o.now (roleState st a) log) {roles : List String}
    (hnodup : roles.Nodup) (howed : ∀ r ∈ roles, (roleState st r).1 = true) :
    RoleTracked cfg.cooldownSecs o.now (roleState (Machine.run (settleRestart o) st roles).1 a)
      (log ++ signals (.containerRestart a) (Machine.run (settleRestart o) st roles).2) := by
  induction roles generalizing st log with
  | nil => simpa using h
  | cons r roles ih =>
      obtain ⟨hr, hnodup⟩ := List.nodup_cons.1 hnodup
      rw [Machine.run_cons, signals_append, ← List.append_assoc]
      refine ih ?_ hnodup ?_
      · rcases settleRestart_role o st r a with ⟨-, hs, hst⟩ | ⟨hra, hs, hst⟩
        · rw [hs, hst, List.append_nil]
          exact h
        · rw [hs, hst]
          exact h.recover (hra ▸ howed r (by simp))
      · intro r' hr'
        rcases settleRestart_role o st r r' with ⟨-, -, hst⟩ | ⟨heq, -, -⟩
        · rw [hst]
          exact howed r' (List.mem_cons_of_mem _ hr')
        · exact absurd hr' (heq ▸ hr)

omit [F64 F] in
/-- One evaluation of the restart rule keeps every role tracked. -/
theorem evalRestarts_tracked (a : String) {st : RestartState} {log : List Signal}
    (h : RoleTracked cfg.cooldownSecs o.now (roleState st a) log) :
    RoleTracked cfg.cooldownSecs o.now (roleState (evalRestarts cfg o st).1 a)
      (log ++ signals (.containerRestart a) (evalRestarts cfg o st).2) := by
  unfold evalRestarts
  dsimp only
  rw [signals_append, ← List.append_assoc]
  refine run_settleRestart cfg o a (run_noteRestart cfg o a h o.restarts) ?_ ?_
  · have hkeys := (Machine.run (noteRestart cfg o) st o.restarts).1.restartPending.distinct_keys_toList
    have hsub := List.filter_sublist
      (p := fun p : String × ℤ => restartStable cfg o p.1 p.2)
      (l := (Machine.run (noteRestart cfg o) st o.restarts).1.restartPending.toList)
    refine List.pairwise_map.2 ((hkeys.sublist hsub).imp fun hne => ?_)
    simpa using hne
  · intro r hr
    obtain ⟨p, hp, rfl⟩ := List.mem_map.1 hr
    have hmem := Std.ExtTreeMap.mem_toList_iff_getElem?_eq_some.1 (List.mem_filter.1 hp).1
    simp only [roleState]
    rw [Std.ExtTreeMap.contains_eq_isSome_getElem?, hmem]
    rfl

/-! ## Telling of GPU faults -/

omit [F64 F] in
/-- Telling of faults leaves the restarts of every role as they were. -/
theorem evalXids_role (sent : Std.ExtTreeMap String ℤ) (a : String) :
    (evalXids cfg o sent).1[(RuleKey.containerRestart a).text]? =
      sent[(RuleKey.containerRestart a).text]? := by
  unfold evalXids
  induction o.xids generalizing sent with
  | nil => rfl
  | cons x xs ih =>
      rw [Machine.run_cons]
      refine (ih _).trans ?_
      have hne : (xidRuleKey x).text ≠ (RuleKey.containerRestart a).text := by
        unfold xidRuleKey
        cases x.gpu with
        | none => exact (text_containerRestart_ne_xid _ _).symm
        | some i => exact (text_containerRestart_ne_xid _ _).symm
      unfold noteXid
      split
      · simp [Std.ExtTreeMap.getElem?_insert, hne]
      · rfl

omit [F64 F] in
theorem noteXid_label (sent : Std.ExtTreeMap String ℤ) (x : XidEvent) (l : String) :
    (signals (.xid l) (noteXid cfg o sent x).2 = [] ∧
      (noteXid cfg o sent x).1[(RuleKey.xid l).text]? = sent[(RuleKey.xid l).text]?) ∨
    (signals (.xid l) (noteXid cfg o sent x).2 = [(o.now, false)] ∧
      (∀ t, sent[(RuleKey.xid l).text]? = some t → cfg.cooldownSecs ≤ o.now - t) ∧
      (noteXid cfg o sent x).1[(RuleKey.xid l).text]? = some o.now) := by
  obtain ⟨l', hl'⟩ : ∃ l', xidRuleKey x = .xid l' := by
    unfold xidRuleKey
    cases x.gpu with
    | none => exact ⟨_, rfl⟩
    | some i => exact ⟨_, rfl⟩
  unfold noteXid
  rw [hl']
  by_cases hcool : eventCooled sent (.xid l') o.now cfg.cooldownSecs = true
  · rw [if_pos hcool]
    by_cases hl : l' = l
    · subst hl
      exact Or.inr ⟨by simp [signals], (eventCooled_iff _ _ _ _).1 hcool, by simp⟩
    · refine Or.inl ⟨by simp [signals, hl], ?_⟩
      simp [Std.ExtTreeMap.getElem?_insert, text_xid_ne hl]
  · rw [if_neg hcool]
    exact Or.inl ⟨rfl, rfl⟩

omit [F64 F] in
/-- One evaluation of the fault rule keeps the fires of every label a cooldown apart, and
sends no recovery. -/
theorem evalXids_spaced (l : String) {sent : Std.ExtTreeMap String ℤ} {fires : List ℤ}
    (h : SpacedUntil cfg.cooldownSecs o.now sent[(RuleKey.xid l).text]? fires) :
    SpacedUntil cfg.cooldownSecs o.now (evalXids cfg o sent).1[(RuleKey.xid l).text]?
        (fires ++ fireTimes (signals (.xid l) (evalXids cfg o sent).2)) ∧
      ∀ s ∈ signals (.xid l) (evalXids cfg o sent).2, isRecovery s = false := by
  unfold evalXids
  induction o.xids generalizing sent fires with
  | nil => exact ⟨by simpa [fireTimes] using h, by simp⟩
  | cons x xs ih =>
      rw [Machine.run_cons, signals_append, fireTimes_append, ← List.append_assoc]
      rcases noteXid_label cfg o sent x l with ⟨hs, hst⟩ | ⟨hs, hcool, hst⟩
      · rw [hs]
        have h' : SpacedUntil cfg.cooldownSecs o.now
            (noteXid cfg o sent x).1[(RuleKey.xid l).text]? fires := by
          rw [hst]
          exact h
        simpa [fireTimes] using ih h'
      · rw [hs]
        have h' : SpacedUntil cfg.cooldownSecs o.now
            (noteXid cfg o sent x).1[(RuleKey.xid l).text]? (fires ++ [o.now]) := by
          rw [hst]
          exact h.send hcool
        obtain ⟨h1, h2⟩ := ih h'
        refine ⟨h1, ?_⟩
        intro s hmem
        rcases List.mem_append.1 hmem with hmem | hmem
        · rw [List.mem_singleton.1 hmem]
          rfl
        · exact h2 s hmem

omit [F64 F] in
/-- Telling of restarts leaves the faults of every label as they were. -/
theorem evalRestarts_label (st : RestartState) (l : String) :
    (evalRestarts cfg o st).1.eventLastSent[(RuleKey.xid l).text]? =
      st.eventLastSent[(RuleKey.xid l).text]? := by
  have hsettle : ∀ (st : RestartState) (roles : List String),
      (Machine.run (settleRestart o) st roles).1.eventLastSent = st.eventLastSent := by
    intro st roles
    induction roles generalizing st with
    | nil => rfl
    | cons r roles ih => exact ih _
  have hnote : ∀ (st : RestartState) (rs : List RestartObs),
      (Machine.run (noteRestart cfg o) st rs).1.eventLastSent[(RuleKey.xid l).text]? =
        st.eventLastSent[(RuleKey.xid l).text]? := by
    intro st rs
    induction rs generalizing st with
    | nil => rfl
    | cons r rs ih =>
        rw [Machine.run_cons]
        refine (ih _).trans ?_
        unfold noteRestart
        split
        · simp [Std.ExtTreeMap.getElem?_insert, text_containerRestart_ne_xid]
        · split <;> rfl
  unfold evalRestarts
  dsimp only
  rw [hsettle, hnote]

end

end Lss.Analysis.EventRules
