import Lss.Analysis.AlertPairing

/-!
# Episodes without a valid idle reading

The staleness rule fires when there has been no valid idle reading for too long and recovers
when there is one again. Once it has flapped too often it is muted: its single messages are
held back and one message about the measurement itself takes their place. This file follows
an episode from its fire to its end, along a run in order of time. A fire that was sent is
followed, in the evaluation in which the episode ends, by the recovery, or by the message
about the measurement when the recovery is the flap that mutes the rule. A recovery is only
sent in the evaluation in which an episode ends, and the fire of that episode was sent unless
the rule was muted then.
-/

set_option autoImplicit false

namespace Lss.Analysis.StaleFlaps

open Lss.Library Lss.Model Lss.Analysis.SustainedRule Lss.Analysis.RuleGroups
  Lss.Analysis.RuleJudgements Lss.Analysis.RuleRuns Lss.Analysis.AlertPairing

section

variable {F : Type} [F64 F] (env : Env) (cfg : RulesConfig F)

/-- The staleness messages of one evaluation. -/
def staleEvents (o : Observation F) (e : Engine F) : List AlertEvent :=
  (evaluate env cfg o e).2.filter fun ev => decide (ev.rule = .c1Stale)

/-- Whether the staleness rule is muted after an evaluation at `now`. -/
def mutedAt (e : Engine F) (now : ℤ) : Bool := e.c1.staleFlaps.muted now

/-- Whether a stale episode is open. -/
def staleOpen (e : Engine F) : Bool := e.c1.stale.announced

/-- The engine after some observations, from a fresh one. -/
abbrev engineAfter (os : List (Observation F)) : Engine F := (evaluateAll env cfg os).1

theorem engineAfter_concat (os : List (Observation F)) (o : Observation F) :
    engineAfter env cfg (os ++ [o]) = (evaluate env cfg o (engineAfter env cfg os)).1 := by
  simp only [engineAfter, evaluateAll, Machine.run_concat]

/-! ## One evaluation -/

theorem evalC1Decode_stale (o : Observation F) (c1 : C1State F) :
    (evalC1Decode env cfg o c1).1.stale = c1.stale ∧
      (evalC1Decode env cfg o c1).1.staleFlaps = c1.staleFlaps := by
  unfold evalC1Decode
  cases o.probeTokS with
  | none => exact ⟨rfl, rfl⟩
  | some v =>
      dsimp only
      unfold c1Probe
      dsimp only
      split
      · split
        · unfold c1Low
          dsimp only
          split <;> exact ⟨rfl, rfl⟩
        · exact ⟨rfl, rfl⟩
      · exact ⟨rfl, rfl⟩

theorem staleEvents_eq (o : Observation F) (e : Engine F) :
    staleEvents env cfg o e =
      if o.benchActive then [] else (evalC1Stale cfg o (evalC1Decode env cfg o e.c1).1).2 := by
  unfold staleEvents
  rw [filter_rule_eq, evaluate_filter_group]
  simp only [group, groupEvents]
  unfold evalC1
  by_cases hb : o.benchActive = true
  · rw [if_pos hb, if_pos hb]
    rfl
  · rw [if_neg hb, if_neg hb, List.filter_append]
    have hdecode : (evalC1Decode env cfg o e.c1).2.filter
        (fun ev => decide (ev.rule = .c1Stale)) = [] :=
      List.filter_eq_nil_iff.2 fun ev hev => by
        rw [rule_of_mem_evalC1Decode env cfg o hev]
        decide
    have hstale : (evalC1Stale cfg o (evalC1Decode env cfg o e.c1).1).2.filter
        (fun ev => decide (ev.rule = .c1Stale)) =
          (evalC1Stale cfg o (evalC1Decode env cfg o e.c1).1).2 :=
      List.filter_eq_self.2 fun ev hev => by
        rw [rule_of_mem_evalC1Stale cfg o hev]
        decide
    rw [hdecode, hstale, List.nil_append]

/-- The message about the measurement, when this evaluation is the one that starts the mute. -/
def unreliableIfNew (o : Observation F) (e e' : Engine F) : List AlertEvent :=
  if mutedAt e' o.now && !e.c1.staleFlaps.mutedAnnounced then
    [c1Unreliable o.now (e'.c1.staleFlaps.countSince o.now flapMuteWindowSecs)]
  else []

/-- What one evaluation does to the staleness rule: nothing during a benchmark; else an episode
opens, closes, or stays as it is. -/
inductive StaleStep (o : Observation F) (e e' : Engine F) (sent : List AlertEvent) : Prop where
  | bench (flaps : e'.c1.staleFlaps = e.c1.staleFlaps) (kept : staleOpen e' = staleOpen e)
      (silent : sent = [])
  | stay (flaps : e'.c1.staleFlaps.flaps = e.c1.staleFlaps.flaps)
      (kept : staleOpen e' = staleOpen e)
      (announced : e'.c1.staleFlaps.mutedAnnounced = mutedAt e' o.now)
      (said : sent = unreliableIfNew o e e')
  | opens (flaps : e'.c1.staleFlaps.flaps = e.c1.staleFlaps.flaps) (before : staleOpen e = false)
      (after : staleOpen e' = true)
      (announced : e'.c1.staleFlaps.mutedAnnounced = mutedAt e' o.now) (secs : ℤ)
      (said : sent = (if mutedAt e' o.now then [] else [c1StaleFire o.now secs]) ++
        unreliableIfNew o e e')
  | closes (before : staleOpen e = true) (after : staleOpen e' = false)
      (announced : e'.c1.staleFlaps.mutedAnnounced = mutedAt e' o.now) (secs : ℤ)
      (said : sent = (if mutedAt e' o.now then [] else [c1StaleRecovered o.now secs]) ++
        unreliableIfNew o e e')

omit [F64 F] in
/-- Every evaluation outside a benchmark is one of these steps, given the state it leaves. -/
theorem staleStep_of_evalC1Stale {o : Observation F} {e e' : Engine F} {c : C1State F}
    (hstale : c.stale = e.c1.stale) (hflaps : c.staleFlaps = e.c1.staleFlaps)
    (hnext : e'.c1 = (evalC1Stale cfg o c).1) :
    StaleStep o e e' (evalC1Stale cfg o c).2 := by
  have hannounced : e'.c1.staleFlaps.mutedAnnounced = mutedAt e' o.now := by
    rw [mutedAt, hnext]
    rfl
  rcases step_cases c.stale o.now (decide (c1StaleThreshold cfg o ≤ c1StaleFor o c))
    c1StaleFireHoldSecs cfg.cooldownSecs with ⟨-, hs⟩ | ⟨-, -, hopen, -, hs⟩ | ⟨-, hs⟩
  · cases ha : c.stale.announced with
    | true =>
        rw [ha, if_pos rfl] at hs
        refine .closes ?_ ?_ hannounced (c.stale.heldFor o.now) ?_
        · rw [staleOpen, ← hstale, ha]
        · rw [staleOpen, hnext]
          simp only [evalC1Stale, c1StaleStep, hs]
        · unfold unreliableIfNew mutedAt
          rw [hnext, ← hflaps]
          simp only [evalC1Stale, c1StaleFlaps, c1StaleStep, hs, if_true]
          rfl
    | false =>
        rw [ha, if_neg (by decide)] at hs
        refine .stay ?_ ?_ hannounced ?_
        · rw [hnext, ← hflaps]
          simp only [evalC1Stale, c1StaleFlaps, c1StaleStep, hs, reduceCtorEq, if_false]
        · rw [staleOpen, staleOpen, hnext, ← hstale, ha]
          simp only [evalC1Stale, c1StaleStep, hs]
        · unfold unreliableIfNew mutedAt
          rw [hnext, ← hflaps]
          simp only [evalC1Stale, c1StaleFlaps, c1StaleStep, hs, reduceCtorEq, if_false,
            ite_self, List.nil_append]
          rfl
  · refine .opens ?_ ?_ ?_ hannounced (c1StaleFor o c) ?_
    · rw [hnext, ← hflaps]
      simp only [evalC1Stale, c1StaleFlaps, c1StaleStep, hs, reduceCtorEq, if_false]
    · rw [staleOpen, ← hstale, hopen]
    · rw [staleOpen, hnext]
      simp only [evalC1Stale, c1StaleStep, hs]
    · unfold unreliableIfNew mutedAt
      rw [hnext, ← hflaps]
      simp only [evalC1Stale, c1StaleFlaps, c1StaleStep, hs, reduceCtorEq, if_false]
      rfl
  · refine .stay ?_ ?_ hannounced ?_
    · rw [hnext, ← hflaps]
      simp only [evalC1Stale, c1StaleFlaps, c1StaleStep, hs, reduceCtorEq, if_false]
    · rw [staleOpen, staleOpen, hnext, ← hstale]
      simp only [evalC1Stale, c1StaleStep, hs]
    · unfold unreliableIfNew mutedAt
      rw [hnext, ← hflaps]
      simp only [evalC1Stale, c1StaleFlaps, c1StaleStep, hs, reduceCtorEq, if_false, ite_self,
        List.nil_append]
      rfl

/-- Every evaluation is one of these steps. -/
theorem staleStep (o : Observation F) (e : Engine F) :
    StaleStep o e (evaluate env cfg o e).1 (staleEvents env cfg o e) := by
  rw [staleEvents_eq]
  have hc1 : (evaluate env cfg o e).1.c1 = (evalC1 env cfg o e.c1).1 := rfl
  obtain ⟨hstale, hflaps⟩ := evalC1Decode_stale env cfg o e.c1
  by_cases hb : o.benchActive = true
  · have hsame : (evaluate env cfg o e).1.c1 = e.c1 := by
      rw [hc1, evalC1, if_pos hb]
    rw [if_pos hb]
    exact .bench (by rw [hsame]) (by rw [staleOpen, hsame]; rfl) rfl
  · rw [if_neg hb]
    refine staleStep_of_evalC1Stale cfg hstale hflaps ?_
    rw [hc1, evalC1, if_neg hb]

/-! ## Telling the messages apart -/

theorem c1StaleFire_ne_unreliable (now secs now' : ℤ) (flaps : ℕ) :
    c1StaleFire now secs ≠ c1Unreliable now' flaps := by
  intro h
  have hfirst := congrArg (fun ev : AlertEvent => ev.message.toList.head?) h
  simp [c1StaleFire, c1Unreliable, alert] at hfirst

omit [F64 F] in
theorem not_mem_unreliableIfNew_fire {o : Observation F} {e e' : Engine F} {now secs : ℤ} :
    c1StaleFire now secs ∉ unreliableIfNew o e e' := by
  unfold unreliableIfNew
  split
  · intro h
    exact c1StaleFire_ne_unreliable _ _ _ _ (List.mem_singleton.1 h)
  · simp

omit [F64 F] in
theorem recovered_of_mem_unreliableIfNew {o : Observation F} {e e' : Engine F} {ev : AlertEvent}
    (h : ev ∈ unreliableIfNew o e e') : ev.recovered = false := by
  unfold unreliableIfNew at h
  split at h
  · rw [List.mem_singleton.1 h]
    rfl
  · simp at h

theorem mem_staleEvents {o : Observation F} {e : Engine F} {ev : AlertEvent}
    (hrule : ev.rule = .c1Stale) :
    ev ∈ staleEvents env cfg o e ↔ ev ∈ (evaluate env cfg o e).2 := by
  simp [staleEvents, List.mem_filter, hrule]

/-- A fire that is sent opens an episode while the rule is not muted. -/
theorem opens_of_fire {o : Observation F} {e : Engine F} {secs : ℤ}
    (h : c1StaleFire o.now secs ∈ (evaluate env cfg o e).2) :
    staleOpen (evaluate env cfg o e).1 = true ∧ mutedAt (evaluate env cfg o e).1 o.now = false ∧
      (evaluate env cfg o e).1.c1.staleFlaps.mutedAnnounced = false := by
  rw [← mem_staleEvents env cfg rfl] at h
  cases staleStep env cfg o e with
  | bench _ _ silent =>
      rw [silent] at h
      exact absurd h (by simp)
  | stay _ _ _ said =>
      rw [said] at h
      exact absurd h not_mem_unreliableIfNew_fire
  | opens _ _ after announced _ said =>
      rw [said] at h
      rcases List.mem_append.1 h with h | h
      · cases hm : mutedAt (evaluate env cfg o e).1 o.now with
        | true => simp [hm] at h
        | false => exact ⟨after, rfl, announced.trans hm⟩
      · exact absurd h not_mem_unreliableIfNew_fire
  | closes _ _ _ _ said =>
      rw [said] at h
      rcases List.mem_append.1 h with h | h
      · split at h
        · simp at h
        · have := congrArg AlertEvent.recovered (List.mem_singleton.1 h)
          simp [c1StaleFire, c1StaleRecovered] at this
      · exact absurd h not_mem_unreliableIfNew_fire

/-- A recovery that is sent closes an episode. -/
theorem closes_of_recovered {o : Observation F} {e : Engine F} {ev : AlertEvent}
    (h : ev ∈ (evaluate env cfg o e).2) (hrule : ev.rule = .c1Stale)
    (hrec : ev.recovered = true) :
    staleOpen e = true ∧ staleOpen (evaluate env cfg o e).1 = false := by
  rw [← mem_staleEvents env cfg hrule] at h
  have hnot : ev ∉ unreliableIfNew o e (evaluate env cfg o e).1 := fun hmem => by
    rw [recovered_of_mem_unreliableIfNew hmem] at hrec
    exact absurd hrec (by decide)
  cases staleStep env cfg o e with
  | bench _ _ silent =>
      rw [silent] at h
      exact absurd h (by simp)
  | stay _ _ _ said =>
      rw [said] at h
      exact absurd h hnot
  | opens _ _ _ _ _ said =>
      rw [said] at h
      rcases List.mem_append.1 h with h | h
      · split at h
        · simp at h
        · rw [List.mem_singleton.1 h] at hrec
          exact absurd hrec (by simp [c1StaleFire])
      · exact absurd h hnot
  | closes before after _ _ _ => exact ⟨before, after⟩

/-! ## The mute while an episode lasts -/

/-- Fewer flaps lie in a window that ends later. -/
theorem muted_false_mono {f : FlapTracker} {now later : ℤ} (h : f.muted now = false)
    (hle : now ≤ later) : f.muted later = false := by
  simp only [FlapTracker.muted, decide_eq_false_iff_not, not_le] at h ⊢
  refine lt_of_le_of_lt ?_ h
  unfold FlapTracker.countSince
  refine (List.monotone_filter_right f.flaps fun t ht => ?_).length_le
  have hlate : later - flapMuteWindowSecs < t := of_decide_eq_true ht
  exact decide_eq_true (by omega)

/-- An open episode of a rule that is not muted and has not said that it is. -/
structure OpenUnmuted (now : ℤ) (e : Engine F) : Prop where
  isOpen : staleOpen e = true
  unmuted : mutedAt e now = false
  unsaid : e.c1.staleFlaps.mutedAnnounced = false

/-- While the episode stays open the rule stays unmuted. -/
theorem OpenUnmuted.step {now : ℤ} {e : Engine F} (h : OpenUnmuted now e) {o : Observation F}
    (hle : now ≤ o.now) (hopen : staleOpen (evaluate env cfg o e).1 = true) :
    OpenUnmuted o.now (evaluate env cfg o e).1 := by
  cases staleStep env cfg o e with
  | bench flaps _ _ =>
      refine ⟨hopen, ?_, by rw [flaps]; exact h.unsaid⟩
      rw [mutedAt, flaps]
      exact muted_false_mono h.unmuted hle
  | stay flaps _ announced _ =>
      have hmuted : mutedAt (evaluate env cfg o e).1 o.now = false := by
        have := muted_false_mono h.unmuted hle
        unfold mutedAt FlapTracker.muted FlapTracker.countSince at *
        rw [flaps]
        exact this
      exact ⟨hopen, hmuted, announced.trans hmuted⟩
  | opens _ before _ _ _ _ => exact absurd (h.isOpen.symm.trans before) (by decide)
  | closes _ after _ _ _ => exact absurd (hopen.symm.trans after) (by decide)

/-- From a fire that was sent on, the rule stays unmuted as long as the episode is open. -/
theorem openUnmuted_of_fire {pre : List (Observation F)} {o : Observation F} {secs : ℤ}
    (hfire : c1StaleFire o.now secs ∈ (evaluate env cfg o (engineAfter env cfg pre)).2)
    (mid : List (Observation F)) (ordered : ((o :: mid).map Observation.now).Pairwise (· ≤ ·))
    (hopen : ∀ m, m <+: mid → staleOpen (engineAfter env cfg (pre ++ o :: m)) = true) :
    ∃ now, (∀ o' ∈ o :: mid, o'.now ≤ now) ∧ now ∈ (o :: mid).map Observation.now ∧
      OpenUnmuted now (engineAfter env cfg (pre ++ o :: mid)) := by
  induction mid using List.reverseRecOn with
  | nil =>
      obtain ⟨h1, h2, h3⟩ := opens_of_fire env cfg hfire
      refine ⟨o.now, by simp, by simp, ?_⟩
      rw [engineAfter_concat]
      exact ⟨h1, h2, h3⟩
  | append_singleton mid x ih =>
      rw [← List.cons_append, List.map_append, List.pairwise_append] at ordered
      obtain ⟨now, hnow, hmem, h⟩ := ih ordered.1 fun m hm =>
        hopen m (hm.trans (List.prefix_append _ _))
      have hle : now ≤ x.now := ordered.2.2 now hmem x.now (by simp)
      refine ⟨x.now, ?_, by simp, ?_⟩
      · intro o' ho'
        rw [← List.cons_append] at ho'
        rcases List.mem_append.1 ho' with ho' | ho'
        · exact (hnow o' ho').trans hle
        · rw [List.mem_singleton.1 ho']
      · have hlast := hopen (mid ++ [x]) (List.prefix_refl _)
        rw [← List.cons_append, ← List.append_assoc, engineAfter_concat] at hlast ⊢
        exact h.step env cfg hle hlast

/-- A sent fire is answered in the evaluation in which its episode ends. -/
theorem fire_answered {pre : List (Observation F)} {o : Observation F}
    {mid : List (Observation F)} {o' : Observation F}
    (ordered : ((o :: (mid ++ [o'])).map Observation.now).Pairwise (· ≤ ·)) {secs : ℤ}
    (hfire : c1StaleFire o.now secs ∈ (evaluate env cfg o (engineAfter env cfg pre)).2)
    (hopen : ∀ m, m <+: mid → staleOpen (engineAfter env cfg (pre ++ o :: m)) = true)
    (hend : staleOpen (engineAfter env cfg (pre ++ o :: (mid ++ [o']))) = false) :
    if mutedAt (engineAfter env cfg (pre ++ o :: (mid ++ [o']))) o'.now then
      ∃ flaps, c1Unreliable o'.now flaps ∈
        (evaluate env cfg o' (engineAfter env cfg (pre ++ o :: mid))).2
    else ∃ secs, c1StaleRecovered o'.now secs ∈
        (evaluate env cfg o' (engineAfter env cfg (pre ++ o :: mid))).2 := by
  rw [← List.cons_append, List.map_append, List.pairwise_append] at ordered
  obtain ⟨now, -, hmem, h⟩ := openUnmuted_of_fire env cfg hfire mid ordered.1 hopen
  rw [← List.cons_append, ← List.append_assoc, engineAfter_concat] at hend ⊢
  generalize engineAfter env cfg (pre ++ o :: mid) = e at *
  cases staleStep env cfg o' e with
  | bench _ kept _ => exact absurd (hend.symm.trans (kept.trans h.isOpen)) (by decide)
  | stay _ kept _ _ => exact absurd (hend.symm.trans (kept.trans h.isOpen)) (by decide)
  | opens _ before _ _ _ _ => exact absurd (h.isOpen.symm.trans before) (by decide)
  | closes _ _ _ secs said =>
      cases hm : mutedAt (evaluate env cfg o' e).1 o'.now with
      | true =>
          refine ⟨(evaluate env cfg o' e).1.c1.staleFlaps.countSince o'.now flapMuteWindowSecs, ?_⟩
          rw [← mem_staleEvents env cfg rfl, said]
          simp [unreliableIfNew, hm, h.unsaid]
      | false =>
          refine ⟨secs, ?_⟩
          rw [← mem_staleEvents env cfg rfl, said]
          simp [hm]

/-- An open episode was opened by some evaluation and has been open since; its fire was sent
unless the rule was muted. -/
theorem exists_opening {pre : List (Observation F)}
    (h : staleOpen (engineAfter env cfg pre) = true) :
    ∃ pre' o mid, pre = pre' ++ o :: mid ∧ staleOpen (engineAfter env cfg pre') = false ∧
      (∀ m, m <+: mid → staleOpen (engineAfter env cfg (pre' ++ o :: m)) = true) ∧
      (mutedAt (engineAfter env cfg (pre' ++ [o])) o.now = false → ∃ secs,
        c1StaleFire o.now secs ∈ (evaluate env cfg o (engineAfter env cfg pre')).2) := by
  induction pre using List.reverseRecOn with
  | nil => exact absurd h (by simp [staleOpen, engineAfter, evaluateAll])
  | append_singleton pre o ih =>
      cases hbefore : staleOpen (engineAfter env cfg pre) with
      | true =>
          obtain ⟨pre', o₁, mid, rfl, hclosed, hopen, hsent⟩ := ih hbefore
          refine ⟨pre', o₁, mid ++ [o], by simp, hclosed, ?_, hsent⟩
          intro m hm
          rcases List.prefix_concat_iff.1 hm with rfl | hm
          · simpa using h
          · exact hopen m hm
      | false =>
          refine ⟨pre, o, [], rfl, hbefore, ?_, ?_⟩
          · intro m hm
            rw [List.prefix_nil.1 hm]
            exact h
          · intro hunmuted
            rw [engineAfter_concat] at h hunmuted
            cases staleStep env cfg o (engineAfter env cfg pre) with
            | bench _ kept _ => exact absurd (h.symm.trans (kept.trans hbefore)) (by decide)
            | stay _ kept _ _ => exact absurd (h.symm.trans (kept.trans hbefore)) (by decide)
            | closes before _ _ _ _ => exact absurd (before.symm.trans hbefore) (by decide)
            | opens _ _ _ _ secs said =>
                refine ⟨secs, ?_⟩
                rw [← mem_staleEvents env cfg rfl, said]
                simp [hunmuted]

/-! ## The result -/

/-- Along every run in order of time: a sent fire is answered in the evaluation in which its
episode ends, by the recovery when the rule is not muted then and by the message about the
measurement when it is; and a sent recovery ends an episode, whose own fire was sent unless
the rule was muted when it fired. -/
theorem stale_messages_paired (os : List (Observation F))
    (ordered : (os.map Observation.now).Pairwise (· ≤ ·)) :
    (∀ pre o mid o' post, os = pre ++ o :: (mid ++ o' :: post) →
      (∃ secs, c1StaleFire o.now secs ∈ (evaluate env cfg o (engineAfter env cfg pre)).2) →
      (∀ m, m <+: mid → staleOpen (engineAfter env cfg (pre ++ o :: m)) = true) →
      staleOpen (engineAfter env cfg (pre ++ o :: (mid ++ [o']))) = false →
      if mutedAt (engineAfter env cfg (pre ++ o :: (mid ++ [o']))) o'.now then
        ∃ flaps, c1Unreliable o'.now flaps ∈
          (evaluate env cfg o' (engineAfter env cfg (pre ++ o :: mid))).2
      else ∃ secs, c1StaleRecovered o'.now secs ∈
          (evaluate env cfg o' (engineAfter env cfg (pre ++ o :: mid))).2) ∧
    (∀ pre o post, os = pre ++ o :: post →
      ∀ ev ∈ (evaluate env cfg o (engineAfter env cfg pre)).2, ev.rule = .c1Stale →
        ev.recovered = true →
        staleOpen (engineAfter env cfg (pre ++ [o])) = false ∧
        ∃ pre' o₁ mid, pre = pre' ++ o₁ :: mid ∧
          staleOpen (engineAfter env cfg pre') = false ∧
          (∀ m, m <+: mid → staleOpen (engineAfter env cfg (pre' ++ o₁ :: m)) = true) ∧
          (mutedAt (engineAfter env cfg (pre' ++ [o₁])) o₁.now = false → ∃ secs,
            c1StaleFire o₁.now secs ∈
              (evaluate env cfg o₁ (engineAfter env cfg pre')).2)) := by
  refine ⟨?_, ?_⟩
  · rintro pre o mid o' post rfl ⟨secs, hfire⟩ hopen hend
    refine fire_answered env cfg ?_ hfire hopen hend
    refine ordered.sublist (List.Sublist.map _ ?_)
    refine List.Sublist.trans ?_ (List.sublist_append_right pre _)
    exact (List.append_sublist_append_left mid |>.2 (by simp)).cons_cons o
  · rintro pre o post - ev hev hrule hrec
    obtain ⟨hbefore, hafter⟩ := closes_of_recovered env cfg hev hrule hrec
    refine ⟨by rw [engineAfter_concat]; exact hafter, exists_opening env cfg hbefore⟩

end

/-! ## Three flaps -/

/-- A poll of an idle server, with or without a valid probe. -/
def idlePoll (now : ℤ) (probe : Option ℚ) : Observation ℚ where
  now := now
  serveUp := true
  gateUp := true
  probeIntervalSecs := 300
  probeTokS := probe

/-- Three stale episodes under the default configuration. -/
def staleEpisodes : List (Observation ℚ) :=
  [idlePoll 0 (some 100), idlePoll 1800 none, idlePoll 2100 none, idlePoll 2101 (some 100),
    idlePoll 3901 none, idlePoll 4201 none, idlePoll 4202 (some 100), idlePoll 6002 none]

/-- The third episode fires, and its end is the third flap: no recovery is sent for it. -/
theorem third_recovery_withheld :
    ¬∀ os : List (Observation ℚ), (os.map Observation.now).Pairwise (· ≤ ·) →
      ∀ pre o mid o' post, os = pre ++ o :: (mid ++ o' :: post) →
        (∃ secs, c1StaleFire o.now secs ∈
          (evaluate plainEnv .default o (engineAfter plainEnv .default pre)).2) →
        (∀ m, m <+: mid →
          staleOpen (engineAfter plainEnv .default (pre ++ o :: m)) = true) →
        staleOpen (engineAfter plainEnv .default (pre ++ o :: (mid ++ [o']))) = false →
        ∃ ev ∈ (evaluate plainEnv .default o'
            (engineAfter plainEnv .default (pre ++ o :: mid))).2,
          ev.rule = .c1Stale ∧ ev.recovered = true := by
  intro h
  have hfire : c1StaleFire 6302 2100 ∈ (evaluate plainEnv .default (idlePoll 6302 none)
      (engineAfter plainEnv .default staleEpisodes)).2 := by
    decide +kernel
  obtain ⟨ev, hev, hrule, hrec⟩ := h (staleEpisodes ++ [idlePoll 6302 none, idlePoll 6303 (some 100)])
    (by decide) staleEpisodes (idlePoll 6302 none) [] (idlePoll 6303 (some 100)) [] rfl
    ⟨2100, hfire⟩ (fun m hm => by rw [List.prefix_nil.1 hm]; decide +kernel) (by decide +kernel)
  have hnone : ∀ ev ∈ (evaluate plainEnv .default (idlePoll 6303 (some 100))
      (engineAfter plainEnv .default (staleEpisodes ++ [idlePoll 6302 none]))).2,
      ev.recovered = false := by
    decide +kernel
  exact absurd (hnone ev hev) (by simp [hrec])

/-- The first episode's fire is answered by its recovery. -/
theorem first_recovery_sent :
    ∃ secs, c1StaleRecovered 2101 secs ∈ (evaluate plainEnv .default (idlePoll 2101 (some 100))
      (engineAfter plainEnv .default (staleEpisodes.take 3))).2 := by
  have h := (stale_messages_paired plainEnv .default staleEpisodes (by decide)).1
    (staleEpisodes.take 2) (idlePoll 2100 none) [] (idlePoll 2101 (some 100))
    (staleEpisodes.drop 4) rfl ⟨2100, by decide +kernel⟩
    (fun m hm => by rw [List.prefix_nil.1 hm]; decide +kernel) (by decide +kernel)
  rw [if_neg (by decide +kernel)] at h
  exact h

end Lss.Analysis.StaleFlaps
