import Lss.Library.AlertLog
import Lss.Model.Rules

/-!
# A sustained rule as a machine of its own

The engine holds one `Sustained` for each rule whose condition must hold for a while. Seen
alone, such a rule is a machine that takes judgements, a time and whether the condition
was true, and emits signals, a time and whether the signal is a recovery. This file proves
what holds along every run of that machine: it alternates between firing and recovering, its
fires are a cooldown apart, and it fires only when every judgement since one at least the
hold time earlier was true.
-/

set_option autoImplicit false

namespace Lss.Analysis.SustainedRule

open Lss.Library Lss.Model

/-- A judgement of a rule: when it was made and whether the condition was true. -/
abbrev Judgement := ℤ × Bool

/-- A signal of a rule: when it was given and whether it is the recovery. -/
abbrev Signal := ℤ × Bool

/-- Whether a signal is a fire. -/
def isFire (s : Signal) : Bool := !s.2

/-- Whether a signal is a recovery. -/
def isRecovery (s : Signal) : Bool := s.2

/-- The signal of an edge, if it has one. -/
def edgeSignal (now : ℤ) : Edge → List Signal
  | .fire => [(now, false)]
  | .recover => [(now, true)]
  | .none => []

/-- One judgement of a sustained rule, as a step of a machine. -/
def judge (hold cooldown : ℤ) (s : Sustained) (j : Judgement) : Sustained × List Signal :=
  ((s.step j.1 j.2 hold cooldown).1, edgeSignal j.1 (s.step j.1 j.2 hold cooldown).2)

/-! ## What one judgement does -/

theorem step_false (s : Sustained) (now hold cooldown : ℤ) :
    s.step now false hold cooldown = ({ s with since := none, announced := false },
      if s.announced then .recover else .none) := rfl

/-- A true condition fires the rule or leaves it as it was, but for the time it has held. -/
theorem step_true_cases (s : Sustained) (now hold cooldown : ℤ) :
    (hold ≤ now - s.since.getD now ∧ s.announced = false ∧ s.cooled now cooldown = true ∧
      s.step now true hold cooldown =
        ({ since := some (s.since.getD now), announced := true, lastSent := some now }, .fire)) ∨
    s.step now true hold cooldown = ({ s with since := some (s.since.getD now) }, .none) := by
  by_cases h : (decide (hold ≤ now - s.since.getD now) && !s.announced &&
      s.cooled now cooldown) = true
  · have hstep : s.step now true hold cooldown =
        ({ since := some (s.since.getD now), announced := true, lastSent := some now },
          .fire) := by
      simp only [Sustained.step, if_true, h]
    simp only [Bool.and_eq_true, decide_eq_true_eq, Bool.not_eq_true'] at h
    exact Or.inl ⟨h.1.1, h.1.2, h.2, hstep⟩
  · refine Or.inr ?_
    simp only [Sustained.step, if_true, if_neg h]

/-- The step of a sustained rule, as the cases a proof splits into. -/
theorem step_cases (s : Sustained) (now : ℤ) (cond : Bool) (hold cooldown : ℤ) :
    (cond = false ∧ s.step now cond hold cooldown =
      ({ s with since := none, announced := false },
        if s.announced then .recover else .none)) ∨
    (cond = true ∧ hold ≤ now - s.since.getD now ∧ s.announced = false ∧
      s.cooled now cooldown = true ∧ s.step now cond hold cooldown =
        ({ since := some (s.since.getD now), announced := true, lastSent := some now }, .fire)) ∨
    (cond = true ∧ s.step now cond hold cooldown =
      ({ s with since := some (s.since.getD now) }, .none)) := by
  cases cond with
  | false => exact Or.inl ⟨rfl, step_false s now hold cooldown⟩
  | true =>
      rcases step_true_cases s now hold cooldown with ⟨h1, h2, h3, h4⟩ | h
      · exact Or.inr (Or.inl ⟨rfl, h1, h2, h3, h4⟩)
      · exact Or.inr (Or.inr ⟨rfl, h⟩)

/-- A rule that is not in cooldown sent its last fire at least a cooldown ago. -/
theorem cooled_iff (s : Sustained) (now cooldown : ℤ) :
    s.cooled now cooldown = true ↔ ∀ t, s.lastSent = some t → cooldown ≤ now - t := by
  unfold Sustained.cooled
  cases s.lastSent with
  | none => simp
  | some t => simp

/-! ## Firing and recovering alternate -/

theorem judge_pairing (hold cooldown : ℤ) (s : Sustained) (j : Judgement) :
    AlertLog.PairedFrom isFire isRecovery s.announced (judge hold cooldown s j).2 ∧
    AlertLog.SeparatedFrom isFire isRecovery s.announced (judge hold cooldown s j).2 ∧
    AlertLog.outstandingFrom isFire isRecovery s.announced (judge hold cooldown s j).2 =
      (judge hold cooldown s j).1.announced := by
  unfold judge
  rcases step_cases s j.1 j.2 hold cooldown with ⟨-, h⟩ | ⟨-, -, ha, -, h⟩ | ⟨-, h⟩
  · rw [h]
    cases ha : s.announced <;>
      simp [edgeSignal, AlertLog.PairedFrom, AlertLog.SeparatedFrom, AlertLog.outstandingFrom,
        isFire, isRecovery]
  · rw [h, ha]
    simp [edgeSignal, AlertLog.PairedFrom, AlertLog.SeparatedFrom, AlertLog.outstandingFrom,
      isFire, isRecovery]
  · rw [h]
    simp [edgeSignal, AlertLog.PairedFrom, AlertLog.SeparatedFrom, AlertLog.outstandingFrom]

/-- Along every run, a recovery finds the rule announced, a fire finds it not announced, and
the rule is announced exactly when its last signal was a fire. -/
theorem run_pairing (hold cooldown : ℤ) (s : Sustained) (js : List Judgement) :
    AlertLog.PairedFrom isFire isRecovery s.announced
      (Machine.run (judge hold cooldown) s js).2 ∧
    AlertLog.SeparatedFrom isFire isRecovery s.announced
      (Machine.run (judge hold cooldown) s js).2 ∧
    AlertLog.outstandingFrom isFire isRecovery s.announced
      (Machine.run (judge hold cooldown) s js).2 =
      (Machine.run (judge hold cooldown) s js).1.announced := by
  refine Machine.run_induction (judge hold cooldown)
    (fun _ t log => AlertLog.PairedFrom isFire isRecovery s.announced log ∧
      AlertLog.SeparatedFrom isFire isRecovery s.announced log ∧
      AlertLog.outstandingFrom isFire isRecovery s.announced log = t.announced)
    ⟨trivial, trivial, rfl⟩ ?_ js
  rintro _ t log j ⟨hp, hs, ho⟩
  obtain ⟨hp', hs', ho'⟩ := judge_pairing hold cooldown t j
  refine ⟨?_, ?_, ?_⟩
  · rw [AlertLog.pairedFrom_append, ho]
    exact ⟨hp, hp'⟩
  · rw [AlertLog.separatedFrom_append, ho]
    exact ⟨hs, hs'⟩
  · rw [AlertLog.outstandingFrom_append, ho, ho']

/-! ## Fires are a cooldown apart -/

/-- The times of the fires among some signals. -/
def fireTimes (log : List Signal) : List ℤ := (log.filter isFire).map Prod.fst

@[simp] theorem fireTimes_append (log log' : List Signal) :
    fireTimes (log ++ log') = fireTimes log ++ fireTimes log' := by
  simp [fireTimes]

/-- What the cooldown rests on: the fires so far are a cooldown apart and none is later than
the last one the rule remembers. -/
def Spaced (cooldown : ℤ) (lastSent : Option ℤ) (fires : List ℤ) : Prop :=
  fires.Pairwise (fun t t' => cooldown ≤ t' - t) ∧
    ∀ t ∈ fires, ∃ last, lastSent = some last ∧ t ≤ last

theorem spaced_nil (cooldown : ℤ) (lastSent : Option ℤ) : Spaced cooldown lastSent [] :=
  ⟨List.Pairwise.nil, by simp⟩

/-- A fire that waits for the cooldown keeps the fires a cooldown apart. -/
theorem Spaced.concat {cooldown now : ℤ} {lastSent : Option ℤ} {fires : List ℤ}
    (h : Spaced cooldown lastSent fires)
    (cooled : ∀ t, lastSent = some t → cooldown ≤ now - t)
    (latest : ∀ t, lastSent = some t → t ≤ now) :
    Spaced cooldown (some now) (fires ++ [now]) := by
  refine ⟨List.pairwise_append.2 ⟨h.1, List.pairwise_singleton _ _, ?_⟩, ?_⟩
  · intro t ht t' ht'
    rw [List.mem_singleton.1 ht']
    obtain ⟨last, hlast, hle⟩ := h.2 t ht
    have := cooled last hlast
    omega
  · intro t ht
    rcases List.mem_append.1 ht with ht | ht
    · obtain ⟨last, hlast, hle⟩ := h.2 t ht
      exact ⟨now, rfl, hle.trans (latest last hlast)⟩
    · exact ⟨now, rfl, (List.mem_singleton.1 ht).le⟩

/-- Everything the cooldown of a rule rests on, up to a time. -/
def SpacedUntil (cooldown now : ℤ) (lastSent : Option ℤ) (fires : List ℤ) : Prop :=
  Spaced cooldown lastSent fires ∧ ∀ t, lastSent = some t → t ≤ now

theorem SpacedUntil.mono {cooldown now now' : ℤ} {lastSent : Option ℤ} {fires : List ℤ}
    (h : SpacedUntil cooldown now lastSent fires) (hle : now ≤ now') :
    SpacedUntil cooldown now' lastSent fires :=
  ⟨h.1, fun t ht => (h.2 t ht).trans hle⟩

/-- Sending after the cooldown. -/
theorem SpacedUntil.send {cooldown now : ℤ} {lastSent : Option ℤ} {fires : List ℤ}
    (h : SpacedUntil cooldown now lastSent fires)
    (cooled : ∀ t, lastSent = some t → cooldown ≤ now - t) :
    SpacedUntil cooldown now (some now) (fires ++ [now]) :=
  ⟨h.1.concat cooled h.2, fun _ ht => (Option.some.inj ht).ge⟩

theorem judge_spaced (hold : ℤ) {cooldown now : ℤ} {s : Sustained} {fires : List ℤ} {j : Judgement}
    (h : SpacedUntil cooldown now s.lastSent fires) (hj : now ≤ j.1) :
    SpacedUntil cooldown j.1 (judge hold cooldown s j).1.lastSent
      (fires ++ fireTimes (judge hold cooldown s j).2) := by
  have h' := h.mono hj
  unfold judge
  rcases step_cases s j.1 j.2 hold cooldown with ⟨-, hs⟩ | ⟨-, -, -, hc, hs⟩ | ⟨-, hs⟩
  · rw [hs]
    cases ha : s.announced <;> simpa [edgeSignal, fireTimes, isFire] using h'
  · rw [hs]
    simpa [edgeSignal, fireTimes, isFire] using h'.send ((cooled_iff s j.1 cooldown).1 hc)
  · rw [hs]
    simpa [edgeSignal, fireTimes] using h'

/-- Along every run whose judgements come in order of time, the fires are a cooldown apart. -/
theorem run_spaced (hold : ℤ) {cooldown now : ℤ} {s : Sustained} {fires : List ℤ}
    (h : SpacedUntil cooldown now s.lastSent fires) {js : List Judgement}
    (ordered : (now :: js.map Prod.fst).Pairwise (· ≤ ·)) {now' : ℤ}
    (hend : ∀ t ∈ now :: js.map Prod.fst, t ≤ now') :
    SpacedUntil cooldown now' (Machine.run (judge hold cooldown) s js).1.lastSent
      (fires ++ fireTimes (Machine.run (judge hold cooldown) s js).2) := by
  induction js generalizing now s fires with
  | nil => simpa [fireTimes] using h.mono (hend now (by simp))
  | cons j js ih =>
      have hj : now ≤ j.1 := (List.pairwise_cons.1 ordered).1 j.1 (by simp)
      have hrest : (j.1 :: js.map Prod.fst).Pairwise (· ≤ ·) := (List.pairwise_cons.1 ordered).2
      have := ih (judge_spaced hold h hj) hrest
        (fun t ht => hend t (List.mem_cons_of_mem _ ht))
      simpa [Machine.run_cons, List.append_assoc] using this

/-! ## A fire was held for long enough -/

/-- The judgements end in a stretch without a false one that began at `since`. -/
def HeldSince (since : Option ℤ) (js : List Judgement) : Prop :=
  ∀ t, since = some t → ∃ before held, js = before ++ (t, true) :: held ∧ ∀ j ∈ held, j.2 = true

theorem judge_heldSince (hold cooldown : ℤ) {s : Sustained} {js : List Judgement}
    (h : HeldSince s.since js) (j : Judgement) :
    HeldSince (judge hold cooldown s j).1.since (js ++ [j]) := by
  have held : j.2 = true → HeldSince (some (s.since.getD j.1)) (js ++ [j]) := by
    intro hj t ht
    cases hs : s.since with
    | none =>
        have : j = (t, true) := by
          rw [hs] at ht
          exact Prod.ext (Option.some.inj ht) hj
        exact ⟨js, [], by rw [this], by simp⟩
    | some t' =>
        rw [hs] at ht
        obtain ⟨before, held, rfl, hall⟩ := h t' hs
        have htt : t' = t := Option.some.inj ht
        subst htt
        refine ⟨before, held ++ [j], by simp, ?_⟩
        intro x hx
        rcases List.mem_append.1 hx with hx | hx
        · exact hall x hx
        · rw [List.mem_singleton.1 hx]; exact hj
  unfold judge
  rcases step_cases s j.1 j.2 hold cooldown with ⟨-, hs⟩ | ⟨hj, -, -, -, hs⟩ | ⟨hj, hs⟩
  · rw [hs]
    intro t ht
    exact absurd ht (by simp)
  · rw [hs]
    exact held hj
  · rw [hs]
    exact held hj

/-- Along every run, the rule has been holding since a judgement after which none was false. -/
theorem run_heldSince (hold cooldown : ℤ) {s : Sustained} {js : List Judgement}
    (h : HeldSince s.since js) (js' : List Judgement) :
    HeldSince (Machine.run (judge hold cooldown) s js').1.since (js ++ js') := by
  induction js' generalizing s js with
  | nil => simpa using h
  | cons j js' ih =>
      have := ih (judge_heldSince hold cooldown h j)
      simpa [Machine.run_cons, List.append_assoc] using this

/-- A rule fires at a judgement only when some judgement at least the hold time earlier was
true and none since has been false. -/
theorem judge_fire_held {hold cooldown : ℤ} {s : Sustained} {js : List Judgement}
    (h : HeldSince s.since js) {j : Judgement} {t : ℤ}
    (hfire : (t, false) ∈ (judge hold cooldown s j).2) :
    t = j.1 ∧ ∃ before start held, js ++ [j] = before ++ (start, true) :: held ∧
      (∀ x ∈ held, x.2 = true) ∧ hold ≤ j.1 - start := by
  have hkept := judge_heldSince hold cooldown h j
  unfold judge at hfire hkept
  rcases step_cases s j.1 j.2 hold cooldown with ⟨-, hs⟩ | ⟨-, hhold, -, -, hs⟩ | ⟨-, hs⟩
  · rw [hs] at hfire
    cases ha : s.announced <;> simp [edgeSignal, ha] at hfire
  · rw [hs] at hfire hkept
    obtain ⟨before, held, heq, hall⟩ := hkept _ rfl
    refine ⟨by simpa [edgeSignal] using hfire, before, s.since.getD j.1, held, heq, hall, hhold⟩
  · rw [hs] at hfire
    simp [edgeSignal] at hfire

/-- A rule fires in a run only at a judgement up to which it was held long enough. -/
theorem run_fire_held {hold cooldown : ℤ} {s : Sustained} {js js' : List Judgement} {t : ℤ}
    (h : HeldSince s.since js) (hfire : (t, false) ∈ (Machine.run (judge hold cooldown) s js').2) :
    ∃ upTo j after, js' = upTo ++ j :: after ∧ t = j.1 ∧
      ∃ before start held, js ++ (upTo ++ [j]) = before ++ (start, true) :: held ∧
        (∀ x ∈ held, x.2 = true) ∧ hold ≤ j.1 - start := by
  obtain ⟨upTo, j, after, rfl, hj⟩ := Machine.mem_run (judge hold cooldown) hfire
  have hs := run_heldSince hold cooldown h upTo
  obtain ⟨ht, before, start, held, heq, hall, hhold⟩ := judge_fire_held hs hj
  exact ⟨upTo, j, after, rfl, ht, before, start, held, by simpa using heq, hall, hhold⟩

end Lss.Analysis.SustainedRule
