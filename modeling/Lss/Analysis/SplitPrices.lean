import Mathlib.Algebra.Group.Prod
import Lss.Library.Steps
import Lss.Model.Rates

/-!
# Pricing a series in two parts

The work and the standing by of a series are priced by the same loop as the whole, each interval
in the part its start belongs to. So the two parts add up to the whole, period by period, and the
first time that was priced is the earlier one of theirs.
-/

set_option autoImplicit false

namespace Lss.Analysis.SplitPrices

open Lss.Model Lss.Library.Steps

/-- Two parts add up to the whole. -/
structure SameMoney (whole work idle : CostBreakdown) : Prop where
  kwh : whole.kwh = work.kwh + idle.kwh
  usd : whole.usd = work.usd + idle.usd
  byPeriod : ∀ name, whole.byPeriod.getD name (0, 0) =
    work.byPeriod.getD name (0, 0) + idle.byPeriod.getD name (0, 0)
  periods : ∀ name, name ∈ whole.byPeriod ↔ name ∈ work.byPeriod ∨ name ∈ idle.byPeriod
  intervalsPriced : whole.intervalsPriced = work.intervalsPriced + idle.intervalsPriced
  intervalsSkipped : whole.intervalsSkipped = work.intervalsSkipped + idle.intervalsSkipped

theorem sameMoney_start : SameMoney {} {} {} where
  kwh := (add_zero _).symm
  usd := (add_zero _).symm
  byPeriod := fun _ => (add_zero _).symm
  periods := fun _ => (or_self_iff).symm
  intervalsPriced := rfl
  intervalsSkipped := rfl

theorem SameMoney.symm {whole work idle : CostBreakdown} (h : SameMoney whole work idle) :
    SameMoney whole idle work where
  kwh := h.kwh.trans (add_comm _ _)
  usd := h.usd.trans (add_comm _ _)
  byPeriod := fun name => (h.byPeriod name).trans (add_comm _ _)
  periods := fun name => (h.periods name).trans or_comm
  intervalsPriced := h.intervalsPriced.trans (Nat.add_comm _ _)
  intervalsSkipped := h.intervalsSkipped.trans (Nat.add_comm _ _)

/-! ## One interval -/

theorem SameMoney.skip {whole work idle : CostBreakdown} (h : SameMoney whole work idle) :
    SameMoney whole.skip work.skip idle where
  kwh := h.kwh
  usd := h.usd
  byPeriod := h.byPeriod
  periods := h.periods
  intervalsPriced := h.intervalsPriced
  intervalsSkipped := by
    have skipped := h.intervalsSkipped
    show whole.intervalsSkipped + 1 = work.intervalsSkipped + 1 + idle.intervalsSkipped
    omega

theorem getD_add (out : CostBreakdown) (ts : ℤ) (kwh price : ℚ) (name other : String) :
    (out.add ts kwh price name).byPeriod.getD other (0, 0) =
      out.byPeriod.getD other (0, 0) + if name = other then (kwh, kwh * price) else 0 := by
  show (out.byPeriod.insert name _).getD other (0, 0) = _
  rw [Std.ExtTreeMap.getD_insert]
  by_cases h : name = other
  · subst h
    rw [if_pos Std.ReflCmp.compare_self, if_pos rfl]
    rfl
  · rw [if_neg (fun he => h (Std.LawfulEqCmp.compare_eq_iff_eq.mp he)), if_neg h, add_zero]

theorem mem_add {out : CostBreakdown} {ts : ℤ} {kwh price : ℚ} {name other : String} :
    other ∈ (out.add ts kwh price name).byPeriod ↔ name = other ∨ other ∈ out.byPeriod := by
  show other ∈ out.byPeriod.insert name _ ↔ _
  rw [Std.ExtTreeMap.mem_insert, Std.LawfulEqCmp.compare_eq_iff_eq]

theorem SameMoney.add {whole work idle : CostBreakdown} (h : SameMoney whole work idle) (ts : ℤ)
    (kwh price : ℚ) (name : String) :
    SameMoney (whole.add ts kwh price name) (work.add ts kwh price name) idle where
  kwh := by
    show whole.kwh + kwh = work.kwh + kwh + idle.kwh
    rw [h.kwh, add_right_comm]
  usd := by
    show whole.usd + kwh * price = work.usd + kwh * price + idle.usd
    rw [h.usd, add_right_comm]
  byPeriod := by
    intro other
    rw [getD_add, getD_add, h.byPeriod, add_right_comm]
  periods := by
    intro other
    rw [mem_add, mem_add, h.periods, or_assoc]
  intervalsPriced := by
    have priced := h.intervalsPriced
    show whole.intervalsPriced + 1 = work.intervalsPriced + 1 + idle.intervalsPriced
    omega
  intervalsSkipped := h.intervalsSkipped

section Series

variable (calendar : Calendar) (table : RateTable)

/-- An interval is left out of every account, or goes into every account alike. -/
theorem accumulateStep_cases (step : (ℤ × ℚ) × (ℤ × ℚ)) :
    (∀ out, accumulateStep calendar table out step = out.skip) ∨
      ∃ kwh price name, ∀ out, accumulateStep calendar table out step =
        out.add step.1.1 kwh price name := by
  unfold accumulateStep
  by_cases gap : Gap step.1.1 step.2.1
  · left
    intro out
    rw [if_pos gap]
  · unfold CostBreakdown.price
    cases table.usdPerKwhAt calendar step.1.1 with
    | none =>
        left
        intro out
        rw [if_neg gap]
    | some found =>
        right
        refine ⟨stepJoules step.1 step.2 / 3600000, found.1, found.2, ?_⟩
        intro out
        rw [if_neg gap]

/-- A step between two readings, without what the engine did. -/
def powerOf (step : (ℤ × ℚ × Bool) × (ℤ × ℚ × Bool)) : (ℤ × ℚ) × (ℤ × ℚ) :=
  ((step.1.1, step.1.2.1), (step.2.1, step.2.2.1))

/-- The step lemma: an interval goes into the whole and into one of the parts. -/
theorem SameMoney.step {whole : CostBreakdown} {parts : CostBreakdown × CostBreakdown}
    (h : SameMoney whole parts.1 parts.2) (step : (ℤ × ℚ × Bool) × (ℤ × ℚ × Bool)) :
    SameMoney (accumulateStep calendar table whole (powerOf step))
      (accumulateSplitStep calendar table parts step).1
      (accumulateSplitStep calendar table parts step).2 := by
  have priced : ∀ {work idle : CostBreakdown}, SameMoney whole work idle →
      SameMoney (accumulateStep calendar table whole (powerOf step))
        (accumulateStep calendar table work (powerOf step)) idle := by
    intro work idle h
    rcases accumulateStep_cases calendar table (powerOf step) with skip | ⟨kwh, price, name, add⟩
    · rw [skip, skip]
      exact h.skip
    · rw [add, add]
      exact h.add _ _ _ _
  unfold accumulateSplitStep
  cases step.1.2.2 with
  | false => exact priced h
  | true => exact (priced h.symm).symm

/-! ## The first time that was priced -/

/-- What is known of the first times while the intervals `rest` are still to come: none of them
starts before the first time that was priced. -/
structure FirstOf (whole work idle : CostBreakdown)
    (rest : List ((ℤ × ℚ × Bool) × (ℤ × ℚ × Bool))) : Prop where
  first : whole.earliestTs = Option.merge min work.earliestTs idle.earliestTs
  before : ∀ e, whole.earliestTs = some e → ∀ step ∈ rest, e ≤ step.1.1

theorem FirstOf.symm {whole work idle : CostBreakdown}
    {rest : List ((ℤ × ℚ × Bool) × (ℤ × ℚ × Bool))} (h : FirstOf whole work idle rest) :
    FirstOf whole idle work rest := by
  refine ⟨?_, h.before⟩
  rw [h.first]
  cases work.earliestTs with
  | none =>
      cases idle.earliestTs with
      | none => rfl
      | some i => rfl
  | some w =>
      cases idle.earliestTs with
      | none => rfl
      | some i => exact congrArg some (min_comm w i)

/-- A stamp that is no earlier than the first one changes no minimum. -/
theorem merge_or {work idle whole : Option ℤ} {t : ℤ} (h : whole = Option.merge min work idle)
    (before : ∀ e, whole = some e → e ≤ t) :
    whole.or (some t) = Option.merge min (work.or (some t)) idle := by
  subst h
  cases work with
  | none =>
      cases idle with
      | none => rfl
      | some i =>
          have hi : i ≤ t := before i rfl
          exact congrArg some (min_eq_right hi).symm
  | some w =>
      cases idle with
      | none => rfl
      | some i => rfl

/-- The step lemma of the first times. -/
theorem FirstOf.step {whole : CostBreakdown} {parts : CostBreakdown × CostBreakdown}
    {step : (ℤ × ℚ × Bool) × (ℤ × ℚ × Bool)} {rest : List ((ℤ × ℚ × Bool) × (ℤ × ℚ × Bool))}
    (h : FirstOf whole parts.1 parts.2 (step :: rest)) (later : ∀ s ∈ rest, step.1.1 ≤ s.1.1) :
    FirstOf (accumulateStep calendar table whole (powerOf step))
      (accumulateSplitStep calendar table parts step).1
      (accumulateSplitStep calendar table parts step).2 rest := by
  have priced : ∀ {work idle : CostBreakdown}, FirstOf whole work idle (step :: rest) →
      FirstOf (accumulateStep calendar table whole (powerOf step))
        (accumulateStep calendar table work (powerOf step)) idle rest := by
    intro work idle h
    rcases accumulateStep_cases calendar table (powerOf step) with skip | ⟨kwh, price, name, add⟩
    · rw [skip, skip]
      exact ⟨h.first, fun e he s hs => h.before e he s (List.mem_cons_of_mem _ hs)⟩
    · rw [add, add]
      refine ⟨merge_or h.first fun e he => h.before e he step List.mem_cons_self, ?_⟩
      intro e he s hs
      have stamp : whole.earliestTs.or (some step.1.1) = some e := he
      cases first : whole.earliestTs with
      | none =>
          rw [first] at stamp
          cases stamp
          exact later s hs
      | some f =>
          rw [first] at stamp
          cases stamp
          exact h.before _ first s (List.mem_cons_of_mem _ hs)
  unfold accumulateSplitStep
  cases step.1.2.2 with
  | false => exact priced h
  | true => exact (priced h.symm).symm

/-! ## A series -/

/-- The run lemma. -/
theorem sameMoney_foldl (path : List ((ℤ × ℚ × Bool) × (ℤ × ℚ × Bool))) {whole : CostBreakdown}
    {parts : CostBreakdown × CostBreakdown} (h : SameMoney whole parts.1 parts.2) :
    SameMoney ((path.map powerOf).foldl (accumulateStep calendar table) whole)
      (path.foldl (accumulateSplitStep calendar table) parts).1
      (path.foldl (accumulateSplitStep calendar table) parts).2 := by
  induction path generalizing whole parts with
  | nil => exact h
  | cons step path ih => exact ih (h.step calendar table step)

theorem firstOf_foldl {path : List ((ℤ × ℚ × Bool) × (ℤ × ℚ × Bool))}
    (ordered : path.Pairwise fun s t => s.1.1 ≤ t.1.1) {whole : CostBreakdown}
    {parts : CostBreakdown × CostBreakdown} (h : FirstOf whole parts.1 parts.2 path) :
    FirstOf ((path.map powerOf).foldl (accumulateStep calendar table) whole)
      (path.foldl (accumulateSplitStep calendar table) parts).1
      (path.foldl (accumulateSplitStep calendar table) parts).2 [] := by
  induction path generalizing whole parts with
  | nil => exact h
  | cons step path ih =>
      obtain ⟨later, ordered⟩ := List.pairwise_cons.mp ordered
      exact ih ordered (h.step calendar table later)

theorem split_prices_the_same_money (samples : List (ℤ × ℚ × Bool)) :
    let whole := accumulate calendar table (samples.map fun s => (s.1, s.2.1))
    let parts := accumulateSplit calendar table samples
    SameMoney whole parts.1 parts.2 ∧
      ((samples.Pairwise fun s t => s.1 ≤ t.1) →
        whole.earliestTs = Option.merge min parts.1.earliestTs parts.2.earliestTs) := by
  intro whole parts
  have path : steps (samples.map fun s => (s.1, s.2.1)) = (steps samples).map powerOf :=
    steps_map _ _
  have run : whole = ((steps samples).map powerOf).foldl (accumulateStep calendar table) {} := by
    show accumulate calendar table _ = _
    unfold accumulate
    rw [path]
  rw [run]
  refine ⟨sameMoney_foldl calendar table _ sameMoney_start, ?_⟩
  intro ascending
  have start : FirstOf {} {} {} (steps samples) := ⟨rfl, fun e he => nomatch he⟩
  exact (firstOf_foldl calendar table (pairwise_steps ascending) start).first

end Series

/-- A machine whose clock always shows the same hour. -/
def stoppedClock : Calendar := fun _ => some ⟨2026, 1, 5, 12, false⟩

/-- One price for everything. -/
def flatTable : RateTable := { plan := .flat (1 / 10) }

/-- Ten seconds of work and ten of standing by. -/
theorem twenty_seconds_split :
    (accumulate stoppedClock flatTable [(100, 300), (110, 300), (120, 60)]).earliestTs =
      Option.merge min
        (accumulateSplit stoppedClock flatTable
          [(100, 300, false), (110, 300, true), (120, 60, true)]).1.earliestTs
        (accumulateSplit stoppedClock flatTable
          [(100, 300, false), (110, 300, true), (120, 60, true)]).2.earliestTs :=
  (split_prices_the_same_money stoppedClock flatTable
    [(100, 300, false), (110, 300, true), (120, 60, true)]).2 (by decide)

/-- Readings out of order: the first time that was priced is not the earliest one. -/
theorem out_of_order_the_first_is_not_the_earliest :
    let samples : List (ℤ × ℚ × Bool) :=
      [(100, 300, false), (110, 300, false), (50, 60, true), (60, 60, true)]
    let parts := accumulateSplit stoppedClock flatTable samples
    (accumulate stoppedClock flatTable (samples.map fun s => (s.1, s.2.1))).earliestTs = some 100 ∧
      Option.merge min parts.1.earliestTs parts.2.earliestTs = some 50 := by
  decide +kernel

end Lss.Analysis.SplitPrices
