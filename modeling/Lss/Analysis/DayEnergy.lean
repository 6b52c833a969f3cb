import Mathlib.Tactic.Positivity
import Lss.Analysis.EnergyRows

/-!
# The energy of a day

The cost since midnight integrates the power of the stored samples; the longer windows add up
the rows of `sum_energy_j`. Both integrate over the steps between readings that are at most
half a minute apart, but the rollup only sees a step whose two samples are neighbours and both
carry the engine's metrics. The two agree over a range of closed buckets, but for the step that
enters it, exactly when the other steps of the range hold no energy.
-/

set_option autoImplicit false

namespace Lss.Analysis.DayEnergy

open Lss.Library.Buckets Lss.Library.Steps Lss.Model Lss.Analysis.RollupRows
  Lss.Analysis.Readings Lss.Analysis.SampleRows Lss.Analysis.EnergyRows

variable (calendar : Calendar) (table : RateTable) (stored : List Sample) (start stop : ℤ)

/-! ## The steps of a range -/

/-- Whether the rollup sees a step: no stored sample lies between, and both ends carry the
engine's metrics. -/
def Seen (p : Sample × Sample) : Prop := Direct Sample.ts stored p ∧ metered p = true

instance (p : Sample × Sample) : Decidable (Seen stored p) :=
  inferInstanceAs (Decidable (_ ∧ _))

/-- The steps of a range that the rollup does not see. -/
def missedSteps : List (Sample × Sample) :=
  (readingSteps stored start stop).filter fun p => ¬ Seen stored p

/-- The step that enters a range from before it. -/
def enteringSteps : List (Sample × Sample) :=
  (steps stored).filter fun p => p.1.ts < start ∧ EndsIn start stop p

/-- The energy of the step that enters the range, as the rollup has it, in kilowatt hours. -/
def enteringKwh : ℚ := ((enteringSteps stored start stop).map seenJoules).sum / 3600000

/-! ## The readings -/

variable {calendar table stored start stop}

/-- With a flat rate, every step that is not a gap is priced. -/
theorem kwh_foldl {usdPerKwh : ℚ} (hflat : table.plan = .flat usdPerKwh)
    {ps : List (Sample × Sample)} (clock : ∀ p ∈ ps, (calendar p.1.ts).isSome)
    (readings : ∀ p ∈ ps, p.1.watts.isSome ∧ p.2.watts.isSome) (out : CostBreakdown) :
    ((ps.map powerStep).foldl (accumulateStep calendar table) out).kwh =
      out.kwh + (ps.map joules).sum / 3600000 := by
  induction ps generalizing out with
  | nil => simp
  | cons p ps ih =>
      have hstep : (accumulateStep calendar table out (powerStep p)).kwh =
          out.kwh + joules p / 3600000 := by
        obtain ⟨h1, h2⟩ := readings p (by simp)
        obtain ⟨a, ha⟩ := Option.isSome_iff_exists.1 h1
        obtain ⟨b, hb⟩ := Option.isSome_iff_exists.1 h2
        unfold accumulateStep powerStep
        dsimp only
        by_cases hgap : Gap p.1.ts p.2.ts
        · rw [if_pos hgap, joules_of_gap hgap]
          simp [CostBreakdown.skip]
        · obtain ⟨t, ht⟩ := Option.isSome_iff_exists.1 (clock p (by simp))
          have hprice : table.usdPerKwhAt calendar p.1.ts = some (usdPerKwh, "flat") := by
            unfold RateTable.usdPerKwhAt RateTable.dayContextAt RateTable.priceFor
            rw [ht, hflat]
            rfl
          have hjoules : joules p = stepJoules (p.1.ts, a) (p.2.ts, b) := by
            unfold joules
            rw [ha, hb]
            exact if_neg hgap
          rw [if_neg hgap, hjoules, ha, hb]
          unfold CostBreakdown.price
          rw [hprice]
          rfl
      rw [List.map_cons, List.foldl_cons, ih (fun q hq => clock q (List.mem_cons_of_mem _ hq))
        (fun q hq => readings q (List.mem_cons_of_mem _ hq)), hstep, List.map_cons, List.sum_cons]
      ring

/-- What is integrated from the samples of a range. -/
theorem kwh_accumulate {usdPerKwh : ℚ} (hflat : table.plan = .flat usdPerKwh)
    (clock : ∀ s ∈ stored, (calendar s.ts).isSome) :
    (accumulate calendar table (wattSeries stored start stop)).kwh =
      ((readingSteps stored start stop).map joules).sum / 3600000 := by
  unfold accumulate
  rw [steps_wattSeries, kwh_foldl hflat]
  · exact zero_add _
  · intro p hp
    exact clock p.1 (readings_of_mem hp).1.1
  · intro p hp
    obtain ⟨h1, h2⟩ := readings_of_mem hp
    exact ⟨watts_of_hasReading h1.2, watts_of_hasReading h2.2⟩

/-! ## The steps of both -/

/-- A sum does not change when only what counts nothing is left out. -/
theorem sum_filter_eq {α : Type} {f g : α → ℚ} {keep keep' : α → Bool} {xs : List α}
    (h : ∀ x ∈ xs, (if keep x then f x else 0) = if keep' x then g x else 0) :
    ((xs.filter keep).map f).sum = ((xs.filter keep').map g).sum := by
  induction xs with
  | nil => rfl
  | cons x xs ih =>
      have hx := h x (by simp)
      have hrest := ih fun y hy => h y (List.mem_cons_of_mem _ hy)
      rw [List.filter_cons, List.filter_cons]
      split <;> split <;> simp_all

/-- The steps between readings that the rollup sees hold the energy that it sees inside the
range. -/
theorem sum_seen (increasing : Increasing stored) :
    (((readingSteps stored start stop).filter fun p => Seen stored p).map joules).sum =
      (((steps stored).filter fun p => start ≤ p.1.ts ∧ EndsIn start stop p).map
        seenJoules).sum := by
  have hsplit : (readingSteps stored start stop).filter (fun p => decide (Seen stored p)) =
      ((steps stored).filter fun p => hasReading start stop p.1 && hasReading start stop p.2).filter
        metered := by
    rw [← steps_filter (hasReading start stop) increasing, List.filter_filter]
    apply List.filter_congr
    intro p _
    rw [Bool.eq_iff_iff, Bool.and_eq_true, decide_eq_true_iff, decide_eq_true_iff]
    exact and_comm
  rw [hsplit, List.filter_filter]
  apply sum_filter_eq
  intro p hp
  have hlt : p.1.ts < p.2.ts := rel_of_mem_steps increasing hp
  unfold seenJoules hasReading EndsIn
  by_cases hm : metered p = true
  · by_cases hw : p.1.watts.isSome = true ∧ p.2.watts.isSome = true
    · rw [hw.1, hw.2, hm]
      simp only [Bool.and_true, Bool.true_and, if_true, Bool.and_eq_true, decide_eq_true_eq]
      congr 1
      rw [eq_iff_iff]
      omega
    · -- a sample without a reading: the step holds no energy
      have hzero : joules p = 0 := by
        unfold joules
        cases h1 : p.1.watts with
        | none => rfl
        | some a =>
            cases h2 : p.2.watts with
            | none => rfl
            | some b => exact absurd ⟨by rw [h1]; rfl, by rw [h2]; rfl⟩ hw
      rw [hzero, ite_self, ite_self]
      exact (ite_self _).symm
  · rw [Bool.not_eq_true] at hm
    rw [hm]
    simp

/-- Everything the rollup sees of a range enters it or stays inside. -/
theorem sum_ending :
    (((steps stored).filter fun p => EndsIn start stop p).map seenJoules).sum =
      ((enteringSteps stored start stop).map seenJoules).sum +
        (((steps stored).filter fun p => start ≤ p.1.ts ∧ EndsIn start stop p).map
          seenJoules).sum := by
  rw [sum_filter_add seenJoules (fun p => p.1.ts < start), List.filter_filter, List.filter_filter]
  unfold enteringSteps
  congr 4
  · funext p
    simp
  · funext p
    simp

/-- The energy that was integrated is the energy of the rows, without that of the step that
enters the range and with that of the steps the rollup does not see. -/
theorem kwh_eq {usdPerKwh : ℚ} (hflat : table.plan = .flat usdPerKwh) {fs : List Feed}
    (clock : ∀ s ∈ fs.map Feed.sample, (calendar s.ts).isSome)
    (increasing : Increasing (fs.map Feed.sample)) {res : ℤ} (hres : res ∈ [res1m, res10m])
    (range : ClosedRange res start stop (fs.map Feed.sample)) :
    (accumulate calendar table (wattSeries (fs.map Feed.sample) start stop)).kwh =
      ((energyKwhBuckets (({} : Pipeline).pushAll {} fs).2 res start stop).map Prod.snd).sum -
        enteringKwh (fs.map Feed.sample) start stop +
        ((missedSteps (fs.map Feed.sample) start stop).map joules).sum / 3600000 := by
  rw [kwh_accumulate hflat clock, sum_energyKwhBuckets increasing hres range,
    sum_filter_add joules (Seen (fs.map Feed.sample)), sum_seen increasing, sum_ending]
  unfold enteringKwh missedSteps
  ring

/-! ## When the two agree -/

/-- The day has one energy: what is integrated from the samples of a range is what the rows of
a tier add up to, but for the step that enters the range. -/
def SameEnergy (calendar : Calendar) (table : RateTable) (stored : List Sample) (db : RollupDb)
    (res start stop : ℤ) : Prop :=
  (accumulate calendar table (wattSeries stored start stop)).kwh =
    ((energyKwhBuckets db res start stop).map Prod.snd).sum - enteringKwh stored start stop

instance (calendar : Calendar) (table : RateTable) (stored : List Sample) (db : RollupDb)
    (res start stop : ℤ) : Decidable (SameEnergy calendar table stored db res start stop) :=
  inferInstanceAs (Decidable (_ = _))

/-- A step that is no gap holds no energy only without power, when no reading is negative. -/
theorem joules_eq_zero {p : Sample × Sample} {a b : ℚ} (ha : p.1.watts = some a)
    (hb : p.2.watts = some b) (ha0 : 0 ≤ a) (hb0 : 0 ≤ b) (hgap : ¬ Gap p.1.ts p.2.ts) :
    joules p = 0 ↔ a = 0 ∧ b = 0 := by
  have hdt : (0 : ℚ) < (p.2.ts - p.1.ts : ℤ) := by
    unfold Gap at hgap
    rw [not_or] at hgap
    exact_mod_cast not_le.1 hgap.1
  unfold joules
  rw [ha, hb]
  dsimp only
  rw [if_neg hgap]
  unfold stepJoules
  constructor
  · intro h
    rcases mul_eq_zero.1 h with h | h
    · constructor <;> linarith
    · exact absurd h hdt.ne'
  · rintro ⟨rfl, rfl⟩
    simp

theorem joules_nonneg {p : Sample × Sample} (h1 : ∀ w ∈ p.1.watts, 0 ≤ w)
    (h2 : ∀ w ∈ p.2.watts, 0 ≤ w) : 0 ≤ joules p := by
  unfold joules
  cases ha : p.1.watts with
  | none => exact le_rfl
  | some a =>
      cases hb : p.2.watts with
      | none => exact le_rfl
      | some b =>
          dsimp only
          split
          · exact le_rfl
          · next hgap =>
              have hdt : (0 : ℚ) < (p.2.ts - p.1.ts : ℤ) := by
                unfold Gap at hgap
                rw [not_or] at hgap
                exact_mod_cast not_le.1 hgap.1
              have ha0 := h1 a (by simp [ha])
              have hb0 := h2 b (by simp [hb])
              unfold stepJoules
              positivity

/-- The samples and the rollup give a range of closed buckets one energy exactly when the
steps between readings that the rollup does not see hold none: when no reading is negative,
exactly when each of them is a gap or without power at both ends. -/
theorem same_energy_iff (usdPerKwh : ℚ) (hflat : table.plan = .flat usdPerKwh)
    (fs : List Feed) (clock : ∀ s ∈ fs.map Feed.sample, (calendar s.ts).isSome)
    (increasing : Increasing (fs.map Feed.sample)) (res : ℤ) (hres : res ∈ [res1m, res10m])
    (start stop : ℤ) (range : ClosedRange res start stop (fs.map Feed.sample)) :
    (SameEnergy calendar table (fs.map Feed.sample) (({} : Pipeline).pushAll {} fs).2 res
        start stop ↔
      ((missedSteps (fs.map Feed.sample) start stop).map joules).sum = 0) ∧
    ((∀ s ∈ fs.map Feed.sample, ∀ w ∈ s.watts, 0 ≤ w) →
      (SameEnergy calendar table (fs.map Feed.sample) (({} : Pipeline).pushAll {} fs).2 res
          start stop ↔
        ∀ p ∈ missedSteps (fs.map Feed.sample) start stop, ¬ Gap p.1.ts p.2.ts →
          p.1.watts = some 0 ∧ p.2.watts = some 0)) := by
  have hiff : SameEnergy calendar table (fs.map Feed.sample) (({} : Pipeline).pushAll {} fs).2 res
      start stop ↔ ((missedSteps (fs.map Feed.sample) start stop).map joules).sum = 0 := by
    unfold SameEnergy
    rw [kwh_eq hflat clock increasing hres range, add_eq_left, div_eq_zero_iff]
    norm_num
  refine ⟨hiff, ?_⟩
  intro hnonneg
  have hmem : ∀ p ∈ missedSteps (fs.map Feed.sample) start stop,
      p ∈ readingSteps (fs.map Feed.sample) start stop := fun p hp => (List.mem_filter.1 hp).1
  rw [hiff, sum_eq_zero_iff]
  · apply forall₂_congr
    intro p hp
    obtain ⟨⟨hp1, hr1⟩, hp2, hr2⟩ := readings_of_mem (hmem p hp)
    obtain ⟨a, ha⟩ := Option.isSome_iff_exists.1 (watts_of_hasReading hr1)
    obtain ⟨b, hb⟩ := Option.isSome_iff_exists.1 (watts_of_hasReading hr2)
    by_cases hgap : Gap p.1.ts p.2.ts
    · simp [joules_of_gap hgap, hgap]
    · rw [joules_eq_zero ha hb (hnonneg p.1 hp1 a ha) (hnonneg p.2 hp2 b hb) hgap, ha, hb]
      simp [hgap]
  · intro p hp
    obtain ⟨⟨hp1, -⟩, hp2, -⟩ := readings_of_mem (hmem p hp)
    exact joules_nonneg (hnonneg p.1 hp1) (hnonneg p.2 hp2)

/-! ## A minute with and without the engine -/

/-- Three samples at 100 W, the last of them in the next minute. -/
def minuteAt100W (metrics : Option ServeMetrics) : List Feed :=
  [600, 605, 660].map fun ts =>
    { sample := { ts, metrics, gpusOk := true, gpus := [{ powerW := some 100 }] } }

theorem minute_closed (metrics : Option ServeMetrics) :
    ClosedRange res1m 600 660 ((minuteAt100W metrics).map Feed.sample) where
  start_dvd := by decide
  stop_dvd := by decide
  closed := by
    intro b _ _ hb
    refine ⟨_, List.mem_cons_of_mem _ (List.mem_cons_of_mem _ (List.mem_singleton.2 rfl)), ?_⟩
    exact hb

/-- While the engine answers, the minute has one energy. -/
theorem minute_with_engine :
    SameEnergy firstDay { plan := .flat (3 / 10) } ((minuteAt100W (some {})).map Feed.sample)
      (({} : Pipeline).pushAll {} (minuteAt100W (some {}))).2 res1m 600 660 :=
  (same_energy_iff (3 / 10) rfl (minuteAt100W (some {})) (by decide) (by decide) res1m
    (by decide) 600 660 (minute_closed _)).1.2 (by decide +kernel)

/-- While the engine is down, the samples have the energy of the minute and the rollup has
none. -/
theorem minute_without_engine :
    Increasing ((minuteAt100W none).map Feed.sample) ∧
    ClosedRange res1m 600 660 ((minuteAt100W none).map Feed.sample) ∧
    ¬ SameEnergy firstDay { plan := .flat (3 / 10) } ((minuteAt100W none).map Feed.sample)
      (({} : Pipeline).pushAll {} (minuteAt100W none)).2 res1m 600 660 :=
  ⟨by decide, minute_closed _, by decide +kernel⟩

end Lss.Analysis.DayEnergy
