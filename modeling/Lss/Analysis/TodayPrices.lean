import Mathlib.Tactic.Linarith
import Mathlib.Tactic.FieldSimp
import Lss.Analysis.Readings

/-!
# Today's price per token

The price per million tokens divides what the stored samples since midnight cost by the growth
of a counter since midnight. The cost comes from the database, the growth from the history in
memory, which keeps one hour. This file compares each price with the cost and the growth of one
window, the stored samples from midnight to now. They agree exactly when nothing was priced,
when the history has forgotten no growth of the day, or when what was priced cost nothing.
-/

set_option autoImplicit false

namespace Lss.Analysis.TodayPrices

open Lss.Library.Steps Lss.Model Lss.Analysis.Readings

/-! ## The growth of a counter -/

/-- What a counter grew by from one sample to the next, where the two can be compared. -/
def stepGrowth (pick : ServeMetrics → ℚ) (p : Sample × Sample) : ℚ :=
  match p.1.metrics, p.2.metrics with
  | some pm, some m => if m.comparable pm ∧ pick pm ≤ pick m then pick m - pick pm else 0
  | _, _ => 0

theorem stepGrowth_nonneg (pick : ServeMetrics → ℚ) (p : Sample × Sample) :
    0 ≤ stepGrowth pick p := by
  unfold stepGrowth
  split
  · split
    · next h => linarith [h.2]
    · exact le_rfl
  · exact le_rfl

theorem foldl_counterStep (pick : ServeMetrics → ℚ) (prev : Sample) (samples : List Sample)
    (acc : Option ℚ) :
    (samples.foldl (counterStep pick) (acc, prev.metrics)).1.getD 0 =
      acc.getD 0 + ((steps (prev :: samples)).map (stepGrowth pick)).sum := by
  induction samples generalizing prev acc with
  | nil => exact (add_zero _).symm
  | cons s samples ih =>
      have hstep : counterStep pick (acc, prev.metrics) s =
          ((counterStep pick (acc, prev.metrics) s).1, s.metrics) := by
        unfold counterStep
        cases s.metrics with
        | none => rfl
        | some m =>
            cases prev.metrics with
            | none => rfl
            | some pm =>
                dsimp only
                split <;> rfl
      have hgrowth : (counterStep pick (acc, prev.metrics) s).1.getD 0 =
          acc.getD 0 + stepGrowth pick (prev, s) := by
        unfold counterStep stepGrowth
        cases s.metrics with
        | none => cases prev.metrics <;> exact (add_zero _).symm
        | some m =>
            cases prev.metrics with
            | none => exact (add_zero _).symm
            | some pm =>
                dsimp only
                split
                · rfl
                · exact (add_zero _).symm
      have hsteps : steps (prev :: s :: samples) = (prev, s) :: steps (s :: samples) := rfl
      rw [List.foldl_cons, hstep, ih, hgrowth, hsteps, List.map_cons, List.sum_cons, add_assoc]

/-- A counter's growth is the sum of what its steps grew by. -/
theorem getD_counterGrowth (pick : ServeMetrics → ℚ) (samples : List Sample) :
    (counterGrowth pick samples).getD 0 = ((steps samples).map (stepGrowth pick)).sum := by
  cases samples with
  | nil => rfl
  | cons s samples =>
      have hfirst : counterStep pick (none, none) s = (none, s.metrics) := by
        unfold counterStep
        cases s.metrics <;> rfl
      unfold counterGrowth
      rw [List.foldl_cons, hfirst, foldl_counterStep]
      exact zero_add _

theorem getD_counterGrowth_nonneg (pick : ServeMetrics → ℚ) (samples : List Sample) :
    0 ≤ (counterGrowth pick samples).getD 0 := by
  rw [getD_counterGrowth]
  apply List.sum_nonneg
  intro x hx
  obtain ⟨p, -, rfl⟩ := List.mem_map.1 hx
  exact stepGrowth_nonneg pick p

/-! ## What the history remembers of the day -/

variable (calendar : Calendar) (table : RateTable) (stored : List Sample) (now midnight : ℤ)

/-- The time from which on the history keeps the samples. -/
def historyCutoff : ℤ := stored.getLast?.elim 0 fun l => l.ts - historySecs - seriesStepSecs

/-- The stored samples from midnight to now. -/
def day : List Sample := samplesBetween stored midnight (now + 1)

/-- The samples of the day that the history has. -/
def remembered : List Sample := (day stored now midnight).filter fun s => historyCutoff stored ≤ s.ts

variable {stored now midnight}

/-- The window of the history is what it remembers of the day. -/
theorem counterWindow_eq (increasing : Increasing stored) (current : ∀ s ∈ stored, s.ts ≤ now)
    (pick : ServeMetrics → ℚ) :
    History.counterWindow (stored.foldl History.push []) now (now - midnight) pick =
      counterGrowth pick (remembered stored now midnight) := by
  unfold History.counterWindow remembered day samplesBetween
  cases hlast : stored.getLast? with
  | none =>
      rw [List.getLast?_eq_none_iff.1 hlast]
      rfl
  | some last =>
      have hcutoff : historyCutoff stored = last.ts - historySecs - seriesStepSecs := by
        unfold historyCutoff
        rw [hlast]
        rfl
      rw [foldl_push increasing hlast, List.filter_filter, List.filter_filter, hcutoff]
      congr 1
      apply List.filter_congr
      intro s hs
      have hnow := current s hs
      rw [Bool.eq_iff_iff]
      simp only [Bool.and_eq_true, decide_eq_true_eq]
      omega

/-- The day's growth is what was forgotten of it and what is remembered. -/
theorem growth_split (increasing : Increasing stored) (pick : ServeMetrics → ℚ) :
    (counterGrowth pick (day stored now midnight)).getD 0 =
      (((steps (day stored now midnight)).filter fun p => p.1.ts < historyCutoff stored).map
        (stepGrowth pick)).sum +
      (counterGrowth pick (remembered stored now midnight)).getD 0 := by
  have hday : Increasing (day stored now midnight) := increasing.filter _
  rw [getD_counterGrowth, getD_counterGrowth,
    sum_filter_add _ (fun p : Sample × Sample => p.1.ts < historyCutoff stored)]
  unfold remembered
  rw [steps_filter_le _ hday]
  congr 4
  funext p
  simp

/-- No step of a counter that begins before what the history keeps grew. -/
def NothingForgotten (stored : List Sample) (now midnight : ℤ) (pick : ServeMetrics → ℚ) : Prop :=
  ∀ p ∈ steps (day stored now midnight), p.1.ts < historyCutoff stored → stepGrowth pick p = 0

/-- Some step of a counter that begins in what the history keeps grew. -/
def GrewSince (stored : List Sample) (now midnight : ℤ) (pick : ServeMetrics → ℚ) : Prop :=
  ∃ p ∈ steps (day stored now midnight), historyCutoff stored ≤ p.1.ts ∧ 0 < stepGrowth pick p

theorem nothingForgotten_iff (increasing : Increasing stored) (pick : ServeMetrics → ℚ) :
    NothingForgotten stored now midnight pick ↔
      (counterGrowth pick (remembered stored now midnight)).getD 0 =
        (counterGrowth pick (day stored now midnight)).getD 0 := by
  rw [growth_split increasing pick, right_eq_add, sum_eq_zero_iff fun p _ => stepGrowth_nonneg pick p]
  unfold NothingForgotten
  constructor
  · intro h p hp
    rw [List.mem_filter, decide_eq_true_iff] at hp
    exact h p hp.1 hp.2
  · intro h p hp hold
    exact h p (List.mem_filter.2 ⟨hp, by simpa using hold⟩)

theorem grewSince_iff (increasing : Increasing stored) (pick : ServeMetrics → ℚ) :
    GrewSince stored now midnight pick ↔
      0 < (counterGrowth pick (remembered stored now midnight)).getD 0 := by
  have hday : Increasing (day stored now midnight) := increasing.filter _
  have hnonneg := getD_counterGrowth_nonneg pick (remembered stored now midnight)
  rw [hnonneg.lt_iff_ne, ne_comm, Ne, getD_counterGrowth,
    sum_eq_zero_iff fun p _ => stepGrowth_nonneg pick p]
  unfold remembered GrewSince
  rw [steps_filter_le _ hday]
  push Not
  constructor
  · rintro ⟨p, hp, hlate, hgrew⟩
    exact ⟨p, List.mem_filter.2 ⟨hp, by simpa using hlate⟩, hgrew.ne'⟩
  · rintro ⟨p, hp, hne⟩
    rw [List.mem_filter, decide_eq_true_iff] at hp
    exact ⟨p, hp.1, hp.2, (stepGrowth_nonneg pick p).lt_of_ne' hne⟩

/-! ## What the day cost -/

/-- The cost of a step between two readings, when it is no gap and has a price. -/
def stepCost (p : Sample × Sample) : Option ℚ :=
  if Gap p.1.ts p.2.ts then none
  else (table.usdPerKwhAt calendar p.1.ts).map fun price => joules p / 3600000 * price.1

variable (stored now midnight)

/-- What the priced steps of the day cost. -/
def dayCosts : List ℚ :=
  (readingSteps stored midnight (now + 1)).filterMap (stepCost calendar table)

/-- What the priced steps of the day cost that begin with the engine at work. -/
def workCosts : List ℚ :=
  ((readingSteps stored midnight (now + 1)).filter fun p => !p.1.idle).filterMap
    (stepCost calendar table)

variable {calendar table stored now midnight}

theorem foldl_accumulateStep (calendar : Calendar) (table : RateTable)
    {ps : List (Sample × Sample)}
    (readings : ∀ p ∈ ps, p.1.watts.isSome ∧ p.2.watts.isSome) (out : CostBreakdown) :
    ((ps.map powerStep).foldl (accumulateStep calendar table) out).usd =
        out.usd + (ps.filterMap (stepCost calendar table)).sum ∧
      ((ps.map powerStep).foldl (accumulateStep calendar table) out).intervalsPriced =
        out.intervalsPriced + (ps.filterMap (stepCost calendar table)).length := by
  induction ps generalizing out with
  | nil => simp
  | cons p ps ih =>
      obtain ⟨husd, hpriced⟩ := ih (fun q hq => readings q (List.mem_cons_of_mem _ hq))
        (accumulateStep calendar table out (powerStep p))
      have hstep : accumulateStep calendar table out (powerStep p) =
          if Gap p.1.ts p.2.ts then out.skip
          else out.price calendar table p.1.ts (joules p / 3600000) := by
        obtain ⟨a, ha⟩ := Option.isSome_iff_exists.1 (readings p (by simp)).1
        obtain ⟨b, hb⟩ := Option.isSome_iff_exists.1 (readings p (by simp)).2
        unfold accumulateStep powerStep joules
        rw [ha, hb]
        dsimp only [Option.getD_some]
        split <;> rfl
      rw [List.map_cons, List.foldl_cons, husd, hpriced, hstep, List.filterMap_cons]
      unfold stepCost
      by_cases hgap : Gap p.1.ts p.2.ts
      · rw [if_pos hgap, if_pos hgap]
        exact ⟨rfl, rfl⟩
      · rw [if_neg hgap, if_neg hgap]
        unfold CostBreakdown.price
        cases table.usdPerKwhAt calendar p.1.ts with
        | none => exact ⟨rfl, rfl⟩
        | some price =>
            simp only [Option.map_some, List.sum_cons, List.length_cons]
            constructor
            · exact add_assoc _ _ _
            · show out.intervalsPriced + 1 + _ = _
              omega

theorem accumulate_day :
    (accumulate calendar table (wattSeries stored midnight (now + 1))).usd =
        (dayCosts calendar table stored now midnight).sum ∧
      (accumulate calendar table (wattSeries stored midnight (now + 1))).intervalsPriced =
        (dayCosts calendar table stored now midnight).length := by
  unfold accumulate
  rw [steps_wattSeries]
  obtain ⟨husd, hpriced⟩ := foldl_accumulateStep calendar table
    (fun p (hp : p ∈ readingSteps stored midnight (now + 1)) =>
      ⟨watts_of_hasReading (readings_of_mem hp).1.2, watts_of_hasReading (readings_of_mem hp).2.2⟩)
    {}
  exact ⟨husd.trans (zero_add _), hpriced.trans (Nat.zero_add _)⟩

/-- The power at the two ends of a step, and whether the engine was idle there. -/
def activityStep (p : Sample × Sample) : (ℤ × ℚ × Bool) × (ℤ × ℚ × Bool) :=
  ((p.1.ts, p.1.watts.getD 0, p.1.idle), (p.2.ts, p.2.watts.getD 0, p.2.idle))

theorem foldl_accumulateSplitStep (ps : List (Sample × Sample))
    (out : CostBreakdown × CostBreakdown) :
    ((ps.map activityStep).foldl (accumulateSplitStep calendar table) out).1 =
      ((ps.filter fun p => !p.1.idle).map powerStep).foldl (accumulateStep calendar table)
        out.1 := by
  induction ps generalizing out with
  | nil => rfl
  | cons p ps ih =>
      rw [List.map_cons, List.foldl_cons, ih]
      unfold accumulateSplitStep activityStep
      cases hidle : p.1.idle with
      | true => rw [List.filter_cons_of_neg (by simp [hidle])]; rfl
      | false => rw [List.filter_cons_of_pos (by simp [hidle])]; rfl

theorem accumulateSplit_day :
    (accumulateSplit calendar table (wattSeriesWithActivity stored midnight (now + 1))).1.usd =
        (workCosts calendar table stored now midnight).sum ∧
      (accumulateSplit calendar table
          (wattSeriesWithActivity stored midnight (now + 1))).1.intervalsPriced =
        (workCosts calendar table stored now midnight).length := by
  have hsteps : steps (wattSeriesWithActivity stored midnight (now + 1)) =
      (readingSteps stored midnight (now + 1)).map activityStep := by
    unfold wattSeriesWithActivity
    rw [filterMap_watts stored midnight (now + 1) fun s w => (s.ts, w, s.idle), steps_map]
    rfl
  unfold accumulateSplit
  rw [hsteps, foldl_accumulateSplitStep]
  have hreadings : ∀ p ∈ (readingSteps stored midnight (now + 1)).filter fun p => !p.1.idle,
      p.1.watts.isSome ∧ p.2.watts.isSome := by
    intro p hp
    obtain ⟨h1, h2⟩ := readings_of_mem (List.mem_filter.1 hp).1
    exact ⟨watts_of_hasReading h1.2, watts_of_hasReading h2.2⟩
  obtain ⟨husd, hpriced⟩ := foldl_accumulateStep calendar table
    hreadings {}
  exact ⟨husd.trans (zero_add _), hpriced.trans (Nat.zero_add _)⟩

/-! ## The price of a window -/

/-- The price per million tokens of some costs; nothing when nothing was priced or there are no
tokens. -/
def perMillion (costs : List ℚ) (tokens : Option ℚ) : Option ℚ :=
  if costs = [] then none else tokens.bind (usdPerMillionTokens costs.sum)

theorem bind_usdPerMillionTokens (usd : ℚ) (tokens : Option ℚ) :
    tokens.bind (usdPerMillionTokens usd) = usdPerMillionTokens usd (tokens.getD 0) := by
  cases tokens with
  | none => exact (if_neg (lt_irrefl 0)).symm
  | some t => rfl

theorem usdPerMillionTokens_eq_iff {usd t u : ℚ} (ht : 0 ≤ t) (hu : 0 ≤ u) :
    usdPerMillionTokens usd t = usdPerMillionTokens usd u ↔
      t = u ∨ (usd = 0 ∧ 0 < t ∧ 0 < u) := by
  unfold usdPerMillionTokens
  by_cases htpos : 0 < t
  · by_cases hupos : 0 < u
    · rw [if_pos htpos, if_pos hupos, Option.some.injEq, mul_left_inj' (by norm_num),
        div_eq_div_iff htpos.ne' hupos.ne', mul_eq_mul_left_iff]
      constructor
      · rintro (h | h)
        · exact Or.inl h.symm
        · exact Or.inr ⟨h, htpos, hupos⟩
      · rintro (h | h)
        · exact Or.inl h.symm
        · exact Or.inr h.1
    · rw [if_pos htpos, if_neg hupos]
      simp only [reduceCtorEq, false_iff]
      rintro (h | h)
      · exact hupos (h ▸ htpos)
      · exact hupos h.2.2
  · have ht0 : t = 0 := le_antisymm (not_lt.1 htpos) ht
    by_cases hupos : 0 < u
    · rw [if_neg htpos, if_pos hupos]
      simp only [reduceCtorEq, false_iff]
      rintro (h | h)
      · exact htpos (h ▸ hupos)
      · exact htpos h.2.1
    · have hu0 : u = 0 := le_antisymm (not_lt.1 hupos) hu
      simp [ht0, hu0]

/-- Two token counts give some costs one price exactly when nothing was priced, they are the
same, or the costs come to nothing. -/
theorem perMillion_eq_iff (costs : List ℚ) {x y : Option ℚ} (hx : 0 ≤ x.getD 0)
    (hy : 0 ≤ y.getD 0) :
    perMillion costs x = perMillion costs y ↔
      costs = [] ∨ x.getD 0 = y.getD 0 ∨ (costs.sum = 0 ∧ 0 < x.getD 0 ∧ 0 < y.getD 0) := by
  unfold perMillion
  by_cases hnone : costs = []
  · simp [hnone]
  · rw [if_neg hnone, if_neg hnone, bind_usdPerMillionTokens, bind_usdPerMillionTokens,
      usdPerMillionTokens_eq_iff hx hy]
    simp [hnone]

theorem figure_eq_perMillion {b : CostBreakdown} {costs : List ℚ} (tokens : Option ℚ)
    (h : b.usd = costs.sum ∧ b.intervalsPriced = costs.length) :
    b.figure (tokens.bind (usdPerMillionTokens b.usd)) = perMillion costs tokens := by
  unfold CostBreakdown.figure perMillion
  rw [h.1, h.2]
  by_cases hnone : costs = []
  · simp [hnone]
  · rw [if_neg hnone, if_pos (List.length_pos_iff.2 hnone)]

/-! ## The three prices -/

/-- The growth of the three token counters over some samples. -/
def tokensOver (samples : List Sample) : TodayTokens where
  generated := counterGrowth ServeMetrics.generationTokensTotal samples
  prompt := counterGrowth ServeMetrics.promptTokensTotal samples
  cached := counterGrowth ServeMetrics.cachedTokensTotal samples

theorem getD_realWork_nonneg (samples : List Sample) :
    0 ≤ (tokensOver samples).realWork.getD 0 := by
  have hgenerated := getD_counterGrowth_nonneg ServeMetrics.generationTokensTotal samples
  unfold TodayTokens.realWork tokensOver
  dsimp only
  split
  · next p c g _ _ hg =>
      rw [hg, Option.getD_some] at hgenerated
      have huncached : 0 ≤ max (p - c) 0 := le_max_right _ _
      exact add_nonneg huncached hgenerated
  · exact le_rfl

variable (calendar table stored now midnight)

/-- What the poll loop shows, with the history of the samples that were stored and pushed.
SOURCE: lss-collector/src/main.rs:1185-1210 -/
def statusShown (db : RollupDb) (liveWatts : Option ℚ) : CostStatus :=
  computeCost calendar stored db table now midnight liveWatts
    (TodayTokens.ofHistory (stored.foldl History.push []) now midnight)

variable {calendar table stored now midnight}

theorem ofHistory_eq (midnight : ℤ) (increasing : Increasing stored) (current : ∀ s ∈ stored, s.ts ≤ now) :
    TodayTokens.ofHistory (stored.foldl History.push []) now midnight =
      tokensOver (remembered stored now midnight) := by
  unfold TodayTokens.ofHistory tokensOver
  rw [counterWindow_eq increasing current, counterWindow_eq increasing current,
    counterWindow_eq increasing current]

/-- The price per generated token and that per prompt token are those of the day exactly when
nothing of the day was priced, or the history has forgotten no growth of the counter, or what
was priced cost nothing and the counter grew within what the history keeps; likewise the price
of real work, of the steps that begin with the engine at work and the tokens it computed. -/
theorem today_prices_iff (calendar : Calendar) (table : RateTable) (stored : List Sample)
    (now midnight : ℤ) (increasing : Increasing stored) (current : ∀ s ∈ stored, s.ts ≤ now)
    (db : RollupDb) (liveWatts : Option ℚ) :
    ((statusShown calendar table stored now midnight db
          liveWatts).todayUsdPerMillionGeneratedTokens =
        perMillion (dayCosts calendar table stored now midnight)
          (tokensOver (day stored now midnight)).generated ↔
      dayCosts calendar table stored now midnight = [] ∨
        NothingForgotten stored now midnight ServeMetrics.generationTokensTotal ∨
        ((dayCosts calendar table stored now midnight).sum = 0 ∧
          GrewSince stored now midnight ServeMetrics.generationTokensTotal)) ∧
    ((statusShown calendar table stored now midnight db
          liveWatts).todayUsdPerMillionPromptTokens =
        perMillion (dayCosts calendar table stored now midnight)
          (tokensOver (day stored now midnight)).prompt ↔
      dayCosts calendar table stored now midnight = [] ∨
        NothingForgotten stored now midnight ServeMetrics.promptTokensTotal ∨
        ((dayCosts calendar table stored now midnight).sum = 0 ∧
          GrewSince stored now midnight ServeMetrics.promptTokensTotal)) ∧
    ((statusShown calendar table stored now midnight db
          liveWatts).todayUsdPerMillionRealWorkTokens =
        perMillion (workCosts calendar table stored now midnight)
          (tokensOver (day stored now midnight)).realWork ↔
      workCosts calendar table stored now midnight = [] ∨
        (tokensOver (remembered stored now midnight)).realWork.getD 0 =
          (tokensOver (day stored now midnight)).realWork.getD 0 ∨
        ((workCosts calendar table stored now midnight).sum = 0 ∧
          0 < (tokensOver (remembered stored now midnight)).realWork.getD 0 ∧
          0 < (tokensOver (day stored now midnight)).realWork.getD 0)) := by
  -- one counter: more was counted over the day than within what is remembered
  have hcounter : ∀ pick : ServeMetrics → ℚ,
      (perMillion (dayCosts calendar table stored now midnight)
          (counterGrowth pick (remembered stored now midnight)) =
        perMillion (dayCosts calendar table stored now midnight)
          (counterGrowth pick (day stored now midnight)) ↔
      dayCosts calendar table stored now midnight = [] ∨
        NothingForgotten stored now midnight pick ∨
        ((dayCosts calendar table stored now midnight).sum = 0 ∧
          GrewSince stored now midnight pick)) := by
    intro pick
    have hkept := getD_counterGrowth_nonneg pick (remembered stored now midnight)
    have hday := getD_counterGrowth_nonneg pick (day stored now midnight)
    rw [perMillion_eq_iff _ hkept hday, nothingForgotten_iff increasing, grewSince_iff increasing]
    have hmore : (counterGrowth pick (remembered stored now midnight)).getD 0 ≤
        (counterGrowth pick (day stored now midnight)).getD 0 := by
      rw [growth_split increasing]
      apply le_add_of_nonneg_left
      apply List.sum_nonneg
      intro x hx
      obtain ⟨p, -, rfl⟩ := List.mem_map.1 hx
      exact stepGrowth_nonneg pick p
    constructor
    · rintro (h | h | ⟨h, hpos, -⟩)
      · exact Or.inl h
      · exact Or.inr (Or.inl h)
      · exact Or.inr (Or.inr ⟨h, hpos⟩)
    · rintro (h | h | ⟨h, hpos⟩)
      · exact Or.inl h
      · exact Or.inr (Or.inl h)
      · exact Or.inr (Or.inr ⟨h, hpos, hpos.trans_le hmore⟩)
  have htokens := ofHistory_eq midnight increasing current
  unfold statusShown computeCost
  rw [htokens]
  dsimp only
  rw [figure_eq_perMillion _ accumulate_day, figure_eq_perMillion _ accumulate_day,
    figure_eq_perMillion _ accumulateSplit_day]
  refine ⟨hcounter _, hcounter _, ?_⟩
  exact perMillion_eq_iff _ (getD_realWork_nonneg _) (getD_realWork_nonneg _)

/-! ## A day of two hours -/

/-- A poll with the engine at work, at 100 W. -/
def pollAt (ts : ℤ) (generated : ℚ) : Sample :=
  { ts, metrics := some { running := 1, generationTokensTotal := generated }
    gpusOk := true, gpus := [{ powerW := some 100 }] }

/-- A flat rate, whatever the clock says. -/
def flatRate : RateTable := { plan := .flat (3 / 10) }

/-- Within the first hour of the day, the history has all of it. -/
theorem price_in_first_hour :
    (statusShown firstDay flatRate [pollAt 0 0, pollAt 5 1000] 5 0 {}
        none).todayUsdPerMillionGeneratedTokens =
      perMillion (dayCosts firstDay flatRate [pollAt 0 0, pollAt 5 1000] 5 0)
        (tokensOver (day [pollAt 0 0, pollAt 5 1000] 5 0)).generated :=
  (today_prices_iff firstDay flatRate [pollAt 0 0, pollAt 5 1000] 5 0 (by decide) (by decide) {}
    none).1.2 (Or.inr (Or.inl (by unfold NothingForgotten; decide +kernel)))

/-- The first second of a day and two hours later. -/
def twoHours : List Sample := [pollAt 0 0, pollAt 5 1000, pollAt 7200 1000, pollAt 7205 1500]

/-- Two hours into the day, the cost is that of the day and the tokens are those of the last
hour. -/
theorem price_after_two_hours :
    Increasing twoHours ∧ (∀ s ∈ twoHours, s.ts ≤ 7205) ∧
    (statusShown firstDay flatRate twoHours 7205 0 {} none).todayUsdPerMillionGeneratedTokens ≠
      perMillion (dayCosts firstDay flatRate twoHours 7205 0)
        (tokensOver (day twoHours 7205 0)).generated := by
  refine ⟨by decide, by decide, ?_⟩
  decide +kernel

end Lss.Analysis.TodayPrices
