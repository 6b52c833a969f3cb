import Lss.Analysis.ReadingPeaks
import Lss.Library.Padded

/-!
# What a restart of the collector costs a loadout

The figures of a loadout are stored whole, and the sample before the next one is not. The first
sample after a restart has no neighbour, so what the step to it would have added is missing, and
nothing else; except that the minutes over which reading is judged may begin elsewhere.
-/

set_option autoImplicit false

namespace Lss.Analysis.LostIntervals

open Lss.Model Lss.Model.LoadoutAcc Lss.Library.Padded Lss.Analysis.ReadingPeaks

/-! ## Cells of the curve -/

/-- Two cells of one level together. -/
def sumCells (a b : CurveCell) : CurveCell where
  samples := a.samples + b.samples
  tokSSum := a.tokSSum + b.tokSSum
  ttftSumS := a.ttftSumS + b.ttftSumS
  ttftN := a.ttftN + b.ttftN
  specLenSum := a.specLenSum + b.specLenSum
  specN := a.specN + b.specN

theorem sumCells_right_comm (a b c : CurveCell) :
    sumCells (sumCells a b) c = sumCells (sumCells a c) b := by
  simp only [sumCells, add_right_comm]

theorem sumCells_assoc (a b c : CurveCell) :
    sumCells (sumCells a b) c = sumCells a (sumCells b c) := by
  simp only [sumCells, add_assoc]

theorem sumCells_commute (a b : CurveCell) :
    Function.Commute (fun x => sumCells x a) fun x => sumCells x b :=
  fun x => sumCells_right_comm x b a

/-- Adds to the cell of a number of running requests. -/
def addAt (c : Curve) (running : ℚ) (share : CurveCell) : Curve :=
  c.cell running fun x => sumCells x share

theorem cell_eq (c : Curve) (running : ℚ) (change : CurveCell → CurveCell) :
    c.cell running change =
      if running < 1 / 2 then c
      else
        { cells := modifyAt {} c.cells
            (min (max (roundHalfAway running).toNat 1) curveMaxLevels - 1) change } := by
  have hlevel : 0 < min (max (roundHalfAway running).toNat 1) curveMaxLevels :=
    lt_min (lt_of_lt_of_le one_pos (le_max_right _ _)) (by decide)
  unfold Curve.cell modifyAt padded
  rw [Nat.sub_add_cancel hlevel]

theorem addAt_right_comm (c : Curve) (running running' : ℚ) (share share' : CurveCell) :
    addAt (addAt c running share) running' share' =
      addAt (addAt c running' share') running share := by
  unfold addAt
  rw [cell_eq, cell_eq, cell_eq, cell_eq]
  by_cases h : running < 1 / 2
  · rw [if_pos h, if_pos h]
  · by_cases h' : running' < 1 / 2
    · rw [if_pos h', if_pos h']
    · rw [if_neg h, if_neg h', if_neg h', if_neg h]
      exact congrArg Curve.mk (modifyAt_comm _ _ _ (sumCells_commute _ _))

theorem addAt_addAt (c : Curve) (running : ℚ) (share share' : CurveCell) :
    addAt (addAt c running share) running share' = addAt c running (sumCells share share') := by
  unfold addAt
  rw [cell_eq, cell_eq, cell_eq]
  by_cases h : running < 1 / 2
  · rw [if_pos h, if_pos h, if_pos h]
  · rw [if_neg h, if_neg h, if_neg h, modifyAt_modifyAt_self]
    exact congrArg (fun change => Curve.mk (modifyAt {} c.cells _ change))
      (funext fun x => sumCells_assoc x share share')

/-- What a sample writes at its level. -/
def writeShare (tokS : ℚ) : CurveCell := { samples := 1, tokSSum := max tokS 0 }

/-- What a step's first words and a sample's drafts add at its level. -/
def extraShare (ttftSumS ttftN specLen : ℚ) : CurveCell where
  ttftSumS := if 0 < ttftN ∧ 0 ≤ ttftSumS then ttftSumS else 0
  ttftN := if 0 < ttftN ∧ 0 ≤ ttftSumS then ttftN else 0
  specLenSum := if 0 < specLen then specLen else 0
  specN := if 0 < specLen then 1 else 0

theorem observe_eq_addAt (c : Curve) (running tokS : ℚ) :
    c.observe running tokS = addAt c running (writeShare tokS) := by
  unfold Curve.observe addAt
  congr 1
  funext x
  simp only [sumCells, writeShare, add_zero]

theorem observeExtra_eq_addAt (c : Curve) (running ttftSumS ttftN specLen : ℚ) :
    c.observeExtra running ttftSumS ttftN specLen =
      addAt c running (extraShare ttftSumS ttftN specLen) := by
  unfold Curve.observeExtra addAt
  congr 1
  funext x
  by_cases ht : 0 < ttftN ∧ 0 ≤ ttftSumS <;> by_cases hs : 0 < specLen <;>
    simp [sumCells, extraShare, ht, hs]

/-! ## What a step adds -/

/-- What the step from one sample to the next adds to the figures of a loadout: to each its own,
a sample of the total speed at a level, and the seconds and the number of the first words. -/
structure Interval where
  secs : ℚ := 0
  servingSecs : ℚ := 0
  joules : ℚ := 0
  servingJoules : ℚ := 0
  genTokens : ℚ := 0
  promptTokens : ℚ := 0
  cachedTokens : ℚ := 0
  requests : ℚ := 0
  prefillSecs : ℚ := 0
  prefillTokens : ℚ := 0
  readTokens : ℚ := 0
  readSecs : ℚ := 0
  specGenTokens : ℚ := 0
  specVerifyCalls : ℚ := 0
  evictedTokens : ℚ := 0
  e2eSecs : ℚ := 0
  prefillForwardSecs : ℚ := 0
  running : ℚ := 0
  written : Option ℚ := none
  words : Option (ℚ × ℚ) := none

/-- Adds a share to a level of the curve, where there is one. -/
def addShare (running : ℚ) (c : Curve) : Option CurveCell → Curve
  | some share => addAt c running share
  | none => c

def plusCurve (c : Curve) (d : Interval) : Curve :=
  addShare d.running (addShare d.running c (d.written.map writeShare))
    (d.words.map fun w => extraShare w.1 w.2 0)

/-- The figures with those of a step added. -/
def plus (acc : LoadoutAcc) (d : Interval) : LoadoutAcc :=
  { acc with
    secs := acc.secs + d.secs
    servingSecs := acc.servingSecs + d.servingSecs
    joules := acc.joules + d.joules
    servingJoules := acc.servingJoules + d.servingJoules
    genTokens := acc.genTokens + d.genTokens
    promptTokens := acc.promptTokens + d.promptTokens
    cachedTokens := acc.cachedTokens + d.cachedTokens
    requests := acc.requests + d.requests
    prefillSecs := acc.prefillSecs + d.prefillSecs
    prefillTokens := acc.prefillTokens + d.prefillTokens
    readTokens := acc.readTokens + d.readTokens
    readSecs := acc.readSecs + d.readSecs
    specGenTokens := acc.specGenTokens + d.specGenTokens
    specVerifyCalls := acc.specVerifyCalls + d.specVerifyCalls
    evictedTokens := acc.evictedTokens + d.evictedTokens
    e2eSecs := acc.e2eSecs + d.e2eSecs
    prefillForwardSecs := acc.prefillForwardSecs + d.prefillForwardSecs
    curve := plusCurve acc.curve d }

theorem plus_nothing (acc : LoadoutAcc) : plus acc {} = acc := by
  simp only [plus, add_zero]
  rfl

theorem addShare_right_comm (c : Curve) (running running' : ℚ) (share share' : Option CurveCell) :
    addShare running' (addShare running c share) share' =
      addShare running (addShare running' c share') share := by
  cases share with
  | none => rfl
  | some share =>
    cases share' with
    | none => rfl
    | some share' => exact addAt_right_comm c running running' share share'

theorem addShare_addAt (c : Curve) (running running' : ℚ) (share : Option CurveCell)
    (share' : CurveCell) :
    addShare running (addAt c running' share') share =
      addAt (addShare running c share) running' share' :=
  addShare_right_comm c running' running (some share') share

theorem plusCurve_right_comm (c : Curve) (d d' : Interval) :
    plusCurve (plusCurve c d) d' = plusCurve (plusCurve c d') d := by
  unfold plusCurve
  rw [addShare_right_comm _ d.running d'.running _ (d'.written.map writeShare),
    addShare_right_comm _ d.running d'.running _ (d'.words.map _),
    addShare_right_comm c d.running d'.running, addShare_right_comm _ d.running d'.running]

theorem plus_right_comm (acc : LoadoutAcc) (d d' : Interval) :
    plus (plus acc d) d' = plus (plus acc d') d := by
  simp only [plus, LoadoutAcc.mk.injEq, true_and, and_true]
  simp only [add_right_comm, plusCurve_right_comm, and_self]

/-- The time and the energy of a step. -/
def energyOf (prev : Option Sample) (cur : Sample) : Interval :=
  let dt := stepSecs prev cur
  let serving : Bool := cur.metrics.any fun m => 1 ≤ m.running
  let joules := ((stepWatts prev cur).map fun w => w * dt).getD 0
  if 0 < dt then
    { secs := dt
      servingSecs := if serving then dt else 0
      joules := joules
      servingJoules := if serving then joules else 0 }
  else {}

/-- What the counters of the engine grew by in a step, and the first words that came in it. -/
def countersOf (dt : ℚ) (m pm : ServeMetrics) : Interval :=
  let grown := grownSince m pm
  let verify := grown ServeMetrics.specVerifyCallsTotal
  let computed := m.computedPromptTokensSince pm
  let timed := 0 < m.prefillForwardSum ∨ 0 < pm.prefillForwardSum
  { genTokens := grown ServeMetrics.generationTokensTotal
    promptTokens := grown ServeMetrics.promptTokensTotal
    cachedTokens := grown ServeMetrics.cachedTokensTotal
    requests := grown ServeMetrics.requestsTotal
    evictedTokens := grown ServeMetrics.evictedTokensTotal
    e2eSecs := grown ServeMetrics.e2eSum
    prefillForwardSecs := grown ServeMetrics.prefillForwardSum
    specVerifyCalls := if 0 < verify then verify else 0
    specGenTokens := if 0 < verify then grown ServeMetrics.generationTokensTotal else 0
    prefillSecs := if 0 < computed then dt else 0
    prefillTokens := if 0 < computed then computed else 0
    readTokens := if timed then computed else 0
    readSecs := if timed then grown ServeMetrics.prefillForwardSum else 0
    running := m.running
    words := some (grown ServeMetrics.ttftSum, grown ServeMetrics.ttftCount) }

/-- The total speed at the level of a sample, when no prompt was being read in the step. -/
def writtenOf (m pm : ServeMetrics) : Interval :=
  { running := m.running
    written := if readingStep (some pm) m then none else some m.genThroughput }

/-- What a step adds, where both of its ends carry the metrics of the engine. -/
def plusMetrics (acc : LoadoutAcc) (prev : Option Sample) (cur : Sample) : LoadoutAcc :=
  match prev.bind Sample.metrics, cur.metrics with
  | some pm, some m =>
    let acc := plus acc (writtenOf m pm)
    if 0 < stepSecs prev cur then plus acc (countersOf (stepSecs prev cur) m pm) else acc
  | _, _ => acc

/-- The figures with all that the step from one sample to the next adds. -/
def plusStep (acc : LoadoutAcc) (prev : Option Sample) (cur : Sample) : LoadoutAcc :=
  plusMetrics (plus acc (energyOf prev cur)) prev cur

/-! ## A sample and the step to it -/

/-- The figures without the minutes in which reading is judged. -/
def apart (acc : LoadoutAcc) : LoadoutAcc := { acc with readPeakTokS := 0, readWindow := {} }

theorem observeEnergy_eq_plus (acc : LoadoutAcc) (prev : Option Sample) (cur : Sample) :
    acc.observeEnergy prev cur (cur.metrics.any fun m => 1 ≤ m.running) =
      plus acc (energyOf prev cur) := by
  unfold observeEnergy energyOf
  dsimp only
  split
  · simp only [plus, add_zero]
    rfl
  · exact (plus_nothing acc).symm

theorem plus_observeLane (acc : LoadoutAcc) (d : Interval) (lane : LaneLog) :
    (plus acc d).observeLane lane = plus (acc.observeLane lane) d := rfl

/-- Without a sample before it there is no telling whether a prompt was being read. -/
theorem observeGauges_some (acc : LoadoutAcc) (pm m : ServeMetrics) (serving : Bool) :
    acc.observeGauges (some pm) m serving =
      plus (acc.observeGauges none m serving) (writtenOf m pm) := by
  have halone : readingStep none m = true := by
    unfold readingStep
    simp
  unfold observeGauges writtenOf
  rw [halone]
  cases readingStep (some pm) m with
  | true =>
    simp only [plus, add_zero, if_true, plusCurve]
    rfl
  | false =>
    simp only [plus, add_zero, if_true, plusCurve, Bool.false_eq_true, if_false,
      observe_eq_addAt]
    rfl

theorem plus_observeGauges (acc : LoadoutAcc) (d : Interval) (m : ServeMetrics)
    (serving : Bool) :
    (plus acc d).observeGauges none m serving = plus (acc.observeGauges none m serving) d := by
  have halone : readingStep none m = true := by
    unfold readingStep
    simp
  unfold observeGauges
  rw [halone]
  rfl

theorem apart_plus (acc : LoadoutAcc) (d : Interval) :
    apart (plus acc d) = plus (apart acc) d := rfl

theorem apart_observeReading (acc : LoadoutAcc) (ts : ℤ) (computed readSecs : ℚ) :
    apart (acc.observeReading ts computed readSecs) =
      plus (apart acc) { readTokens := computed, readSecs := readSecs } := by
  have hplus : plus (apart acc) { readTokens := computed, readSecs := readSecs } =
      apart { acc with
        readTokens := acc.readTokens + computed
        readSecs := acc.readSecs + readSecs } := by
    simp only [plus, add_zero]
    rfl
  rw [hplus]
  unfold observeReading
  dsimp only
  split <;> rfl

/-- The counters of a step, but for its first words. -/
theorem apart_observeCounters (acc : LoadoutAcc) (ts : ℤ) (dt : ℚ) (m pm : ServeMetrics) :
    apart (acc.observeCounters ts dt m pm) =
      plus (apart acc) { countersOf dt m pm with words := none } := by
  have hif : ∀ (p : Prop) [Decidable p] (a b : ℚ),
      (if p then a + b else a) = a + if p then b else 0 := by
    intro p _ a b
    split
    · rfl
    · exact (add_zero a).symm
  unfold observeCounters countersOf
  dsimp only
  split
  case isTrue htimed =>
    rw [apart_observeReading]
    simp only [plus, apart, add_zero, hif]
    rfl
  case isFalse huntimed =>
    simp only [plus, apart, add_zero, hif]
    rfl

/-- The last part of a sample: the first words of the step and the accept length. -/
def withExtra (acc : LoadoutAcc) (running ttftSumS ttftN specLen : ℚ) : LoadoutAcc :=
  { acc with curve := acc.curve.observeExtra running ttftSumS ttftN specLen }

theorem extraShare_split (ttftSumS ttftN specLen : ℚ) :
    extraShare ttftSumS ttftN specLen =
      sumCells (extraShare 0 0 specLen) (extraShare ttftSumS ttftN 0) := by
  simp [extraShare, sumCells]

theorem plus_withExtra (acc : LoadoutAcc) (d : Interval) (running specLen : ℚ) :
    withExtra (plus acc d) running 0 0 specLen = plus (withExtra acc running 0 0 specLen) d := by
  have hcurve : (plusCurve acc.curve d).observeExtra running 0 0 specLen =
      plusCurve (acc.curve.observeExtra running 0 0 specLen) d := by
    rw [observeExtra_eq_addAt, observeExtra_eq_addAt]
    unfold plusCurve
    rw [addShare_addAt, addShare_addAt]
  unfold withExtra
  simp only [plus, hcurve]

theorem withExtra_plus (acc : LoadoutAcc) (d : Interval) {words : ℚ × ℚ}
    (hwords : d.words = some words) (specLen : ℚ) :
    withExtra (plus acc { d with words := none }) d.running words.1 words.2 specLen =
      plus (withExtra acc d.running 0 0 specLen) d := by
  have hcurve : (plusCurve acc.curve { d with words := none }).observeExtra d.running words.1
      words.2 specLen = plusCurve (acc.curve.observeExtra d.running 0 0 specLen) d := by
    rw [observeExtra_eq_addAt, observeExtra_eq_addAt, extraShare_split]
    unfold plusCurve
    rw [addShare_addAt, hwords]
    exact (addAt_addAt _ _ _ _).symm
  unfold withExtra
  simp only [plus, hcurve]

theorem apart_withExtra (acc : LoadoutAcc) (running ttftSumS ttftN specLen : ℚ) :
    apart (withExtra acc running ttftSumS ttftN specLen) =
      withExtra (apart acc) running ttftSumS ttftN specLen := rfl

/-- The metrics of a sample on their own. -/
theorem observeMetrics_none (acc : LoadoutAcc) (cur : Sample) (m : ServeMetrics) :
    acc.observeMetrics none cur m =
      withExtra (acc.observeGauges none m (1 ≤ m.running)) m.running 0 0
        (if 1 ≤ m.running then m.specAcceptLength else 0) := by
  unfold observeMetrics withExtra
  simp only [Option.bind_none, decide_eq_true_eq]

theorem observeMetrics_far (acc : LoadoutAcc) {prev : Option Sample} {cur : Sample}
    {m pm : ServeMetrics} (hpm : prev.bind Sample.metrics = some pm)
    (hdt : ¬ 0 < stepSecs prev cur) :
    acc.observeMetrics prev cur m =
      withExtra (acc.observeGauges (some pm) m (1 ≤ m.running)) m.running 0 0
        (if 1 ≤ m.running then m.specAcceptLength else 0) := by
  unfold observeMetrics withExtra
  simp only [hpm, if_neg hdt, decide_eq_true_eq]

theorem observeMetrics_near (acc : LoadoutAcc) {prev : Option Sample} {cur : Sample}
    {m pm : ServeMetrics} (hpm : prev.bind Sample.metrics = some pm)
    (hdt : 0 < stepSecs prev cur) :
    acc.observeMetrics prev cur m =
      withExtra ((acc.observeGauges (some pm) m (1 ≤ m.running)).observeCounters cur.ts
          (stepSecs prev cur) m pm)
        m.running (grownSince m pm ServeMetrics.ttftSum) (grownSince m pm ServeMetrics.ttftCount)
        (if 1 ≤ m.running then m.specAcceptLength else 0) := by
  unfold observeMetrics withExtra
  simp only [hpm, if_pos hdt, decide_eq_true_eq]

/-- The metrics of a sample add what they say themselves and what the step to it says. -/
theorem apart_observeMetrics (acc : LoadoutAcc) (prev : Option Sample) {cur : Sample}
    {m : ServeMetrics} (hm : cur.metrics = some m) :
    apart (acc.observeMetrics prev cur m) =
      apart (plusMetrics (acc.observeMetrics none cur m) prev cur) := by
  rw [observeMetrics_none]
  unfold plusMetrics
  rw [hm]
  cases hpm : prev.bind Sample.metrics with
  | none =>
    unfold observeMetrics withExtra
    simp only [hpm, decide_eq_true_eq]
  | some pm =>
    dsimp only
    by_cases hdt : 0 < stepSecs prev cur
    · rw [if_pos hdt, observeMetrics_near acc hpm hdt, apart_withExtra, apart_observeCounters,
        observeGauges_some, apart_plus, apart_plus, apart_plus, apart_withExtra, ← plus_withExtra]
      have hwords : (countersOf (stepSecs prev cur) m pm).words =
          some (grownSince m pm ServeMetrics.ttftSum, grownSince m pm ServeMetrics.ttftCount) :=
        rfl
      exact withExtra_plus (plus (apart (acc.observeGauges none m (1 ≤ m.running)))
        (writtenOf m pm)) (countersOf (stepSecs prev cur) m pm) hwords _
    · rw [if_neg hdt, observeMetrics_far acc hpm hdt, observeGauges_some, plus_withExtra]

theorem plus_observeMetrics_none (acc : LoadoutAcc) (d : Interval) (cur : Sample)
    (m : ServeMetrics) :
    (plus acc d).observeMetrics none cur m = plus (acc.observeMetrics none cur m) d := by
  rw [observeMetrics_none, observeMetrics_none, plus_observeGauges, plus_withExtra]

theorem plusMetrics_plus (acc : LoadoutAcc) (d : Interval) (prev : Option Sample)
    (cur : Sample) : plusMetrics (plus acc d) prev cur = plus (plusMetrics acc prev cur) d := by
  unfold plusMetrics
  split
  · dsimp only
    split
    · rw [plus_right_comm acc d, plus_right_comm _ d]
    · exact plus_right_comm acc d _
  · rfl

theorem apart_plusMetrics (acc : LoadoutAcc) (prev : Option Sample) (cur : Sample) :
    apart (plusMetrics acc prev cur) = plusMetrics (apart acc) prev cur := by
  unfold plusMetrics
  split
  · dsimp only
    split <;> rfl
  · rfl

theorem apart_plusStep (acc : LoadoutAcc) (prev : Option Sample) (cur : Sample) :
    apart (plusStep acc prev cur) = plusStep (apart acc) prev cur :=
  apart_plusMetrics _ prev cur

theorem plusStep_plus (acc : LoadoutAcc) (d : Interval) (prev : Option Sample) (cur : Sample) :
    plusStep (plus acc d) prev cur = plus (plusStep acc prev cur) d := by
  unfold plusStep
  rw [plus_right_comm, plusMetrics_plus]

/-- What a sample adds before its metrics are looked at. -/
def countSample (acc : LoadoutAcc) (cur : Sample) : LoadoutAcc :=
  (({ acc with
      samples := acc.samples + 1
      upSamples := acc.upSamples + if cur.serveUp then 1 else 0
      lastTs := cur.ts } : LoadoutAcc).observeLane cur.log.publicLane).observeLane
    cur.log.trustedLane

theorem countSample_plus (acc : LoadoutAcc) (d : Interval) (cur : Sample) :
    countSample (plus acc d) cur = plus (countSample acc cur) d := rfl

theorem energyOf_none (cur : Sample) : energyOf none cur = {} := by
  have halone : stepSecs none cur = 0 := rfl
  unfold energyOf
  rw [halone]
  simp

theorem observe_eq (acc : LoadoutAcc) (prev : Option Sample) (cur : Sample) :
    acc.observe prev cur =
      match cur.metrics with
      | some m => (plus (countSample acc cur) (energyOf prev cur)).observeMetrics prev cur m
      | none => plus (countSample acc cur) (energyOf prev cur) := by
  unfold observe countSample
  dsimp only
  rw [observeEnergy_eq_plus, plus_observeLane, plus_observeLane]
  cases cur.metrics <;> rfl

theorem observe_none_eq (acc : LoadoutAcc) (cur : Sample) :
    acc.observe none cur =
      match cur.metrics with
      | some m => (countSample acc cur).observeMetrics none cur m
      | none => countSample acc cur := by
  rw [observe_eq, energyOf_none, plus_nothing]

/-- A sample with one before it adds what it adds on its own, and what the step to it adds. -/
theorem apart_observe (acc : LoadoutAcc) (prev : Option Sample) (cur : Sample) :
    apart (acc.observe prev cur) = apart (plusStep (acc.observe none cur) prev cur) := by
  rw [observe_eq, observe_none_eq]
  unfold plusStep
  cases hm : cur.metrics with
  | none =>
    have hnone : ∀ acc : LoadoutAcc, plusMetrics acc prev cur = acc := by
      intro acc
      unfold plusMetrics
      rw [hm]
      cases prev.bind Sample.metrics <;> rfl
    rw [hnone]
  | some m =>
    dsimp only
    rw [apart_observeMetrics _ prev hm, plus_observeMetrics_none]

theorem plus_observe_none (acc : LoadoutAcc) (d : Interval) (cur : Sample) :
    (plus acc d).observe none cur = plus (acc.observe none cur) d := by
  rw [observe_none_eq, observe_none_eq, countSample_plus]
  cases cur.metrics with
  | none => rfl
  | some m => exact plus_observeMetrics_none _ d cur m

/-- A sample on its own leaves the minutes of reading as they are. -/
theorem apart_observe_none (acc : LoadoutAcc) (cur : Sample) :
    apart (acc.observe none cur) = (apart acc).observe none cur := by
  rw [observe_none_eq, observe_none_eq]
  cases cur.metrics with
  | none => rfl
  | some m =>
    dsimp only
    rw [observeMetrics_none, observeMetrics_none]
    rfl

/-! ## Runs with a step and without it -/

/-- The minutes of reading change none of the other figures. -/
theorem apart_observe_congr {a b : LoadoutAcc} (h : apart a = apart b) (prev : Option Sample)
    (cur : Sample) : apart (a.observe prev cur) = apart (b.observe prev cur) := by
  rw [apart_observe, apart_observe, apart_plusStep, apart_plusStep, apart_observe_none,
    apart_observe_none, h]

theorem apart_plus_observe (acc : LoadoutAcc) (d : Interval) (prev : Option Sample)
    (cur : Sample) :
    apart ((plus acc d).observe prev cur) = plus (apart (acc.observe prev cur)) d := by
  rw [apart_observe, plus_observe_none, plusStep_plus, apart_plus, ← apart_observe]

/-- Whether a step is added before a sample or after it makes no difference. -/
theorem apart_plusStep_observe (acc : LoadoutAcc) (p x : Sample) (t : Option Sample × Sample) :
    apart ((plusStep acc (some p) x).observe t.1 t.2) =
      apart (plusStep (acc.observe t.1 t.2) (some p) x) := by
  rw [apart_plusStep]
  unfold plusStep plusMetrics
  split
  · dsimp only
    split
    · rw [apart_plus_observe, apart_plus_observe, apart_plus_observe]
    · rw [apart_plus_observe, apart_plus_observe]
  · rw [apart_plus_observe]

/-- A step that is missing stays missing, and nothing else goes missing after it. -/
theorem apart_observeTurns (ts : List (Option Sample × Sample)) {p x : Sample}
    {a b : LoadoutAcc} (h : apart a = apart (plusStep b (some p) x)) :
    apart (observeTurns a ts) = apart (plusStep (observeTurns b ts) (some p) x) := by
  induction ts generalizing a b with
  | nil => exact h
  | cons t ts ih =>
    refine ih ?_
    rw [apart_observe_congr h t.1 t.2]
    exact apart_plusStep_observe b p x t

/-! ## The minutes of reading -/

/-- One reading part is no further than another that began its window at the same time. -/
structure NoFurther (r r' : Reading) : Prop where
  peak : r.peak ≤ r'.peak
  start : r.window.start = r'.window.start
  tokens : r.window.tokens ≤ r'.window.tokens

theorem noFurther_closed {r r' : Reading} (h : NoFurther r r') (ts : ℤ) :
    NoFurther (r.closed ts) (r'.closed ts) := by
  by_cases hdue : readPeakWindowSecs ≤ ts - r'.window.start
  · have hwall := wall_pos hdue
    unfold Reading.closed
    rw [h.start, if_pos hdue, if_pos hdue]
    refine ⟨?_, rfl, le_rfl⟩
    dsimp only
    split
    case isTrue hfull =>
      rw [if_pos ⟨hfull.1.trans h.tokens, hfull.2⟩]
      exact max_le_max h.peak (div_le_div_of_nonneg_right h.tokens hwall.2.le)
    case isFalse =>
      split
      · exact h.peak.trans (le_max_left _ _)
      · exact h.peak
  · rw [closed_of_lt hdue, closed_of_lt (h.start ▸ hdue)]
    exact h

theorem noFurther_turn {r r' : Reading} (h : NoFurther r r') (t : Option Sample × Sample) :
    NoFurther (r.turn t) (r'.turn t) := by
  unfold Reading.turn
  cases readStep t.1 t.2 with
  | none => exact h
  | some s =>
    have hc := noFurther_closed h t.2.ts
    exact ⟨hc.peak, hc.start, add_le_add hc.tokens le_rfl⟩

theorem noFurther_foldl {r r' : Reading} (h : NoFurther r r')
    (ts : List (Option Sample × Sample)) :
    NoFurther (ts.foldl Reading.turn r) (ts.foldl Reading.turn r') := by
  induction ts generalizing r r' with
  | nil => exact h
  | cons t ts ih => exact ih (noFurther_turn h t)

/-- What is read in a step is never less than nothing. -/
theorem tokens_nonneg {prev : Option Sample} {cur : Sample} {s : ReadStep}
    (h : readStep prev cur = some s) : 0 ≤ s.tokens := by
  have hgrown : ∀ a b : ℚ, 0 ≤ grown a b := by
    intro a b
    unfold grown
    split
    case isTrue hle => exact sub_nonneg.mpr hle
    case isFalse => exact le_rfl
  unfold readStep at h
  split at h
  · split at h
    · cases h
      dsimp only
      unfold ServeMetrics.computedPromptTokensSince
      split
      · exact le_rfl
      · split
        · exact hgrown _ _
        · split
          · exact le_max_right _ _
          · exact le_rfl
    · cases h
  · cases h

/-! ## A restart -/

/-- The figures of a loadout over all of its samples. -/
def uninterrupted (before after : List Sample) : LoadoutAcc :=
  observeTurns {} (turns none (before ++ after))

/-- What is stored when the collector stops. -/
def saved (before : List Sample) : LoadoutAcc := observeTurns {} (turns none before)

/-- The figures when the collector is stopped between the samples and goes on with what it
stored; the first sample after that has none before it. -/
def continued (before after : List Sample) : LoadoutAcc :=
  observeTurns (saved before) (turns none after)

/-- The figures with what the step over the restart adds. -/
def withLostStep (acc : LoadoutAcc) (before after : List Sample) : LoadoutAcc :=
  match before.getLast?, after.head? with
  | some p, some x => plusStep acc (some p) x
  | _, _ => acc

/-- The step over the restart would have ended a window of reading. -/
def EndsWindow (before after : List Sample) : Prop :=
  ∃ p x, before.getLast? = some p ∧ after.head? = some x ∧ (readStep (some p) x).isSome ∧
    readPeakWindowSecs ≤ x.ts - (saved before).readWindow.start

/-- The greatest values that were seen. -/
def maxima (acc : LoadoutAcc) : List ℚ :=
  [acc.kvPeak, acc.kvCapacityTokens, acc.contextLen, acc.promptMaxTokens, acc.c1Best]

theorem turns_append (prev : Option Sample) (xs ys : List Sample) :
    turns prev (xs ++ ys) = turns prev xs ++ turns (xs.getLast?.or prev) ys := by
  induction xs generalizing prev with
  | nil => rfl
  | cons x xs ih =>
    have hlast : xs.getLast?.or (some x) = (x :: xs).getLast?.or prev := by
      rw [List.getLast?_cons]
      cases xs.getLast? <;> rfl
    rw [List.cons_append, turns, ih, hlast]
    rfl

theorem observeTurns_append (acc : LoadoutAcc) (ts us : List (Option Sample × Sample)) :
    observeTurns acc (ts ++ us) = observeTurns (observeTurns acc ts) us :=
  List.foldl_append

theorem uninterrupted_eq (before after : List Sample) :
    uninterrupted before after = observeTurns (saved before) (turns before.getLast? after) := by
  unfold uninterrupted saved
  rw [turns_append, observeTurns_append, Option.or_none]

/-- Nothing is lost where one of the two halves is empty. -/
theorem restart_at_an_end {before after : List Sample}
    (h : before.getLast? = none ∨ after.head? = none) :
    continued before after = uninterrupted before after := by
  rw [uninterrupted_eq]
  rcases h with h | h
  · rw [h]
    rfl
  · rw [List.head?_eq_none_iff] at h
    subst h
    rfl

theorem maxima_withLostStep (acc : LoadoutAcc) (before after : List Sample) :
    maxima (withLostStep acc before after) = maxima acc := by
  unfold withLostStep
  split
  · unfold plusStep plusMetrics
    split
    · dsimp only
      split <;> rfl
    · rfl
  · rfl

theorem apart_restart (before after : List Sample) :
    apart (uninterrupted before after) =
      apart (withLostStep (continued before after) before after) := by
  cases hp : before.getLast? with
  | none =>
    unfold withLostStep
    rw [hp, restart_at_an_end (.inl hp)]
  | some p =>
    cases after with
    | nil =>
      unfold withLostStep
      rw [hp, restart_at_an_end (.inr rfl)]
      rfl
    | cons x rest =>
      unfold withLostStep
      rw [hp, uninterrupted_eq, hp]
      exact apart_observeTurns (turns (some x) rest) (apart_observe (saved before) (some p) x)

/-- Where the step that is lost does not end a window, the windows after it are the same. -/
theorem peak_restart {before after : List Sample} (h : ¬ EndsWindow before after) :
    (continued before after).readPeakTokS ≤ (uninterrupted before after).readPeakTokS := by
  cases hp : before.getLast? with
  | none => rw [restart_at_an_end (.inl hp)]
  | some p =>
    cases after with
    | nil => rw [restart_at_an_end (.inr rfl)]
    | cons x rest =>
      have hstart : NoFurther ((readingOf (saved before)).turn (none, x))
          ((readingOf (saved before)).turn (some p, x)) := by
        have halone : (readingOf (saved before)).turn (none, x) = readingOf (saved before) := rfl
        rw [halone]
        unfold Reading.turn
        cases hs : readStep (some p) x with
        | none => exact ⟨le_rfl, rfl, le_rfl⟩
        | some s =>
          have hopen : ¬ readPeakWindowSecs ≤ x.ts - (readingOf (saved before)).window.start :=
            fun hdue => h ⟨p, x, hp, rfl, by rw [hs]; rfl, hdue⟩
          dsimp only [Reading.add]
          rw [closed_of_lt hopen]
          exact ⟨le_rfl, rfl, le_add_of_nonneg_right (tokens_nonneg hs)⟩
      have hrun := (noFurther_foldl hstart (turns (some x) rest)).peak
      have hcontinued : readingOf (continued before (x :: rest)) =
          (turns (some x) rest).foldl Reading.turn ((readingOf (saved before)).turn (none, x)) :=
        readingOf_observeTurns _ _
      have hwhole : readingOf (uninterrupted before (x :: rest)) =
          (turns (some x) rest).foldl Reading.turn
            ((readingOf (saved before)).turn (some p, x)) := by
        rw [uninterrupted_eq, hp]
        exact readingOf_observeTurns _ _
      rw [← hcontinued, ← hwhole] at hrun
      exact hrun

/-- An engine that reads for a minute, a thousand tokens in each second. -/
def oneBusyMinute : List Sample :=
  [(1000, 1), (1030, 1), (1060, 30001), (1090, 60001), (1120, 60001)].map fun s =>
    { ts := s.1
      metrics := some { prefillComputeTokensTotal := s.2, prefillForwardSum := 1 } }

end Lss.Analysis.LostIntervals
