import Lss.Library.Fold
import Lss.Library.Steps
import Lss.Model.LoadoutAcc

/-!
# The best minute of reading

Prompt tokens are added up over windows of a minute or more, and the fastest window is kept. The
step that opens a window ends where the window starts: its tokens are counted and its seconds
are not. The fastest window is no faster than the fastest step as long as the seconds that were
counted fit between the two ends of each window.
-/

set_option autoImplicit false

namespace Lss.Analysis.ReadingPeaks

open Lss.Model Lss.Model.LoadoutAcc Lss.Library.Fold Lss.Library.Steps

/-! ## The part of the accumulator that reads -/

/-- The best window so far, and the one that is being filled. -/
structure Reading where
  peak : ℚ
  window : ReadWindow

def readingOf (acc : LoadoutAcc) : Reading := ⟨acc.readPeakTokS, acc.readWindow⟩

/-- A step that counts: its seconds, the tokens that were read in it, and the seconds that
requests spent being read. -/
structure ReadStep where
  secs : ℚ
  tokens : ℚ
  readSecs : ℚ

/-- What a sample adds to the window, when the engine times its reading and the one before it
is close enough. -/
def readStep (prev : Option Sample) (cur : Sample) : Option ReadStep :=
  match prev.bind Sample.metrics, cur.metrics with
  | some pm, some m =>
    if 0 < stepSecs prev cur ∧ (0 < m.prefillForwardSum ∨ 0 < pm.prefillForwardSum) then
      some
        { secs := stepSecs prev cur
          tokens := m.computedPromptTokensSince pm
          readSecs := LoadoutAcc.grownSince m pm ServeMetrics.prefillForwardSum }
    else none
  | _, _ => none

/-- A window that has lasted a minute is judged, and a new one begun. -/
def Reading.closed (r : Reading) (ts : ℤ) : Reading :=
  if readPeakWindowSecs ≤ ts - r.window.start then
    { peak :=
        if readPeakMinTokens ≤ r.window.tokens ∧
            readPeakMinSecs ≤ ((ts - r.window.start : ℤ) : ℚ) then
          max r.peak (r.window.tokens / (ts - r.window.start : ℤ))
        else r.peak
      window := { start := ts } }
  else r

def Reading.add (r : Reading) (ts : ℤ) (s : ReadStep) : Reading :=
  let r := r.closed ts
  { r with
    window :=
      { r.window with
        tokens := r.window.tokens + s.tokens
        secs := r.window.secs + s.readSecs } }

def Reading.turn (r : Reading) (t : Option Sample × Sample) : Reading :=
  match readStep t.1 t.2 with
  | some s => r.add t.2.ts s
  | none => r

@[simp] theorem readingOf_observeEnergy (acc : LoadoutAcc) (prev : Option Sample) (cur : Sample)
    (serving : Bool) : readingOf (acc.observeEnergy prev cur serving) = readingOf acc := by
  unfold observeEnergy
  dsimp only
  split <;> rfl

theorem readingOf_observeReading (acc : LoadoutAcc) (ts : ℤ) (s : ReadStep) :
    readingOf (acc.observeReading ts s.tokens s.readSecs) = (readingOf acc).add ts s := by
  unfold observeReading Reading.add Reading.closed readingOf
  dsimp only
  split <;> rfl

@[simp] theorem readingOf_observeLane (acc : LoadoutAcc) (lane : LaneLog) :
    readingOf (acc.observeLane lane) = readingOf acc := rfl

@[simp] theorem readingOf_observeGauges (acc : LoadoutAcc) (prev : Option ServeMetrics)
    (m : ServeMetrics) (serving : Bool) :
    readingOf (acc.observeGauges prev m serving) = readingOf acc := rfl

theorem readingOf_observeCounters (acc : LoadoutAcc) (ts : ℤ) (dt : ℚ) (m pm : ServeMetrics) :
    readingOf (acc.observeCounters ts dt m pm) =
      if 0 < m.prefillForwardSum ∨ 0 < pm.prefillForwardSum then
        (readingOf acc).add ts
          { secs := dt
            tokens := m.computedPromptTokensSince pm
            readSecs := grownSince m pm ServeMetrics.prefillForwardSum }
      else readingOf acc := by
  unfold observeCounters
  dsimp only
  split
  · exact readingOf_observeReading _ ts
      { secs := dt
        tokens := m.computedPromptTokensSince pm
        readSecs := grownSince m pm ServeMetrics.prefillForwardSum }
  · rfl

theorem readingOf_observeMetrics (acc : LoadoutAcc) (prev : Option Sample) (cur : Sample)
    {m : ServeMetrics} (hm : cur.metrics = some m) :
    readingOf (acc.observeMetrics prev cur m) = (readingOf acc).turn (prev, cur) := by
  unfold observeMetrics Reading.turn readStep
  dsimp only
  rw [hm]
  cases hpm : prev.bind Sample.metrics with
  | none => rfl
  | some pm =>
    dsimp only
    by_cases hdt : 0 < stepSecs prev cur
    · rw [if_pos hdt]
      refine (readingOf_observeCounters _ cur.ts _ m pm).trans ?_
      rw [readingOf_observeGauges]
      by_cases htimed : 0 < m.prefillForwardSum ∨ 0 < pm.prefillForwardSum
      · rw [if_pos htimed, if_pos ⟨hdt, htimed⟩]
      · rw [if_neg htimed, if_neg fun h => htimed h.2]
    · have hboth : ¬(0 < stepSecs prev cur ∧
          (0 < m.prefillForwardSum ∨ 0 < pm.prefillForwardSum)) := fun h => hdt h.1
      rw [if_neg hdt, if_neg hboth]
      rfl

/-- A sample changes the reading part as the samples alone say. -/
theorem readingOf_observe (acc : LoadoutAcc) (t : Option Sample × Sample) :
    readingOf (acc.observe t.1 t.2) = (readingOf acc).turn t := by
  obtain ⟨prev, cur⟩ := t
  unfold observe
  dsimp only
  cases hm : cur.metrics with
  | none =>
    have hstep : readStep prev cur = none := by
      unfold readStep
      rw [hm]
      cases prev.bind Sample.metrics <;> rfl
    unfold Reading.turn
    dsimp only
    rw [hstep, readingOf_observeLane, readingOf_observeLane, readingOf_observeEnergy]
    rfl
  | some m =>
    dsimp only
    rw [readingOf_observeMetrics _ prev cur hm, readingOf_observeLane, readingOf_observeLane,
      readingOf_observeEnergy]
    rfl

/-! ## Runs of samples -/

/-- The samples of a run, each with the one before it; the first has none. -/
def turns : Option Sample → List Sample → List (Option Sample × Sample)
  | _, [] => []
  | prev, cur :: rest => (prev, cur) :: turns (some cur) rest

def observeTurns (acc : LoadoutAcc) (ts : List (Option Sample × Sample)) : LoadoutAcc :=
  ts.foldl (fun acc t => acc.observe t.1 t.2) acc

theorem readingOf_observeTurns (acc : LoadoutAcc) (ts : List (Option Sample × Sample)) :
    readingOf (observeTurns acc ts) = ts.foldl Reading.turn (readingOf acc) := by
  induction ts generalizing acc with
  | nil => rfl
  | cons t ts ih => exact (ih _).trans (by rw [readingOf_observe, List.foldl_cons])

/-- A sample with one before it makes a pair of neighbours of the run. -/
theorem mem_steps_of_mem_turns {prev : Option Sample} {run : List Sample} {p cur : Sample}
    (h : (some p, cur) ∈ turns prev run) :
    (p, cur) ∈ steps run ∨ (prev = some p ∧ run.head? = some cur) := by
  induction run generalizing prev with
  | nil => cases h
  | cons x rest ih =>
    rw [steps_cons]
    rcases List.mem_cons.mp h with h | h
    · cases h
      exact .inr ⟨rfl, rfl⟩
    · rcases ih h with h | ⟨hx, hhead⟩
      · exact .inl (List.mem_append_right _ h)
      · cases hx
        rw [hhead]
        exact .inl (List.mem_append_left _ (by simp))

/-- The speed at which prompts were read between two samples. -/
def readingRate (p : Sample × Sample) : ℚ :=
  match p.1.metrics, p.2.metrics with
  | some pm, some m => m.computedPromptTokensSince pm / (p.2.ts - p.1.ts : ℤ)
  | _, _ => 0

/-- The highest speed between two neighbours of a run. -/
def bestRate (runs : List (List Sample)) : ℚ :=
  ((runs.flatMap steps).map readingRate).foldl max 0

theorem bestRate_nonneg (runs : List (List Sample)) : 0 ≤ bestRate runs :=
  (le_foldl_max _ _).mpr (.inl le_rfl)

/-- What a counted step reads is no faster than the best pair of neighbours. -/
theorem tokens_le_bestRate {runs : List (List Sample)} {t : Option Sample × Sample}
    (ht : t ∈ runs.flatMap (turns none)) {s : ReadStep} (hs : readStep t.1 t.2 = some s) :
    s.tokens ≤ bestRate runs * s.secs ∧ 0 < s.secs := by
  obtain ⟨prev, cur⟩ := t
  obtain ⟨run, hrun, ht⟩ := List.mem_flatMap.mp ht
  unfold readStep at hs
  dsimp only at hs
  cases prev with
  | none => cases hs
  | some p =>
    rw [Option.bind_some] at hs
    cases hpm : p.metrics with
    | none =>
      rw [hpm] at hs
      cases hs
    | some pm =>
      cases hm : cur.metrics with
      | none =>
        rw [hpm, hm] at hs
        cases hs
      | some m =>
        rw [hpm, hm] at hs
        dsimp only at hs
        split at hs
        case isFalse => cases hs
        case isTrue h =>
          cases hs
          dsimp only
          refine ⟨?_, h.1⟩
          have hpair : (p, cur) ∈ steps run := by
            rcases mem_steps_of_mem_turns ht with h | ⟨h, -⟩
            · exact h
            · cases h
          have hrate : readingRate (p, cur) ≤ bestRate runs :=
            (le_foldl_max _ _).mpr (.inr ⟨_, List.mem_map_of_mem
              (List.mem_flatMap.mpr ⟨run, hrun, hpair⟩), le_rfl⟩)
          unfold readingRate at hrate
          rw [hpm, hm] at hrate
          dsimp only at hrate
          have hsecs : stepSecs (some p) cur = ((cur.ts - p.ts : ℤ) : ℚ) := by
            have h' := h.1
            unfold stepSecs at h' ⊢
            dsimp only at h' ⊢
            split at h'
            case isTrue hclose => rw [if_pos hclose]
            case isFalse => exact absurd h' (lt_irrefl _)
          rw [hsecs]
          exact (div_le_iff₀ (hsecs ▸ h.1)).mp hrate

/-! ## What fits into a window -/

/-- The sample ends a window that holds enough to be judged. -/
def Judged (r : Reading) (t : Option Sample × Sample) : Prop :=
  (readStep t.1 t.2).isSome ∧ readPeakWindowSecs ≤ t.2.ts - r.window.start ∧
    readPeakMinTokens ≤ r.window.tokens

/-- The seconds of the steps in which the tokens of the window were read, the one that ends
where the window starts among them. -/
def secsAfter (secs : ℚ) (r : Reading) (t : Option Sample × Sample) : ℚ :=
  match readStep t.1 t.2 with
  | some s =>
    (if readPeakWindowSecs ≤ t.2.ts - r.window.start then 0 else secs) +
      if 0 < s.tokens then s.secs else 0
  | none => secs

/-- Whenever a window is judged, the steps in which its tokens were read are together no longer
than the window is. -/
def Fits : Reading → ℚ → List (Option Sample × Sample) → Prop
  | _, _, [] => True
  | r, secs, t :: ts =>
    (Judged r t → secs ≤ (t.2.ts - r.window.start : ℤ)) ∧
      Fits (r.turn t) (secsAfter secs r t) ts

instance (r : Reading) (t : Option Sample × Sample) : Decidable (Judged r t) :=
  inferInstanceAs (Decidable (_ ∧ _ ∧ _))

instance decidableFits (r : Reading) (secs : ℚ) :
    (ts : List (Option Sample × Sample)) → Decidable (Fits r secs ts)
  | [] => isTrue trivial
  | t :: ts =>
    have := decidableFits (r.turn t) (secsAfter secs r t) ts
    inferInstanceAs (Decidable (_ ∧ _))

/-- Each step reads no faster than `R`. -/
def AtMost (R : ℚ) (t : Option Sample × Sample) : Prop :=
  ∀ s, readStep t.1 t.2 = some s → s.tokens ≤ R * s.secs ∧ 0 < s.secs

theorem window_closed {r : Reading} {ts : ℤ} (h : readPeakWindowSecs ≤ ts - r.window.start) :
    (r.closed ts).window = { start := ts } := by
  unfold Reading.closed
  rw [if_pos h]

theorem closed_of_lt {r : Reading} {ts : ℤ} (h : ¬ readPeakWindowSecs ≤ ts - r.window.start) :
    r.closed ts = r := by
  unfold Reading.closed
  rw [if_neg h]

/-- A window of a minute has lasted long enough to have a speed. -/
theorem wall_pos {r : Reading} {ts : ℤ} (h : readPeakWindowSecs ≤ ts - r.window.start) :
    readPeakMinSecs ≤ ((ts - r.window.start : ℤ) : ℚ) ∧
      (0 : ℚ) < ((ts - r.window.start : ℤ) : ℚ) := by
  have hle : ((60 : ℤ) : ℚ) ≤ ((ts - r.window.start : ℤ) : ℚ) := Int.cast_le.mpr h
  rw [Int.cast_ofNat] at hle
  unfold readPeakMinSecs
  constructor <;> linarith only [hle]

/-- A step that counts adds its tokens to the window, or to the one it begins. -/
theorem tokens_turn (r : Reading) {t : Option Sample × Sample} {s : ReadStep}
    (hs : readStep t.1 t.2 = some s) :
    (r.turn t).window.tokens =
      (if readPeakWindowSecs ≤ t.2.ts - r.window.start then 0 else r.window.tokens) +
        s.tokens := by
  unfold Reading.turn
  rw [hs]
  dsimp only [Reading.add]
  by_cases hdue : readPeakWindowSecs ≤ t.2.ts - r.window.start
  · rw [window_closed hdue, if_pos hdue]
  · rw [closed_of_lt hdue, if_neg hdue]

/-- The tokens of the window after a step, and the seconds in which they were read. -/
theorem tokens_turn_le {R secs : ℚ} {r : Reading}
    (hr : r.window.tokens ≤ R * secs) {t : Option Sample × Sample} (ht : AtMost R t) :
    (r.turn t).window.tokens ≤ R * secsAfter secs r t := by
  cases hs : readStep t.1 t.2 with
  | none =>
    unfold Reading.turn secsAfter
    rw [hs]
    exact hr
  | some s =>
    have hstep : s.tokens ≤ R * if 0 < s.tokens then s.secs else 0 := by
      split
      case isTrue => exact (ht s hs).1
      case isFalse hnone =>
        rw [mul_zero]
        exact not_lt.mp hnone
    rw [tokens_turn r hs]
    unfold secsAfter
    rw [hs]
    dsimp only
    rw [mul_add]
    split
    · rw [mul_zero]
      exact add_le_add le_rfl hstep
    · exact add_le_add hr hstep

/-- What a step does to the best window. -/
theorem peak_turn (r : Reading) (t : Option Sample × Sample) :
    (Judged r t ∧ (r.turn t).peak =
      max r.peak (r.window.tokens / (t.2.ts - r.window.start : ℤ))) ∨
      (¬ Judged r t ∧ (r.turn t).peak = r.peak) := by
  unfold Judged Reading.turn
  cases hs : readStep t.1 t.2 with
  | none => exact .inr ⟨fun h => absurd h.1 (by simp), rfl⟩
  | some s =>
    dsimp only [Reading.add]
    by_cases hdue : readPeakWindowSecs ≤ t.2.ts - r.window.start
    · unfold Reading.closed
      rw [if_pos hdue]
      dsimp only
      by_cases hfull : readPeakMinTokens ≤ r.window.tokens
      · rw [if_pos ⟨hfull, (wall_pos hdue).1⟩]
        exact .inl ⟨⟨rfl, hdue, hfull⟩, rfl⟩
      · rw [if_neg fun h => hfull h.1]
        exact .inr ⟨fun h => hfull h.2.2, rfl⟩
    · rw [closed_of_lt hdue]
      exact .inr ⟨fun h => hdue h.2.1, rfl⟩

/-- A window whose tokens fit into it is no faster than the steps that filled it. -/
theorem peak_turn_le {R secs : ℚ} (hR : 0 ≤ R) {r : Reading} (hpeak : r.peak ≤ R)
    (hr : r.window.tokens ≤ R * secs) {t : Option Sample × Sample}
    (hfits : Judged r t → secs ≤ (t.2.ts - r.window.start : ℤ)) : (r.turn t).peak ≤ R := by
  rcases peak_turn r t with ⟨hjudged, heq⟩ | ⟨-, heq⟩
  · rw [heq]
    refine max_le hpeak ((div_le_iff₀ (wall_pos hjudged.2.1).2).mpr ?_)
    exact hr.trans (mul_le_mul_of_nonneg_left (hfits hjudged) hR)
  · rw [heq]
    exact hpeak

/-- Over a run, what fits is no faster than its steps. -/
theorem peak_le_of_fits {R : ℚ} (hR : 0 ≤ R) (ts : List (Option Sample × Sample))
    (hts : ∀ t ∈ ts, AtMost R t) {r : Reading} {secs : ℚ} (hpeak : r.peak ≤ R)
    (hr : r.window.tokens ≤ R * secs) (hfits : Fits r secs ts) :
    (ts.foldl Reading.turn r).peak ≤ R := by
  induction ts generalizing r secs with
  | nil => exact hpeak
  | cons t ts ih =>
    obtain ⟨ht, hts⟩ := List.forall_mem_cons.mp hts
    obtain ⟨hfit, hfits⟩ := hfits
    rw [List.foldl_cons]
    exact ih hts (peak_turn_le hR hpeak hr hfit) (tokens_turn_le hr ht) hfits

/-! ## A steady run -/

/-- Each step that counts reads at exactly `R`. -/
def SteadyAt (R : ℚ) (t : Option Sample × Sample) : Prop :=
  ∀ s, readStep t.1 t.2 = some s → s.tokens = R * s.secs ∧ 0 < s.secs

theorem tokens_turn_eq {R secs : ℚ} (hR : 0 < R) {r : Reading}
    (hr : r.window.tokens = R * secs) {t : Option Sample × Sample} (ht : SteadyAt R t) :
    (r.turn t).window.tokens = R * secsAfter secs r t := by
  cases hs : readStep t.1 t.2 with
  | none =>
    unfold Reading.turn secsAfter
    rw [hs]
    exact hr
  | some s =>
    obtain ⟨heq, hsecs⟩ := ht s hs
    have hread : 0 < s.tokens := by
      rw [heq]
      exact mul_pos hR hsecs
    rw [tokens_turn r hs]
    unfold secsAfter
    rw [hs]
    dsimp only
    rw [if_pos hread, mul_add, ← heq]
    split
    · rw [mul_zero]
    · rw [hr]

theorem peak_turn_le_iff {R secs : ℚ} (hR : 0 < R) {r : Reading}
    (hr : r.window.tokens = R * secs) (t : Option Sample × Sample) :
    (r.turn t).peak ≤ R ↔
      r.peak ≤ R ∧ (Judged r t → secs ≤ (t.2.ts - r.window.start : ℤ)) := by
  rcases peak_turn r t with ⟨hjudged, heq⟩ | ⟨hnot, heq⟩
  · rw [heq, max_le_iff, div_le_iff₀ (wall_pos hjudged.2.1).2, hr, mul_le_mul_iff_right₀ hR]
    exact and_congr_right fun _ => ⟨fun h _ => h, fun h => h hjudged⟩
  · rw [heq]
    exact ⟨fun h => ⟨h, fun hj => absurd hj hnot⟩, And.left⟩

/-- At a steady speed the best window is no faster than that exactly when everything fits. -/
theorem steady_peak_le_iff {R : ℚ} (hR : 0 < R) (ts : List (Option Sample × Sample))
    (hts : ∀ t ∈ ts, SteadyAt R t) {r : Reading} {secs : ℚ}
    (hr : r.window.tokens = R * secs) :
    (ts.foldl Reading.turn r).peak ≤ R ↔ r.peak ≤ R ∧ Fits r secs ts := by
  induction ts generalizing r secs with
  | nil => exact ⟨fun h => ⟨h, trivial⟩, And.left⟩
  | cons t ts ih =>
    obtain ⟨ht, hts⟩ := List.forall_mem_cons.mp hts
    rw [List.foldl_cons, ih hts (tokens_turn_eq hR hr ht), peak_turn_le_iff hR hr t, and_assoc]
    rfl

/-! ## The recorded peak -/

/-- Nothing has been read yet. -/
def nothingRead : Reading := ⟨0, {}⟩

/-- Every step that counts reads at the best speed there is. -/
def Steady (runs : List (List Sample)) : Prop :=
  0 < bestRate runs ∧
    ∀ t ∈ runs.flatMap (turns none), ∀ s, readStep t.1 t.2 = some s →
      s.tokens = bestRate runs * s.secs

/-- The samples of a loadout, run after run. -/
def observeRuns (runs : List (List Sample)) : LoadoutAcc :=
  observeTurns {} (runs.flatMap (turns none))

/-- In every run of samples in which what is read fits into the windows, the recorded peak is no
higher than the best speed between two neighbours; and where the speed is steady only then. -/
theorem reading_peak_was_reached (runs : List (List Sample)) :
    (Fits nothingRead 0 (runs.flatMap (turns none)) →
      (observeRuns runs).readPeakTokS ≤ bestRate runs) ∧
      (Steady runs → ((observeRuns runs).readPeakTokS ≤ bestRate runs ↔
        Fits nothingRead 0 (runs.flatMap (turns none)))) := by
  have hpeak : (observeRuns runs).readPeakTokS =
      ((runs.flatMap (turns none)).foldl Reading.turn nothingRead).peak :=
    congrArg Reading.peak (readingOf_observeTurns {} _)
  have hempty : nothingRead.window.tokens = bestRate runs * 0 := (mul_zero _).symm
  rw [hpeak]
  refine ⟨fun hfits => ?_, fun ⟨hpos, hsteady⟩ => ?_⟩
  · exact peak_le_of_fits (bestRate_nonneg runs) _
      (fun t ht s hs => tokens_le_bestRate ht hs) (bestRate_nonneg runs) hempty.le hfits
  · rw [steady_peak_le_iff hpos _
      (fun t ht s hs => ⟨hsteady t ht s hs, (tokens_le_bestRate ht hs).2⟩) hempty]
    exact and_iff_right (bestRate_nonneg runs)

/-- An engine that reads a thousand tokens in each second, polled at some times. -/
def readAt (times : List ℤ) : List Sample :=
  times.map fun ts =>
    { ts := ts
      metrics := some { prefillComputeTokensTotal := 1000 * (ts - 1000), prefillForwardSum := 1 } }

/-- Polled every half minute, and for two runs. -/
theorem even_polls_fit :
    (observeRuns [readAt [1000, 1030, 1060, 1090], readAt [2000, 2030]]).readPeakTokS ≤
      bestRate [readAt [1000, 1030, 1060, 1090], readAt [2000, 2030]] :=
  (reading_peak_was_reached [readAt [1000, 1030, 1060, 1090], readAt [2000, 2030]]).1
    (by decide +kernel)

/-- Polled after 30, 30, 25 and 5 seconds, the engine seems to have read 1416 tokens a second. -/
theorem uneven_polls_read_faster :
    (observeRuns [readAt [1000, 1030, 1060, 1085, 1090]]).readPeakTokS = 85000 / 60 ∧
      bestRate [readAt [1000, 1030, 1060, 1085, 1090]] = 1000 ∧
      ¬ (observeRuns [readAt [1000, 1030, 1060, 1085, 1090]]).readPeakTokS ≤
        bestRate [readAt [1000, 1030, 1060, 1085, 1090]] := by
  have hpeak : (observeRuns [readAt [1000, 1030, 1060, 1085, 1090]]).readPeakTokS =
      85000 / 60 := by
    unfold observeRuns
    rw [show ∀ acc : LoadoutAcc, acc.readPeakTokS = (readingOf acc).peak from fun _ => rfl,
      readingOf_observeTurns]
    decide +kernel
  have hbest : bestRate [readAt [1000, 1030, 1060, 1085, 1090]] = 1000 := by decide +kernel
  refine ⟨hpeak, hbest, ?_⟩
  rw [hpeak, hbest]
  norm_num

end Lss.Analysis.ReadingPeaks
