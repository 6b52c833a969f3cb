import Lss.Library.Fold
import Lss.Model.History
import Mathlib.Data.List.TakeWhile

/-!
# The hour on screen stays as it was

Each half minute of the hour is made of the samples in it, each of them once. When it is over its
levels are what they are until it leaves the screen, whatever is polled; so is what arrived in it, as
long as the sample before it is kept and had metrics.
-/

set_option autoImplicit false

namespace Lss.Analysis.HourSlots

open Lss.Model Lss.Model.HourSeries Lss.Library.Fold

/-! ## One half minute -/

/-- A time lies in the half minute from another on. -/
def InSlot (τ t : ℤ) : Prop := τ ≤ t ∧ t < τ + seriesStepSecs

instance (τ t : ℤ) : Decidable (InSlot τ t) := inferInstanceAs (Decidable (_ ∧ _))

/-- What a sample does to one half minute. -/
def fillOne (gpus : ℕ) (start τ : ℤ) (acc : Slot × Option ServeMetrics) (s : Sample) :
    Slot × Option ServeMetrics :=
  (if InSlot τ s.ts then acc.1.add gpus acc.2 s else acc.1, nextPrev start acc.2 s)

variable {start τ : ℤ} {gpus k : ℕ}

/-- The half minute of a time in the hour. -/
theorem index_eq_iff {t : ℤ} (before : start ≤ t) :
    ((t - start) / seriesStepSecs).toNat = k ↔ InSlot (start + k * seriesStepSecs) t := by
  unfold InSlot seriesStepSecs
  omega

/-- Each half minute is filled by itself. -/
theorem getElem?_fill (hk : k < seriesPoints) (samples : List Sample)
    (acc : List Slot × Option ServeMetrics) {x : Slot} (hx : acc.1[k]? = some x) :
    (samples.foldl (fill gpus start) acc).1[k]? =
        some (samples.foldl (fillOne gpus start (start + k * seriesStepSecs)) (x, acc.2)).1 ∧
      (samples.foldl (fill gpus start) acc).2 =
        (samples.foldl (fillOne gpus start (start + k * seriesStepSecs)) (x, acc.2)).2 := by
  induction samples generalizing acc x with
  | nil => exact ⟨hx, rfl⟩
  | cons s samples ih =>
      rw [List.foldl_cons, List.foldl_cons]
      refine ih _ ?_
      unfold fill
      dsimp only
      unfold seriesPoints at hk
      split
      case isTrue out =>
        rw [if_neg (by unfold InSlot seriesStepSecs; unfold historySecs at out; omega)]
        exact hx
      case isFalse inside =>
        have before : start ≤ s.ts := by omega
        rw [List.getElem?_modify, hx, Option.map_eq_map, Option.map_some]
        congr 1
        by_cases here : InSlot (start + k * seriesStepSecs) s.ts
        · rw [if_pos here, if_pos ((index_eq_iff before).mpr here)]
        · rw [if_neg here, if_neg fun h => here ((index_eq_iff before).mp h)]

/-- Samples that are not in a half minute leave it. -/
theorem foldl_outside {samples : List Sample} (outside : ∀ s ∈ samples, ¬InSlot τ s.ts) (x : Slot)
    (prev : Option ServeMetrics) :
    samples.foldl (fillOne gpus start τ) (x, prev) =
      (x, samples.foldl (nextPrev start) prev) := by
  induction samples generalizing prev with
  | nil => rfl
  | cons s samples ih =>
      rw [List.foldl_cons, List.foldl_cons, ← ih (fun t ht => outside t (List.mem_cons_of_mem _ ht))]
      unfold fillOne
      rw [if_neg (outside s List.mem_cons_self)]

/-- What the samples of a half minute make of it, after the metrics before. -/
def made (gpus : ℕ) (prev : Option ServeMetrics) (samples : List Sample) : Slot :=
  (samples.foldl (fun acc s => (acc.1.add gpus acc.2 s, s.metrics.or acc.2))
    (({}, prev) : Slot × Option ServeMetrics)).1

theorem foldl_inside {samples : List Sample} (inside : ∀ s ∈ samples, InSlot τ s.ts)
    (first : start ≤ τ) (last : τ + seriesStepSecs ≤ start + historySecs)
    (acc : Slot × Option ServeMetrics) :
    samples.foldl (fillOne gpus start τ) acc =
      samples.foldl (fun acc s => (acc.1.add gpus acc.2 s, s.metrics.or acc.2)) acc := by
  induction samples generalizing acc with
  | nil => rfl
  | cons s samples ih =>
      rw [List.foldl_cons, List.foldl_cons,
        ih (fun t ht => inside t (List.mem_cons_of_mem _ ht))]
      have here := inside s List.mem_cons_self
      unfold fillOne nextPrev
      rw [if_pos here, if_neg]
      unfold InSlot at here
      omega

/-- The samples before a time. -/
def earlier (τ : ℤ) (h : History) : List Sample := h.filter fun s => s.ts < τ

/-- The samples of the half minute from a time on. -/
def within (τ : ℤ) (h : History) : List Sample := h.filter fun s => InSlot τ s.ts

/-- The samples after that half minute. -/
def after (τ : ℤ) (h : History) : List Sample := h.filter fun s => τ + seriesStepSecs ≤ s.ts

theorem parts_of_increasing {h : History} (ordered : Increasing h) (τ : ℤ) :
    h = earlier τ h ++ (within τ h ++ after τ h) := by
  have first := ordered.split τ
  have second := (first ▸ ordered).of_append.2.1.split (τ + seriesStepSecs)
  rw [List.filter_filter, List.filter_filter] at second
  have step : (0 : ℤ) < seriesStepSecs := by decide
  refine first.trans ?_
  unfold earlier
  congr 1
  refine second.trans ?_
  unfold within after
  congr 1
  · refine List.filter_congr fun s _ => ?_
    rw [Bool.eq_iff_iff]
    simp only [Bool.and_eq_true, decide_eq_true_eq]
    exact and_comm
  · refine List.filter_congr fun s _ => ?_
    rw [Bool.eq_iff_iff]
    simp only [Bool.and_eq_true, decide_eq_true_eq]
    omega

/-- The metrics before a half minute. -/
def entry (now τ : ℤ) (h : History) : Option ServeMetrics :=
  (earlier τ h).foldl (nextPrev (startAt now)) none

/-- The half minute from a time on, as it is on screen. -/
def slotAt (h : History) (now τ : ℤ) : Slot :=
  ((slots h now)[((τ - startAt now) / seriesStepSecs).toNat]?).getD {}

/-- A time at which a half minute of the hour begins. -/
structure OnScreen (now τ : ℤ) : Prop where
  aligned : seriesStepSecs ∣ τ
  shown : startAt now ≤ τ
  closed : τ + seriesStepSecs ≤ startAt now + historySecs

theorem startAt_dvd (now : ℤ) : seriesStepSecs ∣ startAt now := by
  unfold startAt seriesStepSecs historySecs
  omega

/-- A half minute on screen is made of its samples. -/
theorem slotAt_eq {h : History} (ordered : Increasing h) {now τ : ℤ} (on : OnScreen now τ) :
    slotAt h now τ = made (gpuCount h) (entry now τ h) (within τ h) := by
  obtain ⟨k, hk⟩ : ∃ k : ℕ, τ = startAt now + k * seriesStepSecs := by
    obtain ⟨c, hc⟩ := on.aligned
    obtain ⟨d, hd⟩ := startAt_dvd now
    have shown := on.shown
    refine ⟨(c - d).toNat, ?_⟩
    unfold seriesStepSecs at *
    omega
  have index : ((τ - startAt now) / seriesStepSecs).toNat = k := by
    unfold seriesStepSecs at *
    omega
  have small : k < seriesPoints := by
    have closed := on.closed
    unfold seriesPoints
    unfold historySecs seriesStepSecs at *
    omega
  have filled : (h.foldl (fill (gpuCount h) (startAt now))
      (List.replicate seriesPoints {}, none)).1[k]? =
        some (h.foldl (fillOne (gpuCount h) (startAt now) (startAt now + k * seriesStepSecs))
          ({}, none)).1 :=
    (getElem?_fill small h _ (List.getElem?_replicate_of_lt small)).1
  have before : ∀ s ∈ earlier τ h, ¬InSlot τ s.ts := fun s hs => by
    have := of_decide_eq_true (List.mem_filter.mp hs).2
    unfold InSlot
    omega
  have inside : ∀ s ∈ within τ h, InSlot τ s.ts := fun s hs =>
    of_decide_eq_true (List.mem_filter.mp hs).2
  have later : ∀ s ∈ after τ h, ¬InSlot τ s.ts := fun s hs => by
    have := of_decide_eq_true (List.mem_filter.mp hs).2
    unfold InSlot
    omega
  unfold slotAt slots
  rw [index, filled, ← hk, Option.getD_some]
  have parts : h.foldl (fillOne (gpuCount h) (startAt now) τ) ({}, none) =
      (earlier τ h ++ (within τ h ++ after τ h)).foldl
        (fillOne (gpuCount h) (startAt now) τ) ({}, none) :=
    congrArg (List.foldl _ _) (parts_of_increasing ordered τ)
  rw [parts, List.foldl_append, List.foldl_append, foldl_outside before,
    foldl_inside inside on.shown on.closed]
  rw [← Prod.mk.eta (p := (within τ h).foldl _ _), foldl_outside later]
  rfl

/-! ## What a half minute is made of -/

/-- Its levels are those of its samples, whatever was before them. -/
theorem made_levels (gpus : ℕ) (prev : Option ServeMetrics) (samples : List Sample) :
    (made gpus prev samples).levels = samples.foldl (Levels.add gpus) {} := by
  unfold made
  generalize hx : (({}, prev) : Slot × Option ServeMetrics) = acc
  have start : ({} : Levels) = acc.1.levels := by rw [← hx]
  rw [start]
  clear hx start
  induction samples generalizing acc with
  | nil => rfl
  | cons s samples ih => exact ih _

/-- What arrived in it does not depend on the cards. -/
theorem made_arrivals (gpus gpus' : ℕ) (prev : Option ServeMetrics) (samples : List Sample) :
    (made gpus prev samples).arrivals = (made gpus' prev samples).arrivals := by
  unfold made
  have both : ∀ (samples : List Sample) (acc acc' : Slot × Option ServeMetrics),
      acc.1.arrivals = acc'.1.arrivals → acc.2 = acc'.2 →
      (samples.foldl (fun acc s => (acc.1.add gpus acc.2 s, s.metrics.or acc.2)) acc).1.arrivals =
      (samples.foldl (fun acc s => (acc.1.add gpus' acc.2 s, s.metrics.or acc.2)) acc').1.arrivals
      := by
    intro samples
    induction samples with
    | nil => exact fun _ _ same _ => same
    | cons s samples ih =>
        intro acc acc' same prevs
        refine ih _ _ ?_ ?_
        · unfold Slot.add
          dsimp only
          rw [same, prevs]
        · dsimp only
          rw [prevs]
  exact both samples _ _ rfl rfl

/-- The cards of some samples have rows. -/
def Rows (gpus : ℕ) (samples : List Sample) : Prop :=
  ∀ s ∈ samples, ∀ g ∈ s.gpus, g.index < gpus

/-- A card that has a row is shown however many rows there are. -/
theorem warm_congr {cards : List GpuSample} {a b : ℕ} (inA : ∀ g ∈ cards, g.index < a)
    (inB : ∀ g ∈ cards, g.index < b) (temps : ℕ → Bucket) :
    warm a temps cards = warm b temps cards := by
  unfold warm
  refine List.foldl_ext _ _ _ fun temps g hg => ?_
  rw [if_pos (inA g hg), if_pos (inB g hg)]

theorem levels_congr {samples : List Sample} {a b : ℕ} (inA : Rows a samples)
    (inB : Rows b samples) (l : Levels) :
    samples.foldl (Levels.add a) l = samples.foldl (Levels.add b) l := by
  refine List.foldl_ext _ _ _ fun l s hs => ?_
  unfold Levels.add
  rw [warm_congr (inA s hs) (inB s hs)]

/-- Every card that is seen in the hour has a row. -/
theorem rows_gpuCount (h : History) : Rows (gpuCount h) h := by
  intro s hs g hg
  have card : g.index + 1 ≤ (s.gpus.map fun g => g.index + 1).foldl max 0 :=
    (le_foldl_max _ _).mpr (.inr ⟨_, List.mem_map.mpr ⟨g, hg, rfl⟩, le_rfl⟩)
  exact Nat.lt_of_succ_le ((le_foldl_max _ _).mpr
    (.inr ⟨_, List.mem_map.mpr ⟨s, hs, rfl⟩, card⟩))

theorem Rows.within {gpus : ℕ} {h : History} (rows : Rows gpus h) (τ : ℤ) :
    Rows gpus (within τ h) :=
  fun s hs => rows s (List.mem_filter.mp hs).1

/-- One more sample adds to the power of its half minute. -/
theorem map_power_fill (acc : List Slot × Option ServeMetrics) (s : Sample) :
    (fill gpus start acc s).1.map (fun x => x.levels.power) =
      if s.ts < start ∨ start + historySecs ≤ s.ts then acc.1.map fun x => x.levels.power
      else (acc.1.map fun x => x.levels.power).modify ((s.ts - start) / seriesStepSecs).toNat
        fun b => b.addSome (watts s) := by
  unfold fill
  dsimp only
  split
  case isTrue => rfl
  case isFalse =>
    refine List.ext_getElem? fun i => ?_
    rw [List.getElem?_map, List.getElem?_modify, List.getElem?_modify, List.getElem?_map]
    cases acc.1[i]? with
    | none => rfl
    | some x =>
        simp only [Option.map_eq_map, Option.map_some]
        split <;> rfl

/-- The power that is priced is on the grid of the power that is drawn. -/
theorem powerMeanW_eq (h : History) (now : ℤ) :
    powerMeanW h now = (slots h now).map fun x => x.levels.power.mean := by
  have grid : ∀ (samples : List Sample) (acc : List Slot × Option ServeMetrics),
      ((samples.filter fun s => startAt now ≤ s.ts ∧ s.ts < startAt now + historySecs).foldl
          (fun power s => power.modify ((s.ts - startAt now) / seriesStepSecs).toNat
            fun b => b.addSome (watts s)) (acc.1.map fun x => x.levels.power)) =
        (samples.foldl (fill (gpuCount h) (startAt now)) acc).1.map fun x => x.levels.power := by
    intro samples
    induction samples with
    | nil => exact fun _ => rfl
    | cons s samples ih =>
        intro acc
        rw [List.foldl_cons, ← ih, map_power_fill]
        by_cases out : s.ts < startAt now ∨ startAt now + historySecs ≤ s.ts
        · rw [if_pos out, List.filter_cons_of_neg]
          simp only [decide_eq_true_eq]
          omega
        · rw [if_neg out, List.filter_cons_of_pos, List.foldl_cons]
          simp only [decide_eq_true_eq]
          omega
  have begun : (List.replicate seriesPoints ({} : Slot)).map (fun x => x.levels.power) =
      List.replicate seriesPoints {} := List.map_replicate
  unfold powerMeanW slots
  dsimp only
  rw [← begun, grid h (_, none), List.map_map]
  rfl

/-! ## Polling on -/

/-- What is dropped while polling goes on is from before the hour. -/
theorem dropped_of_pushes {h later : History} {now' : ℤ} (upto : ∀ s ∈ later, s.ts ≤ now') :
    ∃ dropped, h ++ later = dropped ++ later.foldl History.push h ∧
      ∀ s ∈ dropped, s.ts < now' - historySecs - seriesStepSecs := by
  induction later generalizing h with
  | nil => exact ⟨[], by simp, by simp⟩
  | cons s later ih =>
      obtain ⟨dropped, rest, old⟩ := ih (h := h.push s) fun t ht =>
        upto t (List.mem_cons_of_mem _ ht)
      have now := upto s List.mem_cons_self
      refine ⟨(h ++ [s]).takeWhile (fun f => f.ts < s.ts - historySecs - seriesStepSecs) ++ dropped,
        ?_, ?_⟩
      · rw [List.foldl_cons, List.append_assoc, ← rest, ← List.append_assoc]
        unfold History.push
        rw [List.takeWhile_append_dropWhile, List.append_assoc, List.singleton_append]
      · intro t ht
        rcases List.mem_append.mp ht with ht | ht
        · have := List.mem_takeWhile_imp (p := fun f : Sample =>
            decide (f.ts < s.ts - historySecs - seriesStepSecs)) ht
          have := of_decide_eq_true this
          omega
        · exact old t ht

/-- Polling goes on after a half minute is over, and it is still on screen. -/
structure PolledOn (h later : History) (now now' τ : ℤ) : Prop where
  ordered : Increasing (h ++ later)
  passed : now ≤ now'
  polled : ∀ s ∈ later, now ≤ s.ts ∧ s.ts ≤ now'
  aligned : seriesStepSecs ∣ τ
  past : τ + seriesStepSecs ≤ now
  shown : startAt now' ≤ τ

namespace PolledOn

variable {h later : History} {now now' τ : ℤ} (on : PolledOn h later now now' τ)
include on

theorem shownBefore : OnScreen now τ := by
  obtain ⟨-, passed, -, aligned, past, shown⟩ := on
  unfold startAt at shown
  refine ⟨aligned, ?_, ?_⟩ <;> unfold startAt <;> unfold historySecs seriesStepSecs at * <;> omega

theorem shownAfter : OnScreen now' τ := by
  obtain ⟨-, passed, -, aligned, past, shown⟩ := on
  refine ⟨aligned, shown, ?_⟩
  unfold startAt
  unfold historySecs seriesStepSecs at *
  omega

/-- The samples kept are those there were and the later ones, without some from before the hour. -/
theorem kept : ∃ dropped, h ++ later = dropped ++ later.foldl History.push h ∧
    ∀ s ∈ dropped, s.ts < now' - historySecs - seriesStepSecs ∧ s.ts < τ := by
  obtain ⟨dropped, rest, old⟩ := dropped_of_pushes (h := h) fun s hs => (on.polled s hs).2
  refine ⟨dropped, rest, fun s hs => ⟨old s hs, ?_⟩⟩
  have := old s hs
  have shown := on.shown
  unfold startAt at shown
  unfold historySecs seriesStepSecs at *
  omega

theorem increasing : Increasing h ∧ Increasing (later.foldl History.push h) := by
  obtain ⟨dropped, rest, -⟩ := on.kept
  exact ⟨on.ordered.of_append.1, (rest ▸ on.ordered).of_append.2.1⟩

/-- The half minute keeps its samples, and gets no others. -/
theorem within_eq : within τ (later.foldl History.push h) = within τ h := by
  obtain ⟨dropped, rest, old⟩ := on.kept
  have none_later : within τ later = [] := List.filter_eq_nil_iff.mpr fun s hs here => by
    have polled := (on.polled s hs).1
    have past := on.past
    obtain ⟨-, before⟩ := of_decide_eq_true here
    omega
  have none_dropped : within τ dropped = [] := List.filter_eq_nil_iff.mpr fun s hs here => by
    have before := (old s hs).2
    obtain ⟨after, -⟩ := of_decide_eq_true here
    omega
  have both := congrArg (within τ) rest
  unfold within at *
  rw [List.filter_append, List.filter_append, none_later, none_dropped, List.append_nil,
    List.nil_append] at both
  exact both.symm

/-- The samples before it are those there were, without those dropped. -/
theorem earlier_eq : ∃ dropped, earlier τ h = dropped ++ earlier τ (later.foldl History.push h) ∧
    ∀ s ∈ dropped, s.ts < now' - historySecs - seriesStepSecs := by
  obtain ⟨dropped, rest, old⟩ := on.kept
  have none_later : earlier τ later = [] := List.filter_eq_nil_iff.mpr fun s hs => by
    have := (on.polled s hs).1
    have past := on.past
    unfold seriesStepSecs at past
    simp only [decide_eq_true_eq]
    omega
  have all_dropped : earlier τ dropped = dropped := List.filter_eq_self.mpr fun s hs =>
    decide_eq_true (old s hs).2
  have both := congrArg (earlier τ) rest
  unfold earlier at *
  rw [List.filter_append, List.filter_append, none_later, all_dropped, List.append_nil] at both
  exact ⟨dropped, both, fun s hs => (old s hs).1⟩

/-- As long as the sample before it is kept and had metrics, these are the metrics before it. -/
theorem entry_eq (anchored : ∀ p, (earlier τ h).getLast? = some p →
      p.metrics.isSome ∧ now' - historySecs - seriesStepSecs ≤ p.ts) :
    entry now' τ (later.foldl History.push h) = entry now τ h := by
  obtain ⟨dropped, rest, old⟩ := on.earlier_eq
  unfold entry
  generalize earlier τ (later.foldl History.push h) = left at rest
  rcases List.eq_nil_or_concat' left with rfl | ⟨left, p, rfl⟩
  · rw [List.append_nil] at rest
    rcases List.eq_nil_or_concat' dropped with rfl | ⟨dropped, p, rfl⟩
    · rw [rest]
      rfl
    · have kept := (anchored p (by rw [rest, List.getLast?_concat])).2
      have := old p (List.mem_append_right _ List.mem_cons_self)
      omega
  · rw [← List.append_assoc] at rest
    obtain ⟨m, hm⟩ := Option.isSome_iff_exists.mp
      (anchored p (by rw [rest, List.getLast?_concat])).1
    have next : ∀ now prev, nextPrev now prev p = some m := fun now prev => by
      unfold nextPrev
      rw [hm, Option.some_or, ite_self]
    rw [rest, List.foldl_concat, List.foldl_concat, next, next]

end PolledOn

/-- A half minute that is over shows the same levels until it leaves the screen, whatever is polled
and whatever is dropped in the meantime. What arrived in it shows the same as long as the sample
before it is kept and had metrics. -/
theorem closed_slot_stays {h later : History} {now now' τ : ℤ}
    (on : PolledOn h later now now' τ) :
    (slotAt (later.foldl History.push h) now' τ).levels = (slotAt h now τ).levels ∧
    ((∀ p, (earlier τ h).getLast? = some p →
        p.metrics.isSome ∧ now' - historySecs - seriesStepSecs ≤ p.ts) →
      (slotAt (later.foldl History.push h) now' τ).arrivals = (slotAt h now τ).arrivals) := by
  obtain ⟨before, afterwards⟩ := on.increasing
  rw [slotAt_eq before on.shownBefore, slotAt_eq afterwards on.shownAfter, on.within_eq]
  constructor
  · rw [made_levels, made_levels]
    refine levels_congr ?_ ((rows_gpuCount h).within τ) _
    rw [← on.within_eq]
    exact (rows_gpuCount _).within τ
  · intro anchored
    rw [on.entry_eq anchored]
    exact made_arrivals _ _ _ _

/-- Two samples are in the half minute, one before it, and one from before the hour. -/
def hourBefore : History :=
  [{ ts := 10 }, { ts := 50, metrics := some {} }, { ts := 65, metrics := some {} }, { ts := 70 }]

theorem minute_stays_an_hour :
    (slotAt ([{ ts := 95 }, { ts := 3650 }].foldl History.push hourBefore) 3650 60).levels =
        (slotAt hourBefore 90 60).levels ∧
      (slotAt ([{ ts := 95 }, { ts := 3650 }].foldl History.push hourBefore) 3650 60).arrivals =
        (slotAt hourBefore 90 60).arrivals := by
  have on : PolledOn hourBefore [{ ts := 95 }, { ts := 3650 }] 90 3650 60 :=
    { ordered := by decide
      passed := by omega
      polled := by simp
      aligned := by decide
      past := by decide
      shown := by decide }
  obtain ⟨levels, arrivals⟩ := closed_slot_stays on
  refine ⟨levels, arrivals fun p hp => ?_⟩
  have last : (earlier 60 hourBefore).getLast? = some { ts := 50, metrics := some {} } := rfl
  rw [last, Option.some.injEq] at hp
  subst hp
  exact ⟨rfl, by decide⟩

end Lss.Analysis.HourSlots
