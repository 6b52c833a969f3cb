import Lss.Model.Cost

/-!
# The power readings of a range

Both the cost since midnight and the comparison with the rollup go over the steps between
consecutive power readings among the stored samples of a range.
-/

set_option autoImplicit false

namespace Lss.Analysis.Readings

open Lss.Library.Steps Lss.Model

/-- The energy between two samples that both have a power reading, unless they are a gap
apart. -/
def joules (p : Sample × Sample) : ℚ :=
  match p.1.watts, p.2.watts with
  | some a, some b => if Gap p.1.ts p.2.ts then 0 else stepJoules (p.1.ts, a) (p.2.ts, b)
  | _, _ => 0

theorem joules_of_gap {p : Sample × Sample} (h : Gap p.1.ts p.2.ts) : joules p = 0 := by
  unfold joules
  cases p.1.watts with
  | none => rfl
  | some a =>
      cases p.2.watts with
      | none => rfl
      | some b => exact if_pos h

variable (stored : List Sample) (start stop : ℤ)

/-- Whether a sample is of a range and has a reading of the power. -/
def hasReading (s : Sample) : Bool := decide (start ≤ s.ts ∧ s.ts < stop) && s.watts.isSome

/-- The steps between consecutive readings of a range. -/
def readingSteps : List (Sample × Sample) := steps (stored.filter (hasReading start stop))

/-- What is read off the samples of a range that have a power reading. -/
theorem filterMap_watts {β : Type} (read : Sample → ℚ → β) :
    ((samplesBetween stored start stop).filterMap fun s => s.watts.map (read s)) =
      (stored.filter (hasReading start stop)).map fun s => read s (s.watts.getD 0) := by
  unfold samplesBetween
  induction stored with
  | nil => rfl
  | cons s stored ih =>
      by_cases hin : start ≤ s.ts ∧ s.ts < stop
      · rw [List.filter_cons_of_pos (by simpa using hin)]
        cases hw : s.watts with
        | none =>
            have hnot : ¬ hasReading start stop s = true := by simp [hasReading, hw]
            rw [List.filterMap_cons_none (by rw [hw]; rfl), List.filter_cons_of_neg hnot, ih]
        | some w =>
            have hread : hasReading start stop s = true := by simp [hasReading, hw, hin]
            rw [List.filterMap_cons_some (b := read s w) (by rw [hw]; rfl),
              List.filter_cons_of_pos hread, ih, List.map_cons, hw]
            rfl
      · have hnot : ¬ hasReading start stop s = true := by simp [hasReading, hin]
        rw [List.filter_cons_of_neg (by simpa using hin), List.filter_cons_of_neg hnot, ih]

/-- The power at the two ends of a step. -/
def powerStep (p : Sample × Sample) : (ℤ × ℚ) × (ℤ × ℚ) :=
  ((p.1.ts, p.1.watts.getD 0), (p.2.ts, p.2.watts.getD 0))

theorem steps_wattSeries :
    steps (wattSeries stored start stop) = (readingSteps stored start stop).map powerStep := by
  unfold wattSeries
  rw [filterMap_watts, steps_map]
  rfl

variable {stored start stop}

theorem readings_of_mem {p : Sample × Sample} (h : p ∈ readingSteps stored start stop) :
    (p.1 ∈ stored ∧ hasReading start stop p.1 = true) ∧
      (p.2 ∈ stored ∧ hasReading start stop p.2 = true) := by
  obtain ⟨h1, h2⟩ := mem_of_mem_steps h
  exact ⟨List.mem_filter.1 h1, List.mem_filter.1 h2⟩

theorem watts_of_hasReading {s : Sample} (h : hasReading start stop s = true) :
    s.watts.isSome = true := by
  unfold hasReading at h
  rw [Bool.and_eq_true] at h
  exact h.2

/-- The hours of the first day of the epoch, in universal time. -/
def firstDay : Calendar := fun ts =>
  if 0 ≤ ts ∧ ts < 86400 then some ⟨1970, 1, 1, (ts / 3600).toNat, false⟩ else none

end Lss.Analysis.Readings
