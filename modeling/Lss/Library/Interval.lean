import Mathlib.MeasureTheory.Measure.Lebesgue.Basic
import Mathlib.Order.CompletePartialOrder

/-!
# The measure of a list of intervals in a window

Closed intervals of the real line, listed in order so that each ends before the later ones
start. The share of a window that they cover is then a plain sum: each interval is clipped
against the window and the lengths are added.
-/

set_option autoImplicit false

namespace Lss.Library.Interval

open MeasureTheory Set

variable {ι : Type*} (lo hi : ι → ℝ)

/-- The points that some interval of a list covers. -/
def covered (l : List ι) : Set ℝ := ⋃ i ∈ l, Icc (lo i) (hi i)

/-- How much of a window the intervals of a list cover. -/
noncomputable def coverage (l : List ι) (a b : ℝ) : ℝ :=
  (volume (covered lo hi l ∩ Icc a b)).toReal

theorem covered_cons (i : ι) (l : List ι) :
    covered lo hi (i :: l) = Icc (lo i) (hi i) ∪ covered lo hi l := by
  unfold covered
  simp only [List.mem_cons, iUnion_iUnion_eq_or_left]

theorem measurableSet_covered (l : List ι) : MeasurableSet (covered lo hi l) := by
  induction l with
  | nil => simp [covered]
  | cons i l ih =>
      rw [covered_cons]
      exact measurableSet_Icc.union ih

theorem coverage_nonneg (l : List ι) (a b : ℝ) : 0 ≤ coverage lo hi l a b :=
  ENNReal.toReal_nonneg

/-- No more than the whole window is covered. -/
theorem coverage_le (l : List ι) {a b : ℝ} (h : a ≤ b) : coverage lo hi l a b ≤ b - a := by
  have hsub : volume (covered lo hi l ∩ Icc a b) ≤ volume (Icc a b) :=
    measure_mono inter_subset_right
  rw [Real.volume_Icc] at hsub
  have hreal := ENNReal.toReal_mono ENNReal.ofReal_ne_top hsub
  rwa [ENNReal.toReal_ofReal (by linarith)] at hreal

variable {lo hi}

/-- Two intervals that share no inner point share nothing that counts. -/
theorem aedisjoint_of_apart {i j : ι} (apart : Disjoint (Ioo (lo i) (hi i)) (Ioo (lo j) (hi j))) :
    AEDisjoint volume (Icc (lo i) (hi i)) (Icc (lo j) (hi j)) := by
  rw [Ioo_disjoint_Ioo] at apart
  unfold AEDisjoint
  rw [Icc_inter_Icc, Real.volume_Icc, ENNReal.ofReal_eq_zero]
  linarith [apart]

/-- An interval that shares no inner point with any of a list shares nothing with them. -/
theorem aedisjoint_covered {i : ι} {l : List ι}
    (h : ∀ j ∈ l, Disjoint (Ioo (lo i) (hi i)) (Ioo (lo j) (hi j))) :
    AEDisjoint volume (Icc (lo i) (hi i)) (covered lo hi l) := by
  induction l with
  | nil => simp [covered, AEDisjoint]
  | cons j l ih =>
      rw [covered_cons, AEDisjoint.union_right_iff]
      exact ⟨aedisjoint_of_apart (h j List.mem_cons_self),
        ih fun k hk => h k (List.mem_cons_of_mem _ hk)⟩

/-- The length of an interval clipped against a window. -/
theorem volume_clip (i : ι) (a b : ℝ) :
    (volume (Icc (lo i) (hi i) ∩ Icc a b)).toReal = max (min (hi i) b - max (lo i) a) 0 := by
  rw [Icc_inter_Icc, Real.volume_Icc, ENNReal.toReal_ofReal']

/-- Intervals that share no inner points cover the sum of their clipped lengths. -/
theorem coverage_eq_sum_of_apart {l : List ι}
    (apart : l.Pairwise fun i j => Disjoint (Ioo (lo i) (hi i)) (Ioo (lo j) (hi j))) (a b : ℝ) :
    coverage lo hi l a b = (l.map fun i => max (min (hi i) b - max (lo i) a) 0).sum := by
  induction apart with
  | nil => simp [coverage, covered]
  | @cons i l first rest ih =>
      rw [List.map_cons, List.sum_cons, ← ih, ← volume_clip]
      have hdisjoint : AEDisjoint volume (Icc (lo i) (hi i) ∩ Icc a b)
          (covered lo hi l ∩ Icc a b) :=
        (aedisjoint_covered first).mono inter_subset_left inter_subset_left
      have hmeasurable : MeasurableSet (covered lo hi l ∩ Icc a b) :=
        (measurableSet_covered lo hi l).inter measurableSet_Icc
      have hfinite : ∀ s : Set ℝ, volume (s ∩ Icc a b) ≠ ⊤ := by
        intro s
        apply ne_top_of_le_ne_top _ (measure_mono inter_subset_right)
        rw [Real.volume_Icc]
        exact ENNReal.ofReal_ne_top
      unfold coverage
      rw [covered_cons, union_inter_distrib_right,
        measure_union₀ hmeasurable.nullMeasurableSet hdisjoint,
        ENNReal.toReal_add (hfinite _) (hfinite _)]

/-- Intervals in order cover the sum of their clipped lengths. -/
theorem coverage_eq_sum {l : List ι} (ordered : l.Pairwise fun i j => hi i < lo j) (a b : ℝ) :
    coverage lo hi l a b = (l.map fun i => max (min (hi i) b - max (lo i) a) 0).sum := by
  apply coverage_eq_sum_of_apart
  apply ordered.imp
  intro i j hij
  rw [Ioo_disjoint_Ioo]
  exact (min_le_left _ _).trans (hij.le.trans (le_max_right _ _))

end Lss.Library.Interval
