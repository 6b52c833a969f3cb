import Lss.Analysis.RollupRows
import Lss.Model.History

/-!
# The rows of the samples

What the rollup holds of a bucket does not depend on how the samples were fed: these are the
values of a name in one bucket, read off the samples alone, and the row they make.
-/

set_option autoImplicit false

namespace Lss.Analysis.SampleRows

open Lss.Library.Buckets Lss.Model Lss.Analysis.RollupRows

/-- The values of a name in one bucket of some samples, the one before the first being
`prev`. -/
def samplesHeld (res b : ℤ) (name : String) : Option Sample → List Sample → List ℚ
  | _, [] => []
  | prev, s :: samples =>
    (if bucket res s.ts = b then values name (samplePoints prev s) else []) ++
      samplesHeld res b name (some s) samples

/-- How the samples are fed does not matter for what they hold. -/
theorem held_withPoints (res b : ℤ) (name : String) (prev : Option Sample) (fs : List Feed) :
    held res b name (withPoints prev fs) = samplesHeld res b name prev (fs.map Feed.sample) := by
  induction fs generalizing prev with
  | nil => rfl
  | cons f fs ih =>
      have hcons : withPoints prev (f :: fs) =
          [(f, samplePoints prev f.sample)] ++ withPoints (some f.sample) fs := rfl
      rw [hcons, held_append, held_singleton, ih]
      rfl

theorem samplesHeld_append (res b : ℤ) (name : String) (prev : Option Sample)
    (xs ys : List Sample) :
    samplesHeld res b name prev (xs ++ ys) = samplesHeld res b name prev xs ++
      samplesHeld res b name (xs.getLast?.or prev) ys := by
  induction xs generalizing prev with
  | nil => rfl
  | cons x xs ih =>
      rw [List.cons_append, samplesHeld, samplesHeld, ih, List.append_assoc, List.getLast?_cons]
      cases xs.getLast? <;> rfl

theorem samplesHeld_eq_nil {res b : ℤ} {name : String} {prev : Option Sample}
    {samples : List Sample} (h : ∀ s ∈ samples, bucket res s.ts ≠ b) :
    samplesHeld res b name prev samples = [] := by
  induction samples generalizing prev with
  | nil => rfl
  | cons s samples ih =>
      rw [samplesHeld, if_neg (h s (by simp)), ih fun x hx => h x (by simp [hx])]
      rfl

theorem values_samplePoints (name : String) (prev : Option Sample) (s : Sample) :
    values name (samplePoints prev s) = values name (headPoints s) ++
      (values name (prev.elim [] fun p => stepPoints p s) ++ values name (tailPoints s)) := by
  unfold samplePoints
  rw [values_append, values_append, List.append_assoc]

/-- The row of a bucket that is made of some values. -/
def rowOf (vs : List ℚ) : Option RollupRow := (aggOf vs).map Agg.row

theorem rowOf_agg (vs : List ℚ) : (rowOf vs).map RollupRow.agg = aggOf vs := by
  unfold rowOf
  cases h : aggOf vs with
  | none => rfl
  | some a =>
      rw [Option.map_some, Option.map_some, agg_row (one_le_n h)]

theorem closed_withPoints {res b : ℤ} {prev : Option Sample} {fs : List Feed} :
    Closed time res b (withPoints prev fs) ↔ Closed Sample.ts res b (fs.map Feed.sample) := by
  induction fs generalizing prev with
  | nil => simp [Closed, withPoints]
  | cons f fs ih =>
      unfold Closed at ih ⊢
      rw [withPoints, List.map_cons, List.exists_mem_cons_iff, List.exists_mem_cons_iff, ih]
      rfl

theorem inOrder_of_increasing {fs : List Feed} (h : Increasing (fs.map Feed.sample)) :
    InOrder fs := by
  unfold Increasing at h
  rw [List.pairwise_map] at h
  exact h.imp fun hlt => hlt.le

theorem pos_of_mem {res : ℤ} (h : res ∈ [res1m, res10m]) : 0 < res := by
  rcases List.mem_pair.1 h with rfl | rfl <;> decide

/-- The row of a bucket after some samples in order of time, fed into an empty pipeline: nothing
before the bucket is closed, then what is made of the values of its samples. -/
theorem row_eq {fs : List Feed} (increasing : Increasing (fs.map Feed.sample)) {res : ℤ}
    (hres : res ∈ [res1m, res10m]) {name : String} (hname : name ∉ latencyNames) (b : ℤ) :
    (({} : Pipeline).pushAll {} fs).2.rollup res name b =
      if Closed Sample.ts res b (fs.map Feed.sample) then
        rowOf (samplesHeld res b name none (fs.map Feed.sample))
      else none := by
  rw [(pushAll_rows {} fs (inOrder_of_increasing increasing)).2 res hres name hname b,
    ← held_withPoints]
  unfold rowAfter
  cases hc : closer time res b (withPoints none fs) with
  | some x =>
      have closed : Closed Sample.ts res b (fs.map Feed.sample) := by
        rw [← closed_withPoints, closed_iff_closer, hc]
        rfl
      rw [if_pos closed]
      show combine x.1.replace (rowOf _) none = rowOf _
      unfold combine
      cases x.1.replace <;> simp
  | none =>
      have isOpen : ¬Closed Sample.ts res b (fs.map Feed.sample) := by
        rw [← closed_withPoints, closed_iff_closer, hc]
        exact Bool.false_ne_true
      rw [if_neg isOpen]

end Lss.Analysis.SampleRows
