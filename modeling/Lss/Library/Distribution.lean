import Mathlib.Algebra.Order.BigOperators.Group.List
import Mathlib.Algebra.Order.Field.Basic
import Mathlib.Order.MinMax
import Mathlib.Tactic.Linarith

/-!
# Distributions in buckets

Observations counted in buckets that follow each other, taken to be spread evenly inside each
bucket. How many are at or below a value rises with the value, the value of a rank rises with the
rank, and at least the rank is at or below its value.
-/

set_option autoImplicit false

namespace Lss.Library.Distribution

variable {K : Type*} [Field K] [LinearOrder K]

/-- A number cut to what lies between nothing and everything. -/
def clamp (x : K) : K := min (max x 0) 1

theorem clamp_le_one (x : K) : clamp x ≤ 1 := min_le_right _ _

theorem clamp_mono {x y : K} (h : x ≤ y) : clamp x ≤ clamp y :=
  min_le_min_right _ (max_le_max_right _ h)

theorem le_clamp {x : K} (h : x ≤ 1) : x ≤ clamp x := le_min (le_max_left _ _) h

theorem clamp_of_mem {x : K} (h₀ : 0 ≤ x) (h₁ : x ≤ 1) : clamp x = x := by
  unfold clamp
  rw [max_eq_left h₀, min_eq_left h₁]

/-- Observations between two bounds. -/
structure Bucket (K : Type*) where
  lo : K
  hi : K
  count : K

/-- The value at some share of a bucket. -/
def Bucket.at (b : Bucket K) (share : K) : K := b.lo + (b.hi - b.lo) * clamp share

/-- The share of a bucket that is at or below a value. -/
def Bucket.share (b : Bucket K) (x : K) : K :=
  if b.hi ≤ x then 1 else if b.lo < x then (x - b.lo) / (b.hi - b.lo) else 0

/-- Buckets that follow each other up to some value. -/
inductive Ascending (top : K) : K → List (Bucket K) → Prop where
  | nil {lo : K} : lo ≤ top → Ascending top lo []
  | cons {b : Bucket K} {bs : List (Bucket K)} : b.lo ≤ b.hi → 0 ≤ b.count →
      Ascending top b.hi bs → Ascending top b.lo (b :: bs)

/-- How many observations there are at or below a value. -/
def countBelow (bs : List (Bucket K)) (x : K) : K := (bs.map fun b => b.count * b.share x).sum

/-- The value of a rank, when some are seen before the first bucket; a rank that is in none of
them has the highest value. -/
def valueAt (top rank : K) : K → List (Bucket K) → K
  | _, [] => top
  | seen, b :: bs =>
    if 0 < b.count ∧ rank ≤ seen + b.count then b.at ((rank - seen) / b.count)
    else valueAt top rank (seen + b.count) bs

theorem Bucket.share_of_hi_le {b : Bucket K} {x : K} (h : b.hi ≤ x) : b.share x = 1 := if_pos h

theorem Bucket.share_of_le_lo {b : Bucket K} {x : K} (outside : x ≤ b.lo) (short : x < b.hi) :
    b.share x = 0 := by
  unfold Bucket.share
  rw [if_neg (not_le.mpr short), if_neg (not_lt.mpr outside)]

theorem Ascending.le_top {top lo : K} {bs : List (Bucket K)} (h : Ascending top lo bs) : lo ≤ top := by
  induction h with
  | nil le => exact le
  | cons le _ _ ih => exact le.trans ih

theorem Ascending.rest {top lo : K} {b : Bucket K} {bs : List (Bucket K)}
    (h : Ascending top lo (b :: bs)) : Ascending top b.hi bs := by
  cases h with
  | cons _ _ rest => exact rest

theorem countBelow_cons (b : Bucket K) (bs : List (Bucket K)) (x : K) :
    countBelow (b :: bs) x = b.count * b.share x + countBelow bs x := List.sum_cons

variable [IsStrictOrderedRing K]

/-! ## One bucket -/

theorem clamp_nonneg (x : K) : 0 ≤ clamp x := le_min (le_max_right _ _) zero_le_one

section Bucket

variable {b : Bucket K}

theorem Bucket.share_nonneg (h : b.lo ≤ b.hi) (x : K) : 0 ≤ b.share x := by
  unfold Bucket.share
  split
  · exact zero_le_one
  · split
    · rename_i inside
      exact div_nonneg (sub_nonneg.mpr inside.le) (sub_nonneg.mpr h)
    · exact le_refl _

theorem Bucket.share_le_one (x : K) : b.share x ≤ 1 := by
  unfold Bucket.share
  split
  · exact le_refl _
  · rename_i short
    split
    · have width : 0 < b.hi - b.lo := by linarith
      rw [div_le_one width]
      linarith
    · exact zero_le_one

theorem Bucket.share_mono (h : b.lo ≤ b.hi) {x y : K} (le : x ≤ y) : b.share x ≤ b.share y := by
  by_cases full : b.hi ≤ y
  · rw [Bucket.share_of_hi_le full]
    exact Bucket.share_le_one x
  · have short : ¬b.hi ≤ x := fun h => full (h.trans le)
    have wide : 0 ≤ b.hi - b.lo := sub_nonneg.mpr h
    unfold Bucket.share
    rw [if_neg full, if_neg short]
    split
    · rename_i inside
      rw [if_pos (inside.trans_le le)]
      exact div_le_div_of_nonneg_right (by linarith) wide
    · split
      · exact div_nonneg (by linarith) wide
      · exact le_refl _

theorem Bucket.lo_le_at (h : b.lo ≤ b.hi) (share : K) : b.lo ≤ b.at share :=
  le_add_of_nonneg_right (mul_nonneg (sub_nonneg.mpr h) (clamp_nonneg share))

theorem Bucket.at_le_hi (h : b.lo ≤ b.hi) (share : K) : b.at share ≤ b.hi := by
  have part := mul_le_of_le_one_right (sub_nonneg.mpr h) (clamp_le_one share)
  unfold Bucket.at
  linarith

theorem Bucket.at_mono (h : b.lo ≤ b.hi) {s t : K} (le : s ≤ t) : b.at s ≤ b.at t :=
  add_le_add_right (mul_le_mul_of_nonneg_left (clamp_mono le) (sub_nonneg.mpr h)) _

/-- At least a share of the bucket is at or below the value at the share. -/
theorem Bucket.clamp_le_share_at (h : b.lo ≤ b.hi) (s : K) : clamp s ≤ b.share (b.at s) := by
  unfold Bucket.share
  split
  · exact clamp_le_one s
  · rename_i short
    have width : 0 < b.hi - b.lo := by
      have := Bucket.lo_le_at h s
      linarith
    split
    · rw [le_div_iff₀ width]
      unfold Bucket.at
      linarith
    · rename_i outside
      have none : (b.hi - b.lo) * clamp s ≤ 0 := by
        unfold Bucket.at at outside
        linarith
      by_contra positive
      exact absurd (mul_pos width (not_le.mp positive)) (not_lt.mpr none)

end Bucket

/-! ## All of them -/

variable {top lo : K} {bs : List (Bucket K)}

theorem Ascending.countBelow_mono (h : Ascending top lo bs) {x y : K} (le : x ≤ y) :
    countBelow bs x ≤ countBelow bs y := by
  induction h with
  | nil _ => exact le_refl _
  | cons order counted _ ih =>
      rw [countBelow_cons, countBelow_cons]
      exact add_le_add (mul_le_mul_of_nonneg_left (Bucket.share_mono order le) counted) ih

theorem Ascending.countBelow_nonneg (h : Ascending top lo bs) (x : K) : 0 ≤ countBelow bs x := by
  induction h with
  | nil _ => exact le_refl _
  | cons order counted _ ih =>
      rw [countBelow_cons]
      exact add_nonneg (mul_nonneg counted (Bucket.share_nonneg order x)) ih

omit [IsStrictOrderedRing K] in
/-- Nothing of buckets that begin above a value is at or below it. -/
theorem Ascending.countBelow_of_lt (h : Ascending top lo bs) {x : K} (lt : x < lo) : countBelow bs x = 0 := by
  induction h with
  | nil _ => rfl
  | cons order _ _ ih =>
      rw [countBelow_cons, Bucket.share_of_le_lo lt.le (lt.trans_le order),
        ih (lt.trans_le order), mul_zero, add_zero]

/-- The value of a rank is in one of the buckets, or the highest. -/
theorem Ascending.valueAt_mem (h : Ascending top lo bs) (rank seen : K) :
    lo ≤ valueAt top rank seen bs ∧ valueAt top rank seen bs ≤ top := by
  induction h generalizing seen with
  | nil le => exact ⟨le, le_refl _⟩
  | cons order _ rest ih =>
      unfold valueAt
      split
      · exact ⟨Bucket.lo_le_at order _, (Bucket.at_le_hi order _).trans rest.le_top⟩
      · exact ⟨order.trans (ih _).1, (ih _).2⟩

theorem Ascending.valueAt_mono (h : Ascending top lo bs) {rank rank' : K} (le : rank ≤ rank')
    (seen : K) : valueAt top rank seen bs ≤ valueAt top rank' seen bs := by
  induction h generalizing seen with
  | nil _ => exact le_refl _
  | cons order counted rest ih =>
      unfold valueAt
      split
      · rename_i found
        split
        · exact Bucket.at_mono order (div_le_div_of_nonneg_right (by linarith) counted)
        · exact (Bucket.at_le_hi order _).trans (rest.valueAt_mem _ _).1
      · rename_i later
        rw [if_neg fun found => later ⟨found.1, le.trans found.2⟩]
        exact ih _

/-- At least a rank of the observations is at or below its value, where the buckets hold it. -/
theorem Ascending.rank_le_countBelow (h : Ascending top lo bs) (rank seen : K)
    (held : rank ≤ seen + (bs.map Bucket.count).sum) :
    rank ≤ seen + countBelow bs (valueAt top rank seen bs) := by
  induction h generalizing seen with
  | nil _ => exact held
  | @cons b bs order counted rest ih =>
      rw [List.map_cons, List.sum_cons, ← add_assoc] at held
      unfold valueAt
      rw [countBelow_cons]
      split
      · rename_i found
        have share := Bucket.clamp_le_share_at order ((rank - seen) / b.count)
        have inside : (rank - seen) / b.count ≤ 1 := by
          rw [div_le_one found.1]
          linarith
        have reached := mul_le_mul_of_nonneg_left ((le_clamp inside).trans share) counted
        rw [mul_div_cancel₀ _ found.1.ne'] at reached
        have more := rest.countBelow_nonneg (b.at ((rank - seen) / b.count))
        linarith
      · have passed := rest.valueAt_mem rank (seen + b.count)
        rw [Bucket.share_of_hi_le passed.1, mul_one, ← add_assoc]
        exact ih _ held

end Lss.Library.Distribution
