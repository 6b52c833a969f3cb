import Lss.Library.Buckets

/-!
# Computing with bounded integers

A computation whose intermediate results have to stay between two bounds, and rounding up to a
multiple. A checked computation gives the exact result as long as every step of it fits.
-/

set_option autoImplicit false

namespace Lss.Library.Bounded

/-- An intermediate result left the bounds. -/
structure Overflow where
deriving DecidableEq

/-- A computation that may leave the bounds. -/
abbrev Checked (α : Type) := Except Overflow α

/-- The result of a step, where it fits. -/
def checked (low high v : ℤ) : Checked ℤ :=
  if low ≤ v ∧ v ≤ high then .ok v else .error ⟨⟩

variable {low high : ℤ}

/-- What follows a step only runs when it fits, and then on the exact result. -/
theorem checked_bind_eq_ok {α : Type} {v : ℤ} {f : ℤ → Checked α} {a : α} :
    (checked low high v >>= f) = .ok a ↔ (low ≤ v ∧ v ≤ high) ∧ f v = .ok a := by
  unfold checked
  by_cases h : low ≤ v ∧ v ≤ high
  · rw [if_pos h]
    exact ⟨fun hf => ⟨h, hf⟩, fun hf => hf.2⟩
  · rw [if_neg h]
    constructor
    · intro hf
      cases hf
    · intro hf
      exact absurd hf.1 h

/-! ## Rounding up -/

open Buckets

/-- The least multiple of `res` that is no less than `v`. -/
def roundUp (res v : ℤ) : ℤ := bucket res (v + res - 1)

theorem dvd_roundUp (res v : ℤ) : res ∣ roundUp res v := bucket_dvd _

theorem roundUp_eq (res v : ℤ) : roundUp res v = (v + res - 1) / res * res := by
  have split := Int.mul_ediv_add_emod (v + res - 1) res
  unfold roundUp bucket
  rw [mul_comm] at split
  omega

section Positive

variable {res : ℤ} (hres : 0 < res)
include hres

theorem le_roundUp (v : ℤ) : v ≤ roundUp res v := by
  have h := lt_bucket_add hres (v + res - 1)
  unfold roundUp
  omega

theorem roundUp_lt (v : ℤ) : roundUp res v < v + res := by
  have h := bucket_le hres (v + res - 1)
  unfold roundUp
  omega

theorem roundUp_pos {v : ℤ} (h : 0 < v) : 0 < roundUp res v := h.trans_le (le_roundUp hres v)

end Positive

end Lss.Library.Bounded
