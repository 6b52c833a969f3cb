import Mathlib.Tactic.Linarith
import Mathlib.Tactic.Ring

/-!
# Digital lines

A line that goes `rise` up over `run` to the right, drawn on a grid: in each column the row that is
nearest to it. Along a line that is not steeper than the diagonal the row goes up by at most one
from a column to the next.
-/

set_option autoImplicit false

namespace Lss.Library.DigitalLine

/-- The row nearest to the line, a half rounded up. -/
def nearest (run rise k : ℕ) : ℕ := (2 * rise * k + run) / (2 * run)

variable {run rise k : ℕ}

/-- The nearest row is the one within half a row of the line. -/
theorem nearest_spec (rise k : ℕ) (hrun : 0 < run) :
    2 * run * nearest run rise k ≤ 2 * rise * k + run ∧
      2 * rise * k + run < 2 * run * (nearest run rise k + 1) := by
  constructor
  · exact Nat.mul_div_le _ _
  · exact Nat.lt_mul_div_succ _ (by omega)

/-- A line goes as far up as is asked once it has come so near. -/
theorem le_nearest_iff (hrun : 0 < run) {j : ℕ} :
    j ≤ nearest run rise k ↔ 2 * run * j ≤ 2 * rise * k + run := by
  rw [nearest, Nat.le_div_iff_mul_le (by omega), Nat.mul_comm]

@[simp] theorem nearest_zero : nearest run rise 0 = 0 := by
  rcases Nat.eq_zero_or_pos run with rfl | hrun
  · simp [nearest]
  · rw [nearest, Nat.mul_zero, Nat.zero_add]
    exact Nat.div_eq_of_lt (by omega)

/-- The diagonal goes one up for each column. -/
theorem nearest_diagonal (hrun : 0 < run) : nearest run run k = k := by
  have h := Nat.add_mul_div_left run k (show 0 < 2 * run by omega)
  rw [nearest, Nat.add_comm, h, Nat.div_eq_of_lt (by omega), Nat.zero_add]

/-- At its end a line has gone all the way up. -/
theorem nearest_end (hrise : rise ≤ run) : nearest run rise run = rise := by
  rcases Nat.eq_zero_or_pos run with rfl | hrun
  · simp only [nearest_zero]
    omega
  · have h := Nat.add_mul_div_left run rise (show 0 < 2 * run by omega)
    rw [nearest, Nat.add_comm, show 2 * rise * run = 2 * run * rise by ring, h,
      Nat.div_eq_of_lt (by omega), Nat.zero_add]

/-- From a column to the next a line goes up by one or not at all. -/
theorem nearest_succ (hrise : rise ≤ run) :
    nearest run rise (k + 1) = nearest run rise k ∨
      nearest run rise (k + 1) = nearest run rise k + 1 := by
  rcases Nat.eq_zero_or_pos run with rfl | hrun
  · exact Or.inl (by simp [nearest])
  · obtain ⟨low, high⟩ := nearest_spec rise k hrun
    have kept : nearest run rise k ≤ nearest run rise (k + 1) := by
      rw [le_nearest_iff hrun]
      nlinarith
    have below : nearest run rise (k + 1) < nearest run rise k + 2 := by
      by_contra far
      have reached := (le_nearest_iff hrun).mp (not_lt.mp far)
      nlinarith
    omega

/-! ## How far a line is off -/

/-- How far off a line the next place is, diagonally, in parts of the longer side. -/
def off (across down k : ℕ) : ℤ :=
  across * (nearest (max across down) down k + 1) - down * (nearest (max across down) across k + 1)

variable {across down : ℕ}

theorem off_zero : off across down 0 = across - down := by
  simp [off]

/-- How far off the next place is changes with the coordinates that go on. -/
theorem off_succ (across down k : ℕ) :
    off across down (k + 1) =
      off across down k +
        (if nearest (max across down) across (k + 1) = nearest (max across down) across k + 1
          then -(down : ℤ) else 0) +
        (if nearest (max across down) down (k + 1) = nearest (max across down) down k + 1
          then (across : ℤ) else 0) := by
  unfold off
  rcases nearest_succ (k := k) (le_max_left across down) with hcol | hcol <;>
    rcases nearest_succ (k := k) (le_max_right across down) with hrow | hrow <;>
    rw [hcol, hrow] <;> simp <;> ring

/-- The column goes on as long as the line is not too far off to the one side. -/
theorem column_moves_iff (h : 0 < max across down) :
    -(down : ℤ) ≤ 2 * off across down k ↔
      nearest (max across down) across (k + 1) = nearest (max across down) across k + 1 := by
  unfold off
  rcases le_total down across with flat | steep
  · -- the column goes on in every step
    rw [max_eq_left flat] at h ⊢
    rw [nearest_diagonal h, nearest_diagonal h]
    have high := (nearest_spec down k h).2
    zify at high flat
    constructor
    · intro _
      rfl
    · intro _
      nlinarith
  · rw [max_eq_right steep] at h ⊢
    rw [nearest_diagonal h]
    have reached : nearest down across k + 1 ≤ nearest down across (k + 1) ↔ _ :=
      le_nearest_iff h
    have moves := nearest_succ (k := k) steep
    rw [show nearest down across (k + 1) = nearest down across k + 1 ↔
      nearest down across k + 1 ≤ nearest down across (k + 1) by omega, reached]
    zify
    constructor <;> intro _ <;> nlinarith

/-- The row goes on as long as the line is not too far off to the other side. -/
theorem row_moves_iff (h : 0 < max across down) :
    2 * off across down k ≤ across ↔
      nearest (max across down) down (k + 1) = nearest (max across down) down k + 1 := by
  unfold off
  rcases le_total down across with flat | steep
  · rw [max_eq_left flat] at h ⊢
    rw [nearest_diagonal h]
    have reached : nearest across down k + 1 ≤ nearest across down (k + 1) ↔ _ :=
      le_nearest_iff h
    have moves := nearest_succ (k := k) flat
    rw [show nearest across down (k + 1) = nearest across down k + 1 ↔
      nearest across down k + 1 ≤ nearest across down (k + 1) by omega, reached]
    zify
    constructor <;> intro _ <;> nlinarith
  · rw [max_eq_right steep] at h ⊢
    rw [nearest_diagonal h, nearest_diagonal h]
    have high := (nearest_spec across k h).2
    zify at high steep
    constructor
    · intro _
      rfl
    · intro _
      nlinarith

/-- How far off a line can be. -/
theorem abs_two_mul_off_le (h : 0 < max across down) :
    |2 * off across down k| ≤ 3 * max across down - 2 * min across down := by
  unfold off
  rcases le_total down across with flat | steep
  · rw [max_eq_left flat, min_eq_right flat] at *
    rw [nearest_diagonal h, abs_le]
    obtain ⟨low, high⟩ := nearest_spec down k h
    zify at low high flat
    constructor <;> nlinarith
  · rw [max_eq_right steep, min_eq_left steep] at *
    rw [nearest_diagonal h, abs_le]
    obtain ⟨low, high⟩ := nearest_spec across k h
    zify at low high steep
    constructor <;> nlinarith

end Lss.Library.DigitalLine
