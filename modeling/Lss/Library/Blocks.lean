import Mathlib.Algebra.Order.Ring.Int
import Mathlib.Order.Monotone.Basic

/-!
# Blocks of the integer line

The integers are cut into consecutive blocks, not all of one length: the seconds into local
days, the days into months. A block is named by its number; it starts somewhere, and every
integer lies in exactly one. The facts here say which blocks start inside a window.
-/

set_option autoImplicit false

namespace Lss.Library

/-- Consecutive blocks of integers: where each starts, and which one an integer lies in. -/
structure Blocks where
  start : ℤ → ℤ
  index : ℤ → ℤ
  start_le_iff : ∀ i x, start i ≤ x ↔ i ≤ index x
  index_start : ∀ i, index (start i) = i

namespace Blocks

/-- Blocks from their starts, and from an index whose block is seen to hold each integer. -/
def ofBrackets (start index : ℤ → ℤ) (hmono : ∀ i, start i < start (i + 1))
    (hindex : ∀ x, start (index x) ≤ x ∧ x < start (index x + 1)) : Blocks where
  start := start
  index := index
  start_le_iff i x := by
    have hstrict : StrictMono start := by
      apply strictMono_int_of_lt_succ
      exact hmono
    obtain ⟨hle, hlt⟩ := hindex x
    constructor
    · intro h
      have hi : i < index x + 1 := hstrict.lt_iff_lt.1 (lt_of_le_of_lt h hlt)
      omega
    · intro h
      exact (hstrict.monotone h).trans hle
  index_start i := by
    have hstrict : StrictMono start := by
      apply strictMono_int_of_lt_succ
      exact hmono
    obtain ⟨hle, hlt⟩ := hindex (start i)
    have hlower : index (start i) ≤ i := hstrict.le_iff_le.1 hle
    have hupper : i < index (start i) + 1 := hstrict.lt_iff_lt.1 hlt
    omega

variable (b : Blocks)

theorem lt_start_iff (i x : ℤ) : x < b.start i ↔ b.index x < i := by
  rw [← not_le, b.start_le_iff, not_le]

theorem start_index_le (x : ℤ) : b.start (b.index x) ≤ x := by
  rw [b.start_le_iff]

@[simp] theorem start_le_start (i j : ℤ) : b.start i ≤ b.start j ↔ i ≤ j := by
  rw [b.start_le_iff, b.index_start]

@[simp] theorem start_lt_start (i j : ℤ) : b.start i < b.start j ↔ i < j := by
  rw [b.lt_start_iff, b.index_start]

theorem index_mono {x y : ℤ} (h : x ≤ y) : b.index x ≤ b.index y := by
  rw [← b.start_le_iff]
  exact (b.start_index_le x).trans h

/-- Among the blocks up to `top`, those that start at or after `s` are the blocks from `i` on
exactly when `s` lies after the start of the block before `i` and not after the start of `i`. -/
theorem starts_from_iff (s : ℤ) {i top : ℤ} (htop : i ≤ top) :
    (∀ k ≤ top, s ≤ b.start k ↔ i ≤ k) ↔ b.start (i - 1) < s ∧ s ≤ b.start i := by
  constructor
  · intro h
    constructor
    · have hbefore := h (i - 1) (by omega)
      have hnot : ¬ s ≤ b.start (i - 1) := by
        rw [hbefore]
        omega
      exact not_le.1 hnot
    · exact (h i htop).2 le_rfl
  · rintro ⟨hbefore, hat⟩ k _
    constructor
    · intro hk
      have hlt : b.start (i - 1) < b.start k := lt_of_lt_of_le hbefore hk
      rw [b.start_lt_start] at hlt
      omega
    · intro hk
      exact hat.trans ((b.start_le_start i k).2 hk)

end Blocks

end Lss.Library
