import Mathlib.Data.Nat.Notation
import Mathlib.Order.Lattice
import Mathlib.Data.List.Lex
import Mathlib.Data.Char
import Mathlib.Algebra.Group.Nat.Defs

/-!
# Numbers with leading zeros

A number written with at least so many decimal digits. What is written says which number it was,
and as long as the numbers fit into the digits, their texts come in the order of the numbers,
whatever is written behind them.
-/

set_option autoImplicit false

namespace Lss.Library.Numerals

/-- What `%0<width>d` prints of a number. -/
def padded (width n : ℕ) : List Char := List.leftpad width '0' (Nat.toDigits 10 n)

theorem isDigit_padded {width n : ℕ} : ∀ c ∈ padded width n, c.isDigit := by
  intro c hc
  rcases List.mem_append.mp hc with zero | digit
  · rw [List.eq_of_mem_replicate zero]
    rfl
  · exact Nat.isDigit_of_mem_toDigits (by decide) (by decide) digit

theorem ofDigitChars_padded (width n : ℕ) : Nat.ofDigitChars 10 (padded width n) 0 = n := by
  unfold padded List.leftpad
  rw [Nat.ofDigitChars_append, Nat.ofDigitChars_replicate_zero, Nat.mul_zero,
    Nat.ofDigitChars_ten_toDigits]

theorem padded_injective (width : ℕ) : Function.Injective (padded width) := by
  intro m n h
  rw [← ofDigitChars_padded width m, h, ofDigitChars_padded]

theorem length_padded {width n : ℕ} (positive : 0 < width) (fits : n < 10 ^ width) :
    (padded width n).length = width := by
  have short : (Nat.toDigits 10 n).length ≤ width :=
    (Nat.length_toDigits_le_iff (by decide) positive).mpr fits
  unfold padded
  rw [List.length_leftpad]
  omega

/-! ## Numbers as they print -/

theorem toString_nat_injective : Function.Injective (toString : ℕ → String) := by
  intro m n h
  have digits : Nat.toDigits 10 m = Nat.toDigits 10 n := by
    rw [← Nat.toList_repr, ← Nat.toList_repr, ← Nat.toString_eq_repr, h, Nat.toString_eq_repr]
  rw [← @Nat.ofDigitChars_ten_toDigits m, digits, Nat.ofDigitChars_ten_toDigits]

/-- No digit is a sign. -/
theorem isDigit_toString {n : ℕ} : ∀ c ∈ (toString n).toList, c.isDigit := by
  intro c hc
  rw [Nat.toString_eq_repr, Nat.toList_repr] at hc
  exact Nat.isDigit_of_mem_toDigits (by decide) (by decide) hc

theorem toString_int_injective : Function.Injective (toString : ℤ → String) := by
  intro m n h
  have signed : ∀ a b : ℕ, toString (Int.ofNat a) ≠ toString (Int.negSucc b) := by
    intro a b same
    have sign : '-' ∈ (toString a).toList := by
      have same : toString a = "-" ++ toString (b + 1) := same
      rw [same, String.toList_append]
      exact List.mem_append_left _ (by simp)
    exact absurd (isDigit_toString _ sign) (by decide)
  cases m with
  | ofNat a =>
      cases n with
      | ofNat b => exact congrArg Int.ofNat (toString_nat_injective h)
      | negSucc b => exact absurd h (signed a b)
  | negSucc a =>
      cases n with
      | ofNat b => exact absurd h.symm (signed b a)
      | negSucc b =>
          have h : "-" ++ toString (a + 1) = "-" ++ toString (b + 1) := h
          have same := toString_nat_injective ((String.append_right_inj _).mp h)
          rw [Nat.succ_injective same]

/-! ## The order of digits -/

/-- A digit is worth less than ten. -/
theorem digit_lt {c : Char} (h : c.isDigit) : c.toNat - '0'.toNat < 10 := by
  have bounds := Char.isDigit_iff_toNat.mp h
  have nine : '9'.toNat = '0'.toNat + 9 := rfl
  omega

/-- What is ahead stays ahead whatever digits follow. -/
theorem ofDigitChars_lt_of_lt {a b : List Char} (same : a.length = b.length)
    (digits : ∀ c ∈ a, c.isDigit) {x y : ℕ} (h : x < y) :
    Nat.ofDigitChars 10 a x < Nat.ofDigitChars 10 b y := by
  induction a generalizing b x y with
  | nil =>
      rw [List.length_nil, eq_comm, List.length_eq_zero_iff] at same
      rw [same]
      exact h
  | cons c a ih =>
      cases b with
      | nil => cases same
      | cons d b =>
          rw [Nat.ofDigitChars_cons, Nat.ofDigitChars_cons]
          have small := digit_lt (digits c List.mem_cons_self)
          refine ih (Nat.succ.inj same) (fun e he => digits e (List.mem_cons_of_mem c he)) ?_
          omega

/-- Of two texts of digits of one length, the one that comes first is worth less. -/
theorem ofDigitChars_lt {a b : List Char} (same : a.length = b.length)
    (digitsA : ∀ c ∈ a, c.isDigit) (digitsB : ∀ c ∈ b, c.isDigit) (h : a < b) (x : ℕ) :
    Nat.ofDigitChars 10 a x < Nat.ofDigitChars 10 b x := by
  induction a generalizing b x with
  | nil =>
      cases b with
      | nil => exact absurd h (List.lt_irrefl _)
      | cons d b => cases same
  | cons c a ih =>
      cases b with
      | nil => cases same
      | cons d b =>
          rw [Nat.ofDigitChars_cons, Nat.ofDigitChars_cons]
          have restA : ∀ e ∈ a, e.isDigit := fun e he => digitsA e (List.mem_cons_of_mem c he)
          have restB : ∀ e ∈ b, e.isDigit := fun e he => digitsB e (List.mem_cons_of_mem d he)
          rcases List.cons_lt_cons_iff.mp h with less | ⟨rfl, later⟩
          · have low := Char.isDigit_iff_toNat.mp (digitsA c List.mem_cons_self)
            have less : c.toNat < d.toNat := less
            refine ofDigitChars_lt_of_lt (Nat.succ.inj same) restA ?_
            omega
          · exact ih (Nat.succ.inj same) restA restB later _

/-- What differs within its length decides before anything behind it. -/
theorem append_lt_append {a b : List Char} (same : a.length = b.length) (h : a < b)
    (x y : List Char) : a ++ x < b ++ y := by
  induction a generalizing b with
  | nil =>
      cases b with
      | nil => exact absurd h (List.lt_irrefl _)
      | cons d b => cases same
  | cons c a ih =>
      cases b with
      | nil => cases same
      | cons d b =>
          rw [List.cons_append, List.cons_append, List.cons_lt_cons_iff]
          rcases List.cons_lt_cons_iff.mp h with less | ⟨rfl, later⟩
          · exact .inl less
          · exact .inr ⟨rfl, ih (Nat.succ.inj same) later⟩

/-- Numbers that fit into the digits are listed in their own order. -/
theorem padded_append_lt {width m n : ℕ} (positive : 0 < width) (fits : n < 10 ^ width)
    (h : m < n) (x y : List Char) : padded width m ++ x < padded width n ++ y := by
  have same : (padded width m).length = (padded width n).length := by
    rw [length_padded positive fits, length_padded positive (h.trans fits)]
  refine append_lt_append same ?_ x y
  rcases lt_trichotomy (padded width m) (padded width n) with less | equal | greater
  · exact less
  · have : m = n := padded_injective width equal
    omega
  · have worth := ofDigitChars_lt same.symm isDigit_padded isDigit_padded greater 0
    rw [ofDigitChars_padded, ofDigitChars_padded] at worth
    omega

end Lss.Library.Numerals
