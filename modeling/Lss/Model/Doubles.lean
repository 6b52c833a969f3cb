import Mathlib.Tactic.Linarith
import Lss.Model.HomeRates
import Lss.Model.Prom

/-!
# Doubles

The numbers of a metrics page, with the infinities and the two signs of what is no number. Finite
values are exact: rounding is left out, and what is beyond the largest double is infinite.
-/

set_option autoImplicit false

namespace Lss.Model

inductive Ieee where
  | finite (v : ℚ)
  | infinite (negative : Bool)
  | nan (negative : Bool)
deriving DecidableEq

namespace Ieee

/-- A number as a double holds it. -/
def ofRat (v : ℚ) : Ieee :=
  if (2 : ℚ) ^ 1024 - 2 ^ 970 ≤ |v| then infinite (v < 0) else finite v

def isFinite : Ieee → Bool
  | finite _ => true
  | _ => false

/-- The finite numbers. -/
def value? : Ieee → Option ℚ
  | finite v => some v
  | _ => none

@[simp] theorem isFinite_finite (v : ℚ) : (finite v).isFinite = true := rfl

@[simp] theorem isFinite_infinite (s : Bool) : (infinite s).isFinite = false := rfl

@[simp] theorem isFinite_nan (s : Bool) : (nan s).isFinite = false := rfl

@[simp] theorem value?_finite (v : ℚ) : (finite v).value? = some v := rfl

@[simp] theorem value?_infinite (s : Bool) : (infinite s).value? = none := rfl

@[simp] theorem value?_nan (s : Bool) : (nan s).value? = none := rfl

def neg : Ieee → Ieee
  | finite v => finite (-v)
  | infinite s => infinite !s
  | nan s => nan !s

/-- Whether a number is below zero. -/
def negative : Ieee → Bool
  | finite v => v < 0
  | infinite s => s
  | nan s => s

def add : Ieee → Ieee → Ieee
  | finite a, finite b => ofRat (a + b)
  | infinite s, finite _ => infinite s
  | finite _, infinite s => infinite s
  | infinite s, infinite t => if s = t then infinite s else nan false
  | _, _ => nan false

def mul : Ieee → Ieee → Ieee
  | finite a, finite b => ofRat (a * b)
  | nan _, _ => nan false
  | _, nan _ => nan false
  | a, b =>
    if a = finite 0 ∨ b = finite 0 then nan false else infinite (a.negative != b.negative)

def div : Ieee → Ieee → Ieee
  | finite a, finite b =>
    if b ≠ 0 then ofRat (a / b) else if a = 0 then nan false else infinite (a < 0)
  | finite _, infinite _ => finite 0
  | infinite s, finite b => infinite (s != decide (b < 0))
  | _, _ => nan false

/-- The place of a number among the kinds of numbers: what is no number stands at the ends. -/
def rank : Ieee → ℕ
  | nan true => 0
  | infinite true => 1
  | finite _ => 2
  | infinite false => 3
  | nan false => 4

/-- The total order that sorting uses. -/
def totalLe : Ieee → Ieee → Bool
  | finite a, finite b => a ≤ b
  | a, b => a.rank ≤ b.rank

/-- The order of numbers: what is no number is neither below nor above anything. -/
def le : Ieee → Ieee → Bool
  | nan _, _ => false
  | _, nan _ => false
  | a, b => totalLe a b

/-- Equality of numbers: what is no number is not even itself. -/
def same : Ieee → Ieee → Bool
  | nan _, _ => false
  | a, b => a = b

def text (finiteText : ℚ → String) : Ieee → String
  | finite v => finiteText v
  | infinite s => if s then "-inf" else "inf"
  | nan _ => "NaN"

/-- A double as the language reads it. -/
def parse (t : List Char) : Option Ieee :=
  (parseDouble t).map fun d =>
    match d with
    | .finite v => ofRat v
    | .infinite s => infinite s
    | .notANumber => nan (t.head? = some '-')

instance : Prom.F64Text Ieee where
  add := add
  sub a b := add a b.neg
  mul := mul
  div := div
  lit := ofRat
  ofNat n := ofRat n
  max a b := if le a b then b else match a with
    | nan _ => b
    | a => a
  lt a b := le a b && !same a b
  le := le
  isFinite := isFinite
  totalLe := totalLe
  fixed n := text (fixedDecimals n)
  display := text F64.display
  ofInt n := ofRat n
  nan := nan false
  infinity := infinite false
  negInfinity := infinite true
  parse t := parse t.toList

/-! ## Finite numbers -/

theorem le_finite (a b : ℚ) : (finite a).le (finite b) = decide (a ≤ b) := rfl

theorem lt_finite (a b : ℚ) : F64.lt (finite a) (finite b) = decide (a < b) := by
  have less : a < b ↔ a ≤ b ∧ a ≠ b := lt_iff_le_and_ne
  change (decide (a ≤ b) && !(finite a).same (finite b)) = _
  simp [same, less]

/-- What a double can surely hold it holds. -/
theorem ofRat_of_small {v : ℚ} (small : |v| < 2 ^ 53) : ofRat v = finite v := by
  have bound : (2 : ℚ) ^ 53 ≤ 2 ^ 1024 - 2 ^ 970 := by
    have great : (1 : ℚ) ≤ 2 ^ 970 := one_le_pow₀ (by norm_num)
    have most : (2 : ℚ) ^ 1024 = 2 ^ 970 * 2 ^ 54 := by rw [← pow_add]
    rw [most]
    generalize (2 : ℚ) ^ 970 = p at great
    linarith
  rw [ofRat, if_neg (not_le.mpr (small.trans_le bound))]

theorem add_finite {a b : ℚ} (small : |a + b| < 2 ^ 53) :
    finite a + finite b = finite (a + b) := ofRat_of_small small

/-! ## The total order -/

/-- Numbers are ordered by their kinds, and the finite ones by their values. -/
theorem totalLe_iff (a b : Ieee) :
    a.totalLe b = true ↔
      a.rank < b.rank ∨ a.rank = b.rank ∧ a.value?.getD 0 ≤ b.value?.getD 0 := by
  have kinds : a.rank ≤ b.rank ↔ a.rank < b.rank ∨ a.rank = b.rank := le_iff_lt_or_eq
  cases a with
  | finite v =>
      cases b with
      | finite w => simp [totalLe, rank, value?]
      | infinite s => cases s <;> simp [totalLe, rank]
      | nan s => cases s <;> simp [totalLe, rank]
  | infinite s =>
      cases b with
      | finite w => cases s <;> simp [totalLe, rank]
      | infinite t => simp [totalLe, value?, kinds]
      | nan t => simp [totalLe, value?, kinds]
  | nan s =>
      cases b with
      | finite w => cases s <;> simp [totalLe, rank]
      | infinite t => simp [totalLe, value?, kinds]
      | nan t => simp [totalLe, value?, kinds]

theorem totalLe_total (a b : Ieee) : (a.totalLe b || b.totalLe a) = true := by
  rw [Bool.or_eq_true, totalLe_iff, totalLe_iff]
  rcases lt_trichotomy a.rank b.rank with h | h | h
  · exact Or.inl (Or.inl h)
  · rcases le_total (a.value?.getD 0) (b.value?.getD 0) with hv | hv
    · exact Or.inl (Or.inr ⟨h, hv⟩)
    · exact Or.inr (Or.inr ⟨h.symm, hv⟩)
  · exact Or.inr (Or.inl h)

theorem totalLe_trans (a b c : Ieee) (hab : a.totalLe b = true) (hbc : b.totalLe c = true) :
    a.totalLe c = true := by
  rw [totalLe_iff] at *
  rcases hab with hab | ⟨hab, hv⟩
  · rcases hbc with hbc | ⟨hbc, -⟩
    · exact Or.inl (hab.trans hbc)
    · exact Or.inl (hbc ▸ hab)
  · rcases hbc with hbc | ⟨hbc, hw⟩
    · exact Or.inl (hab ▸ hbc)
    · exact Or.inr ⟨hab.trans hbc, hv.trans hw⟩

theorem rank_le_of_totalLe {a b : Ieee} (h : a.totalLe b = true) : a.rank ≤ b.rank := by
  rcases (totalLe_iff a b).mp h with h | h
  · exact h.le
  · exact h.1.le

end Ieee

end Lss.Model
