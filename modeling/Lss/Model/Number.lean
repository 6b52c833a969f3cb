import Mathlib.Data.Rat.Floor

/-!
# The numbers of the rule engine

The rule engine computes with doubles. What it relies on is listed in a class that carries
no laws: every result about the engine therefore holds for doubles, with their rounding,
infinities and not-a-number, as well as for the exact rationals the examples use.
-/

set_option autoImplicit false

namespace Lss.Model

/-- What the rule engine does with a floating-point number. No law is assumed of it. -/
class F64 (F : Type) extends Add F, Sub F, Mul F, Div F where
  /-- the number nearest to a literal of the source -/
  lit : ℚ → F
  /-- an unsigned integer as a floating-point number -/
  ofNat : ℕ → F
  max : F → F → F
  lt : F → F → Bool
  le : F → F → Bool
  isFinite : F → Bool
  /-- the total order the source sorts by -/
  totalLe : F → F → Bool
  /-- the text with a fixed number of decimals -/
  fixed : ℕ → F → String
  /-- the shortest text that reads back as the number -/
  display : F → String

/-- Rounds to the nearest whole number, a half to the even one. -/
def roundHalfEven (q : ℚ) : ℤ :=
  let down := ⌊q⌋
  if q - down < 1 / 2 then down
  else if 1 / 2 < q - down then down + 1
  else if down % 2 = 0 then down else down + 1

/-- A rational number with a fixed number of decimals. -/
def fixedDecimals (decimals : ℕ) (q : ℚ) : String :=
  let scaled := roundHalfEven (q * 10 ^ decimals)
  let digits := toString scaled.natAbs
  let padded := String.ofList (List.replicate (decimals + 1 - digits.length) '0') ++ digits
  let sign := if scaled < 0 then "-" else ""
  if decimals = 0 then sign ++ padded
  else
    let whole := padded.toList.take (padded.length - decimals)
    let fraction := padded.toList.drop (padded.length - decimals)
    sign ++ String.ofList whole ++ "." ++ String.ofList fraction

/-- Exact arithmetic in the place of doubles. -/
instance : F64 ℚ where
  lit := id
  ofNat n := n
  max := Max.max
  lt a b := decide (a < b)
  le a b := decide (a ≤ b)
  isFinite _ := true
  totalLe a b := decide (a ≤ b)
  fixed := fixedDecimals
  display q := if q.den = 1 then toString q.num else fixedDecimals 6 q

end Lss.Model
