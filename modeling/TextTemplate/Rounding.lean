import TextTemplate.Numeral

/-! Rounding of quotients to nearest with ties to even, on any decimal place and to a count of
significant digits. -/
namespace TextTemplate

/-- The natural number nearest to a quotient; of two equally near ones, the even one. -/
def roundHalfEven (numerator denominator : Nat) : Nat :=
  let quotient := numerator / denominator
  let excess := 2 * (numerator % denominator)
  if excess < denominator ∨ excess = denominator ∧ quotient % 2 = 0 then quotient else quotient + 1

theorem div_le_roundHalfEven (a b : Nat) : a / b ≤ roundHalfEven a b := by
  simp only [roundHalfEven]
  split <;> omega

theorem roundHalfEven_le_div_add_one (a b : Nat) : roundHalfEven a b ≤ a / b + 1 := by
  simp only [roundHalfEven]
  split <;> omega

/-- A rational number that is not negative, as a quotient. -/
structure Ratio where
  numerator : Nat
  denominator : Nat
  denominator_pos : 0 < denominator

/-- A decimal significand with the exponent of its first digit. -/
structure Significant where
  digits : Nat
  exponent : Int
deriving DecidableEq, Repr

namespace Ratio

variable {r : Ratio} {n count : Nat} {places : Int}

def ofNat (n : Nat) : Ratio := ⟨n, 1, Nat.one_pos⟩

/-- The number of units of the given decimal place nearest to a quotient, ties to even. -/
def roundedTo (r : Ratio) (places : Int) : Nat :=
  roundHalfEven (r.numerator * 10 ^ places.toNat) (r.denominator * 10 ^ (-places).toNat)

/-- The exponent of the first significant decimal digit of a positive quotient. -/
def decimalExponent (r : Ratio) : Int :=
  if r.denominator ≤ r.numerator then
    Numeral.digitCount 10 (r.numerator / r.denominator) - 1
  else
    -Numeral.digitCount 10 ((r.denominator - 1) / r.numerator)

/-- A quotient rounded to a count of significant digits; the rounding may carry into a further
digit. -/
def significant (r : Ratio) (count : Nat) : Significant :=
  if r.numerator = 0 then ⟨0, 0⟩
  else
    let digits := r.roundedTo (count - 1 - r.decimalExponent)
    if digits = 10 ^ count then ⟨10 ^ (count - 1), r.decimalExponent + 1⟩
    else ⟨digits, r.decimalExponent⟩

end Ratio

end TextTemplate
