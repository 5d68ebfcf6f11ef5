import TextTemplate.BinaryFloat

/-! The floating-point number nearest to a rational number, ties to the even significand. -/
namespace TextTemplate.Magnitude

variable {f : FloatFormat} {r : Ratio}

/-- How many units of the smallest numbers a quotient holds. -/
def units (f : FloatFormat) (r : Ratio) : Nat := r.numerator * 2 ^ f.scale / r.denominator

/-- The shift that leaves a significand of full length, or none where the units are few. -/
def nearestShift (f : FloatFormat) (r : Ratio) : Nat := (units f r).log2 - f.fractionBits

/-- The nearest significand at that shift; it may reach the next power of two. -/
def nearestSignificand (f : FloatFormat) (r : Ratio) : Nat :=
  roundHalfEven (r.numerator * 2 ^ f.scale) (r.denominator * 2 ^ nearestShift f r)

theorem units_div_shift : units f r / 2 ^ nearestShift f r =
    r.numerator * 2 ^ f.scale / (r.denominator * 2 ^ nearestShift f r) :=
  Nat.div_div_eq_div_mul _ _ _

theorem nearestSignificand_le : nearestSignificand f r ≤ 2 ^ f.digits := by
  have hlog : units f r < 2 ^ ((units f r).log2 + 1) := Nat.lt_log2_self
  have hexp : (units f r).log2 + 1 ≤ nearestShift f r + f.digits := by
    simp only [nearestShift, FloatFormat.digits]
    omega
  have hpow : 2 ^ ((units f r).log2 + 1) ≤ 2 ^ nearestShift f r * 2 ^ f.digits := by
    rw [← Nat.pow_add]
    exact Nat.pow_le_pow_right (by decide) hexp
  have hdiv : units f r / 2 ^ nearestShift f r < 2 ^ f.digits :=
    Nat.div_lt_of_lt_mul (Nat.lt_of_lt_of_le hlog hpow)
  have hround := roundHalfEven_le_div_add_one (r.numerator * 2 ^ f.scale)
    (r.denominator * 2 ^ nearestShift f r)
  rw [← units_div_shift] at hround
  exact Nat.le_trans hround hdiv

/-- A shift is only needed for units that exceed a significand of full length. -/
theorem two_pow_le_units (h : nearestShift f r ≠ 0) :
    2 ^ (f.fractionBits + nearestShift f r) ≤ units f r := by
  have hsum : f.fractionBits + nearestShift f r = (units f r).log2 := by
    simp only [nearestShift] at h ⊢
    omega
  have hne : units f r ≠ 0 := by
    intro hzero
    simp [nearestShift, hzero] at h
  exact hsum ▸ Nat.log2_self_le hne

theorem nearestShift_eq_zero_or_le :
    nearestShift f r = 0 ∨ 2 ^ f.fractionBits ≤ nearestSignificand f r := by
  by_cases h : nearestShift f r = 0
  · exact .inl h
  · right
    have hdiv : 2 ^ f.fractionBits ≤ units f r / 2 ^ nearestShift f r := by
      rw [Nat.le_div_iff_mul_le (Nat.two_pow_pos _), ← Nat.pow_add]
      exact two_pow_le_units h
    rw [units_div_shift] at hdiv
    exact Nat.le_trans hdiv (div_le_roundHalfEven _ _)

/-- The absolute value nearest to a quotient, if it is not beyond the largest one. -/
def nearest? (f : FloatFormat) (r : Ratio) : Option (Magnitude f) :=
  if hcarry : nearestSignificand f r = 2 ^ f.digits then
    if hshift : nearestShift f r + 1 ≤ f.maxShift then
      some ⟨2 ^ f.fractionBits, nearestShift f r + 1,
        Nat.pow_lt_pow_right (by decide) (Nat.lt_succ_self _), hshift, .inr (Nat.le_refl _)⟩
    else none
  else if hshift : nearestShift f r ≤ f.maxShift then
    some ⟨nearestSignificand f r, nearestShift f r,
      Nat.lt_of_le_of_ne nearestSignificand_le hcarry, hshift, nearestShift_eq_zero_or_le⟩
  else none

end TextTemplate.Magnitude

namespace TextTemplate.BinaryFloat

/-- The number nearest to a signed quotient, infinite beyond the largest finite number. -/
def nearest (f : FloatFormat) (negative : Bool) (r : Ratio) : BinaryFloat f :=
  match Magnitude.nearest? f r with
  | some magnitude => finite negative magnitude
  | none => infinite negative

end TextTemplate.BinaryFloat
