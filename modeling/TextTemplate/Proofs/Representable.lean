import TextTemplate.Proofs.General

/-! Numbers that a floating-point format has: their exact decimal expansions, and why each is the
number that is nearest to every quotient of its value. -/
namespace TextTemplate

theorem roundHalfEven_mul_self {a b : ℕ} (hb : 0 < b) : roundHalfEven (a * b) b = a := by
  simp only [roundHalfEven, Nat.mul_mod_left, Nat.mul_div_cancel a hb, Nat.mul_zero,
    if_pos (Or.inl hb)]

namespace Magnitude

variable {f : FloatFormat} {m : Magnitude f} {r : Ratio}

theorem value_toRatio (m : Magnitude f) :
    m.toRatio.value = (m.significand * 2 ^ m.shift : ℕ) / (2 ^ f.scale : ℕ) := rfl

theorem numerator_mul_two_pow (h : r.value = m.toRatio.value) :
    r.numerator * 2 ^ f.scale = m.significand * 2 ^ m.shift * r.denominator := by
  have hr : (r.denominator : ℚ) ≠ 0 := Nat.cast_ne_zero.mpr r.denominator_pos.ne'
  have hscale : ((2 ^ f.scale : ℕ) : ℚ) ≠ 0 := Nat.cast_ne_zero.mpr (Nat.two_pow_pos _).ne'
  rw [value_toRatio, Ratio.value, div_eq_div_iff hr hscale] at h
  exact_mod_cast h

theorem units_eq (h : r.value = m.toRatio.value) : units f r = m.significand * 2 ^ m.shift := by
  rw [units, numerator_mul_two_pow h, Nat.mul_div_cancel _ r.denominator_pos]

/-- The significand of a number of the format has full length, or the number is among the smallest
ones. -/
theorem nearestShift_eq (h : r.value = m.toRatio.value) : nearestShift f r = m.shift := by
  rw [nearestShift, units_eq h]
  obtain hzero | hfull := m.normal
  · rw [hzero, Nat.pow_zero, Nat.mul_one]
    by_cases hm : m.significand = 0
    · rw [hm, Nat.log2_zero, Nat.zero_sub]
    · have hlog : m.significand.log2 < f.digits := (Nat.log2_lt hm).mpr m.significand_lt
      rw [FloatFormat.digits] at hlog
      omega
  · have hpos : 0 < m.significand := Nat.lt_of_lt_of_le (Nat.two_pow_pos _) hfull
    have hne : m.significand * 2 ^ m.shift ≠ 0 := (Nat.mul_pos hpos (Nat.two_pow_pos _)).ne'
    have hlow : f.fractionBits + m.shift ≤ (m.significand * 2 ^ m.shift).log2 := by
      rw [Nat.le_log2 hne, Nat.pow_add]
      exact Nat.mul_le_mul_right _ hfull
    have hhigh : (m.significand * 2 ^ m.shift).log2 < f.digits + m.shift := by
      rw [Nat.log2_lt hne, Nat.pow_add]
      exact Nat.mul_lt_mul_of_pos_right m.significand_lt (Nat.two_pow_pos _)
    rw [FloatFormat.digits] at hhigh
    omega

theorem nearestSignificand_eq (h : r.value = m.toRatio.value) :
    nearestSignificand f r = m.significand := by
  have hpos : 0 < r.denominator * 2 ^ m.shift := Nat.mul_pos r.denominator_pos (Nat.two_pow_pos _)
  rw [nearestSignificand, nearestShift_eq h, numerator_mul_two_pow h, Nat.mul_assoc,
    Nat.mul_comm (2 ^ m.shift), roundHalfEven_mul_self hpos]

/-- A number of the format is the one nearest to each quotient that has its value. -/
theorem nearest?_eq_self (h : r.value = m.toRatio.value) : nearest? f r = some m := by
  have hsignificand := nearestSignificand_eq h
  have hshift := nearestShift_eq h
  have hcarry : nearestSignificand f r ≠ 2 ^ f.digits := by
    rw [hsignificand]
    exact m.significand_lt.ne
  have hroom : nearestShift f r ≤ f.maxShift := by
    rw [hshift]
    exact m.shift_le
  rw [nearest?, dif_neg hcarry, dif_pos hroom]
  simp only [hsignificand, hshift]

section Expansion

open Numeral

/-- How often a number holds a unit of the last decimal place that its format needs. -/
def decimalUnits (m : Magnitude f) : ℕ := m.significand * 2 ^ m.shift * 5 ^ f.scale

/-- The digits in front of the point. -/
def wholeDigits (m : Magnitude f) : Text := decimal (m.decimalUnits / 10 ^ f.scale)

/-- All digits behind the point up to the last one that is no zero, or a single zero. -/
def fraction (m : Magnitude f) : Text :=
  let digits := dropTrailing '0' (fractionDigits f.scale m.decimalUnits)
  if digits = [] then ['0'] else digits

/-- The exact decimal expansion, which has a point and digits on each side of it. -/
def expansion (m : Magnitude f) : Text := m.wholeDigits ++ '.' :: m.fraction

theorem value_eq_decimalUnits (m : Magnitude f) :
    m.toRatio.value = m.decimalUnits / 10 ^ f.scale := by
  have hten : (10 : ℚ) ^ f.scale = 2 ^ f.scale * 5 ^ f.scale := by
    rw [← mul_pow]
    norm_num
  have hfive : (5 : ℚ) ^ f.scale ≠ 0 := pow_ne_zero _ (by norm_num)
  rw [value_toRatio, decimalUnits, hten]
  push_cast
  rw [mul_div_mul_right _ _ hfive]

theorem isPlain_expansion (m : Magnitude f) :
    IsPlain m.wholeDigits (dropTrailing '0' (fractionDigits f.scale m.decimalUnits))
      m.toRatio.value := by
  rw [value_eq_decimalUnits]
  exact isPlain_units _ _

theorem fraction_ne_nil (m : Magnitude f) : m.fraction ≠ [] := by
  simp only [fraction]
  split
  · exact List.cons_ne_nil _ _
  · next h => exact h

theorem isDigit_of_mem_expansion (m : Magnitude f) :
    ∀ c ∈ m.wholeDigits ++ m.fraction, c.isDigit = true := by
  have hdigits := m.isPlain_expansion.isDigit
  intro c hc
  simp only [fraction] at hc
  split at hc
  · next hnil =>
    rw [hnil, List.append_nil] at hdigits
    obtain hc | hc := List.mem_append.mp hc
    · exact hdigits c hc
    · obtain rfl := List.mem_singleton.mp hc
      rfl
  · exact hdigits c hc

/-- The digits on both sides of the point make up the number exactly. -/
theorem value_mul_ten_pow (m : Magnitude f) :
    m.toRatio.value * 10 ^ m.fraction.length = ofDecimal (m.wholeDigits ++ m.fraction) := by
  have hvalue := m.isPlain_expansion.value
  simp only [fraction]
  split
  · next hnil =>
    rw [hnil, List.length_nil, pow_zero, mul_one, List.append_nil] at hvalue
    rw [hvalue, ofDecimal_append]
    simp [ofDecimal, positionalValue]
  · exact hvalue

end Expansion

end Magnitude

namespace Decimal

/-- The literal with the digits of an exact expansion denotes the number. -/
theorem value_toRatio_expansion (negative : Bool) (m : Magnitude .double) :
    (toRatio ⟨negative, Numeral.ofDecimal (m.wholeDigits ++ m.fraction),
      0 - m.fraction.length⟩).value =
      m.toRatio.value := by
  have hten : (10 : ℚ) ^ m.fraction.length ≠ 0 := pow_ne_zero _ (by norm_num)
  rw [value_toRatio, ← m.value_mul_ten_pow, zero_sub, zpow_neg, zpow_natCast,
    mul_inv_cancel_right₀ hten]

end Decimal

end TextTemplate
