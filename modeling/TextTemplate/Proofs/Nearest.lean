import TextTemplate.Proofs.Representable

/-! The nearest number of a floating-point format, judged by distances alone: no other number of the
format is nearer, and of two equally near ones it is the one with the even significand. -/
namespace TextTemplate

section

variable {q unit : ℚ} {k : ℤ}

/-- Every integer but the nearest one is at least half a unit away. -/
theorem half_le_abs_sub (hk : k ≠ nearestEven q) : 1 / 2 ≤ |q - k| := by
  by_contra hlt
  exact hk (nearestEven_of_abs_lt (lt_of_not_ge hlt)).symm

theorem abs_sub_nearestEven_le_abs_sub (q : ℚ) (k : ℤ) : |q - nearestEven q| ≤ |q - k| := by
  by_cases hk : k = nearestEven q
  · rw [hk]
  · exact (abs_sub_nearestEven_le q).trans (half_le_abs_sub hk)

theorem even_nearestEven_of_abs_eq (hk : k ≠ nearestEven q) (h : |q - k| = |q - nearestEven q|) :
    Even (nearestEven q) := by
  apply even_nearestEven_of_tie
  have hhalf := half_le_abs_sub hk
  have hround := abs_sub_nearestEven_le q
  linarith

theorem abs_sub_mul_eq (hunit : 0 < unit) (q : ℚ) (k : ℤ) :
    |q - k * unit| = |q / unit - k| * unit := by
  have hsub : q - k * unit = (q / unit - k) * unit := by
    rw [sub_mul, div_mul_cancel₀ q hunit.ne']
  rw [hsub, abs_mul, abs_of_pos hunit]

end

namespace Magnitude

variable {f : FloatFormat} {r : Ratio} {m m' : Magnitude f} {q : ℚ}

/-- The absolute value of a format that is nearest to a rational number, judged by the distances of
all of them; the even significand decides between two. -/
structure IsNearest (q : ℚ) (m : Magnitude f) : Prop where
  abs_sub_le : ∀ m' : Magnitude f, |q - m.toRatio.value| ≤ |q - m'.toRatio.value|
  even_of_tie : ∀ m' : Magnitude f, m' ≠ m → |q - m'.toRatio.value| = |q - m.toRatio.value| →
    Even m.significand

theorem eq_of_value_eq (h : m.toRatio.value = m'.toRatio.value) : m = m' := by
  have hself : nearest? f m.toRatio = some m := nearest?_eq_self rfl
  rw [nearest?_eq_self h] at hself
  exact (Option.some.inj hself).symm

/-- The distance of neighbouring numbers of the format where a quotient lies. -/
def unit (f : FloatFormat) (r : Ratio) : ℚ := 2 ^ nearestShift f r / 2 ^ f.scale

theorem unit_pos : 0 < unit f r := by
  unfold unit
  positivity

theorem coe_nearestSignificand :
    (nearestSignificand f r : ℤ) = nearestEven (r.value / unit f r) := by
  have hd : (r.denominator : ℚ) ≠ 0 := Nat.cast_ne_zero.mpr r.denominator_pos.ne'
  rw [nearestSignificand, coe_roundHalfEven (Nat.mul_pos r.denominator_pos (Nat.two_pow_pos _))]
  congr 1
  rw [Ratio.value, unit]
  push_cast
  field_simp

/-- What is found is the nearest whole number of units, also where its significand is halved for its
length. -/
theorem value_of_nearest? (h : nearest? f r = some m) :
    m.toRatio.value = (nearestEven (r.value / unit f r) : ℚ) * unit f r := by
  rw [← coe_nearestSignificand, Int.cast_natCast]
  unfold nearest? at h
  split at h
  · next hcarry =>
    split at h
    · cases h
      rw [hcarry, FloatFormat.digits, value_toRatio, unit]
      push_cast
      rw [pow_succ, pow_succ]
      ring
    · cases h
  · split at h
    · cases h
      rw [value_toRatio, unit]
      push_cast
      ring
    · cases h

theorem even_significand_of_nearest? (h : nearest? f r = some m)
    (heven : Even (nearestEven (r.value / unit f r))) : Even m.significand := by
  rw [← coe_nearestSignificand, Int.even_coe_nat] at heven
  unfold nearest? at h
  split at h
  · split at h
    · cases h
      have hbits : f.fractionBits ≠ 0 := by cases f <;> decide
      exact (Nat.even_pow' hbits).mpr even_two
    · cases h
  · split at h
    · cases h
      exact heven
    · cases h

/-- Above the smallest numbers, a quotient reaches the power of two where its units begin. -/
theorem two_pow_mul_unit_le_value (h : nearestShift f r ≠ 0) :
    2 ^ f.fractionBits * unit f r ≤ r.value := by
  have hlow : 2 ^ (f.fractionBits + nearestShift f r) * r.denominator ≤ r.numerator * 2 ^ f.scale :=
    Nat.mul_le_of_le_div _ _ _ (two_pow_le_units h)
  have hd : (0 : ℚ) < r.denominator := Nat.cast_pos.mpr r.denominator_pos
  have hscale : (0 : ℚ) < 2 ^ f.scale := by positivity
  rw [unit, ← mul_div_assoc, ← pow_add, Ratio.value, div_le_div_iff₀ hscale hd]
  exact_mod_cast hlow

theorem value_eq_mul_unit (h : nearestShift f r ≤ m.shift) : m.toRatio.value =
    ((m.significand * 2 ^ (m.shift - nearestShift f r) : ℕ) : ℤ) * unit f r := by
  obtain ⟨gap, hgap⟩ := Nat.exists_eq_add_of_le h
  rw [value_toRatio, unit, hgap, Nat.add_sub_cancel_left]
  push_cast
  rw [pow_add]
  ring

theorem value_lt_of_shift_lt (h : m.shift < nearestShift f r) :
    m.toRatio.value < 2 ^ f.fractionBits * unit f r := by
  have hnumerator : m.significand * 2 ^ m.shift < 2 ^ f.fractionBits * 2 ^ nearestShift f r :=
    calc m.significand * 2 ^ m.shift < 2 ^ f.digits * 2 ^ m.shift :=
          Nat.mul_lt_mul_of_pos_right m.significand_lt (Nat.two_pow_pos _)
      _ = 2 ^ (f.digits + m.shift) := (Nat.pow_add 2 _ _).symm
      _ ≤ 2 ^ (f.fractionBits + nearestShift f r) :=
          Nat.pow_le_pow_right (by decide) (by rw [FloatFormat.digits]; omega)
      _ = 2 ^ f.fractionBits * 2 ^ nearestShift f r := Nat.pow_add 2 _ _
  rw [value_toRatio, unit, ← mul_div_assoc, Nat.cast_pow, Nat.cast_ofNat,
    div_lt_div_iff_of_pos_right (by positivity)]
  exact_mod_cast hnumerator

/-- A number of the format is a whole number of units, or it lies below the power of two where they
begin. -/
theorem value_cases (r : Ratio) (m : Magnitude f) :
    (∃ k : ℤ, m.toRatio.value = k * unit f r) ∨
      m.toRatio.value < 2 ^ f.fractionBits * unit f r ∧
        2 ^ f.fractionBits * unit f r ≤ r.value := by
  by_cases h : nearestShift f r ≤ m.shift
  · exact .inl ⟨_, value_eq_mul_unit h⟩
  · have hlt : m.shift < nearestShift f r := Nat.lt_of_not_le h
    exact .inr ⟨value_lt_of_shift_lt hlt, two_pow_mul_unit_le_value (by omega)⟩

theorem abs_sub_eq_mul_unit (h : nearest? f r = some m) : |r.value - m.toRatio.value| =
    |r.value / unit f r - nearestEven (r.value / unit f r)| * unit f r := by
  rw [value_of_nearest? h, abs_sub_mul_eq unit_pos]

theorem abs_sub_le_of_nearest? (h : nearest? f r = some m) (k : ℤ) :
    |r.value - m.toRatio.value| ≤ |r.value - k * unit f r| := by
  rw [abs_sub_eq_mul_unit h, abs_sub_mul_eq unit_pos]
  exact mul_le_mul_of_nonneg_right (abs_sub_nearestEven_le_abs_sub _ k) unit_pos.le

/-- Numbers with finer units lie farther away than the power of two in between. -/
theorem abs_sub_lt_of_value_lt (h : nearest? f r = some m)
    (hbelow : m'.toRatio.value < 2 ^ f.fractionBits * unit f r)
    (hbegin : 2 ^ f.fractionBits * unit f r ≤ r.value) :
    |r.value - m.toRatio.value| < |r.value - m'.toRatio.value| := by
  have hpower := abs_sub_le_of_nearest? h (2 ^ f.fractionBits)
  push_cast at hpower
  refine lt_of_le_of_lt hpower ?_
  rw [abs_of_nonneg (by linarith), abs_of_nonneg (by linarith)]
  linarith

/-- The number that is found is the nearest one. -/
theorem isNearest_of_nearest? (h : nearest? f r = some m) : m.IsNearest r.value := by
  have hvalue := value_of_nearest? h
  have hunit : 0 < unit f r := unit_pos
  constructor
  · intro m'
    obtain ⟨k, hk⟩ | ⟨hbelow, hbegin⟩ := value_cases r m'
    · rw [hk]
      exact abs_sub_le_of_nearest? h k
    · exact (abs_sub_lt_of_value_lt h hbelow hbegin).le
  · intro m' hne htie
    obtain ⟨k, hk⟩ | ⟨hbelow, hbegin⟩ := value_cases r m'
    · have hk' : k ≠ nearestEven (r.value / unit f r) := by
        rintro rfl
        exact hne (eq_of_value_eq (hk.trans hvalue.symm))
      rw [abs_sub_eq_mul_unit h, hk, abs_sub_mul_eq hunit] at htie
      exact even_significand_of_nearest? h
        (even_nearestEven_of_abs_eq hk' (mul_right_cancel₀ hunit.ne' htie))
    · exact absurd htie (abs_sub_lt_of_value_lt h hbelow hbegin).ne'

/-- No other number is nearest: at the same distance and with an even significand, it would be the
nearest whole number of units as well. -/
theorem IsNearest.eq_of_nearest? (hm' : m'.IsNearest r.value) (h : nearest? f r = some m) :
    m' = m := by
  by_contra hne
  have htie : |r.value - m'.toRatio.value| = |r.value - m.toRatio.value| :=
    le_antisymm (hm'.abs_sub_le m) ((isNearest_of_nearest? h).abs_sub_le m')
  have heven : Even m'.significand := hm'.even_of_tie m (Ne.symm hne) htie.symm
  have hshift : nearestShift f r ≤ m'.shift := by
    by_contra hlt
    have hlt : m'.shift < nearestShift f r := Nat.lt_of_not_le hlt
    have hfar :=
      abs_sub_lt_of_value_lt h (value_lt_of_shift_lt hlt) (two_pow_mul_unit_le_value (by omega))
    exact hfar.ne' htie
  have hunits := value_eq_mul_unit hshift
  generalize hk : ((m'.significand * 2 ^ (m'.shift - nearestShift f r) : ℕ) : ℤ) = k at hunits
  have hkeven : Even k := by
    rw [← hk, Int.even_coe_nat]
    exact heven.mul_right _
  rw [abs_sub_eq_mul_unit h, hunits, abs_sub_mul_eq unit_pos] at htie
  have hhalf : |r.value / unit f r - k| ≤ 1 / 2 := by
    rw [mul_right_cancel₀ unit_pos.ne' htie]
    exact abs_sub_nearestEven_le _
  have hround : nearestEven (r.value / unit f r) = k :=
    nearestEven_eq_iff.mpr ⟨hhalf, fun _ => hkeven⟩
  apply hne
  apply eq_of_value_eq
  rw [hunits, value_of_nearest? h, hround]

theorem exists_nearest? (h : nearestShift f r < f.maxShift) : ∃ m, nearest? f r = some m := by
  unfold nearest?
  split
  · exact ⟨_, dif_pos h⟩
  · exact ⟨_, dif_pos h.le⟩

theorem nearestShift_ofNat_le {n bits : ℕ} (h : n < 2 ^ bits) :
    nearestShift f (.ofNat n) ≤ bits + f.scale := by
  have hunits : units f (.ofNat n) < 2 ^ (bits + f.scale) := by
    rw [units, Ratio.ofNat, Nat.div_one, Nat.pow_add]
    exact Nat.mul_lt_mul_of_pos_right h (Nat.two_pow_pos _)
  have hlog : (units f (.ofNat n)).log2 ≤ bits + f.scale := by
    by_cases hzero : units f (.ofNat n) = 0
    · rw [hzero, Nat.log2_zero]
      exact Nat.zero_le _
    · exact ((Nat.log2_lt hzero).mpr hunits).le
  exact (Nat.sub_le _ _).trans hlog

end Magnitude

theorem IntegerKind.range_le (k : IntegerKind) :
    -(2 ^ 128 : ℕ) ≤ k.low ∧ k.bound ≤ (2 ^ 128 : ℕ) := by
  obtain ⟨signed, width⟩ := k
  cases signed <;> cases width <;> decide

/-- Every integer is near a finite double, which has its sign. -/
theorem Integer.exists_toDouble_eq {k : IntegerKind} (n : Integer k) :
    ∃ m : Magnitude .double, n.toDouble = .finite (decide (n.value < 0)) m ∧
      m.IsNearest n.value.natAbs := by
  have hlow := k.range_le.1.trans n.low_le
  have hbound := n.lt_bound.trans_le k.range_le.2
  have hlt : n.value.natAbs < 2 ^ 129 := by omega
  have hshift := Magnitude.nearestShift_ofNat_le (f := .double) hlt
  have hroom : Magnitude.nearestShift .double (.ofNat n.value.natAbs) <
      FloatFormat.maxShift .double :=
    lt_of_le_of_lt hshift (by decide)
  obtain ⟨m, hm⟩ := Magnitude.exists_nearest? hroom
  refine ⟨m, ?_, ?_⟩
  · rw [toDouble, BinaryFloat.nearest, hm]
  · rw [← Ratio.value_ofNat]
    exact Magnitude.isNearest_of_nearest? hm

end TextTemplate
