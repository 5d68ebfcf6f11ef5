import TextTemplate.Proofs.Nearest

/-! Rounding to a floating-point format over the whole range of rational numbers: which of them
the format has no finite number for, and the one number of the format that is nearest to each
literal. -/
namespace TextTemplate

theorem two_pow_le_ten_pow (k : ℕ) : (2 : ℚ) ^ (3 * k) ≤ 10 ^ k := by
  rw [pow_mul]
  exact pow_le_pow_left₀ (by norm_num) (by norm_num) k

/-- The unit of a greater shift is at least twice as large. -/
theorem two_mul_two_pow_div_le {a b : ℕ} (h : a < b) (scale : ℕ) :
    2 * ((2 : ℚ) ^ a / 2 ^ scale) ≤ 2 ^ b / 2 ^ scale := by
  have hpow : (2 : ℚ) ^ (a + 1) ≤ 2 ^ b := pow_le_pow_right₀ (by norm_num) h
  rw [← mul_div_assoc, ← pow_succ']
  exact div_le_div_of_nonneg_right hpow (by positivity)

namespace Magnitude

variable {f : FloatFormat} {r : Ratio} {q : ℚ}

/-- The distance of the greatest finite numbers of a format. -/
def topUnit (f : FloatFormat) : ℚ := 2 ^ f.maxShift / 2 ^ f.scale

/-- Where rounding becomes infinite: halfway between the greatest finite number and the power of two
behind it. -/
def overflow (f : FloatFormat) : ℚ := (2 ^ f.digits - 1 / 2) * topUnit f

theorem topUnit_pos : 0 < topUnit f := by
  unfold topUnit
  positivity

theorem two_le_two_pow_digits (f : FloatFormat) : (2 : ℚ) ≤ 2 ^ f.digits := by
  rw [FloatFormat.digits, pow_succ']
  exact le_mul_of_one_le_right (by norm_num) (one_le_pow₀ (by norm_num))

theorem topUnit_le_overflow (f : FloatFormat) : topUnit f ≤ overflow f := by
  have hdigits := two_le_two_pow_digits f
  exact le_mul_of_one_le_left topUnit_pos.le (by linarith)

theorem overflow_le_two_pow (f : FloatFormat) : overflow f ≤ 2 ^ f.digits * topUnit f :=
  mul_le_mul_of_nonneg_right (by linarith) topUnit_pos.le

theorem nearestEven_le_two_pow_digits (f : FloatFormat) (r : Ratio) :
    nearestEven (r.value / unit f r) ≤ 2 ^ f.digits := by
  rw [← coe_nearestSignificand]
  exact_mod_cast nearestSignificand_le

theorem value_lt_overflow_of_lt (h : nearestShift f r < f.maxShift) : r.value < overflow f := by
  have hunit : 2 * unit f r ≤ topUnit f := two_mul_two_pow_div_le h f.scale
  have hround := (abs_le.mp (abs_sub_nearestEven_le (r.value / unit f r))).2
  have hlimit : (nearestEven (r.value / unit f r) : ℚ) ≤ 2 ^ f.digits := by
    exact_mod_cast nearestEven_le_two_pow_digits f r
  have hdigits := two_le_two_pow_digits f
  calc r.value = r.value / unit f r * unit f r := (div_mul_cancel₀ _ unit_pos.ne').symm
    _ ≤ (2 ^ f.digits + 1 / 2) * unit f r := by
        apply mul_le_mul_of_nonneg_right _ unit_pos.le
        linarith
    _ < (2 ^ f.digits - 1 / 2) * (2 * unit f r) := by
        rw [← mul_assoc]
        apply mul_lt_mul_of_pos_right _ unit_pos
        linarith
    _ ≤ overflow f := mul_le_mul_of_nonneg_left hunit (by linarith)

theorem overflow_le_value_of_lt (h : f.maxShift < nearestShift f r) : overflow f ≤ r.value := by
  have hbegin := two_pow_mul_unit_le_value (r := r) (Nat.ne_zero_of_lt h)
  have hunit : 2 * topUnit f ≤ unit f r := two_mul_two_pow_div_le h f.scale
  calc overflow f ≤ 2 ^ f.digits * topUnit f := overflow_le_two_pow f
    _ = 2 ^ f.fractionBits * (2 * topUnit f) := by
        rw [FloatFormat.digits, pow_succ, mul_assoc]
    _ ≤ 2 ^ f.fractionBits * unit f r := mul_le_mul_of_nonneg_left hunit (by positivity)
    _ ≤ r.value := hbegin

/-- Among the greatest numbers, a significand is rounded out of the format from half a unit below
its limit on; the limit is even, so the tie is rounded up. -/
theorem nearestSignificand_eq_iff_of_top (h : nearestShift f r = f.maxShift) :
    nearestSignificand f r = 2 ^ f.digits ↔ overflow f ≤ r.value := by
  have hunit : unit f r = topUnit f := by rw [unit, topUnit, h]
  have heven : Even ((2 : ℤ) ^ f.digits) := (Int.even_pow' (Nat.succ_ne_zero _)).mpr even_two
  have hround := nearestEven_eq_iff_of_even heven (nearestEven_le_two_pow_digits f r)
  rw [Int.cast_pow, Int.cast_ofNat] at hround
  rw [overflow, ← hunit, ← le_div_iff₀ unit_pos, ← hround, ← coe_nearestSignificand]
  norm_cast

/-- No finite number is found exactly from the overflow on. -/
theorem nearest?_eq_none_iff : nearest? f r = none ↔ overflow f ≤ r.value := by
  obtain hlt | heq | hgt := lt_trichotomy (nearestShift f r) f.maxShift
  · obtain ⟨m, hm⟩ := exists_nearest? hlt
    simp [hm, value_lt_overflow_of_lt hlt]
  · rw [← nearestSignificand_eq_iff_of_top heq]
    unfold nearest?
    simp [heq]
  · have hcarry : ¬nearestShift f r + 1 ≤ f.maxShift := by omega
    have hroom : ¬nearestShift f r ≤ f.maxShift := by omega
    simp [nearest?, hcarry, hroom, overflow_le_value_of_lt hgt]

/-- Half a unit of the smallest numbers is nearest to zero, and so is every smaller number. -/
theorem isNearest_zero (hq : 0 ≤ q) (hsmall : q ≤ 1 / 2 ^ f.scale / 2) : (zero f).IsNearest q := by
  have hzero : (zero f).toRatio.value = 0 := Ratio.value_eq_zero_iff.mpr (Nat.zero_mul _)
  constructor
  · intro m'
    rw [hzero, sub_zero, abs_of_nonneg hq]
    by_cases hm' : m'.toRatio.value = 0
    · rw [hm', sub_zero, abs_of_nonneg hq]
    · have hnumerator : 1 ≤ m'.significand * 2 ^ m'.shift :=
        Nat.one_le_iff_ne_zero.mpr fun hzero => hm' (Ratio.value_eq_zero_iff.mpr hzero)
      have hunit : 1 / 2 ^ f.scale ≤ m'.toRatio.value := by
        rw [value_toRatio, Nat.cast_pow 2 f.scale, Nat.cast_ofNat]
        apply div_le_div_of_nonneg_right _ (by positivity)
        exact_mod_cast hnumerator
      rw [abs_sub_comm]
      exact le_abs.mpr (.inl (by linarith))
  · intro m' _ _
    exact Even.zero

theorem nearest?_eq_zero (hsmall : r.value ≤ 1 / 2 ^ f.scale / 2) :
    nearest? f r = some (zero f) := by
  have hunit : 1 / 2 ^ f.scale ≤ topUnit f :=
    div_le_div_of_nonneg_right (one_le_pow₀ (by norm_num)) (by positivity)
  have hoverflow : ¬overflow f ≤ r.value := by
    have hpos := topUnit_pos (f := f)
    have hle := topUnit_le_overflow f
    exact not_le_of_gt (by linarith)
  obtain ⟨m, hm⟩ := Option.ne_none_iff_exists'.mp (mt nearest?_eq_none_iff.mp hoverflow)
  rw [hm, (isNearest_zero r.value_nonneg hsmall).eq_of_nearest? hm]

end Magnitude

namespace BinaryFloat

variable {f : FloatFormat} {r : Ratio} {negative : Bool} {x : BinaryFloat f}

/-- The number of a format that is nearest to a signed rational number: it has the sign, also where
it is zero, and it is infinite from the overflow of the format on. -/
inductive IsNearest (negative : Bool) (q : ℚ) : BinaryFloat f → Prop
  | finite {m : Magnitude f} (hq : q < Magnitude.overflow f) (h : m.IsNearest q) :
      IsNearest negative q (.finite negative m)
  | infinite (hq : Magnitude.overflow f ≤ q) : IsNearest negative q (.infinite negative)

theorem nearest_eq_iff : nearest f negative r = x ↔ x.IsNearest negative r.value := by
  cases h : Magnitude.nearest? f r with
  | none =>
    have hq := Magnitude.nearest?_eq_none_iff.mp h
    rw [nearest, h]
    constructor
    · rintro rfl
      exact .infinite hq
    · rintro (⟨hlt, -⟩ | -)
      · exact absurd hq (not_le_of_gt hlt)
      · rfl
  | some m =>
    have hq : r.value < Magnitude.overflow f := by
      apply lt_of_not_ge
      rw [← Magnitude.nearest?_eq_none_iff, h]
      exact Option.some_ne_none m
    rw [nearest, h]
    constructor
    · rintro rfl
      exact .finite hq (Magnitude.isNearest_of_nearest? h)
    · rintro (⟨-, hm⟩ | hge)
      · rw [hm.eq_of_nearest? h]
      · exact absurd hge (not_le_of_gt hq)

end BinaryFloat

namespace Decimal

variable {d : Decimal} {m : Magnitude .double} {x : Double}

/-- The digits of the significand and the exponent tell between which powers of ten a literal
lies. -/
theorem value_bounds (h : d.significand ≠ 0) :
    10 ^ (Numeral.digitCount 10 d.significand + d.exponent - 1) ≤ d.toRatio.value ∧
      d.toRatio.value < 10 ^ (Numeral.digitCount 10 d.significand + d.exponent) := by
  have hlow : 10 ^ Nat.log 10 d.significand ≤ d.significand := Nat.pow_log_le_self 10 h
  have hhigh : d.significand < 10 ^ (Nat.log 10 d.significand + 1) :=
    Nat.lt_pow_succ_log_self (by decide) _
  have hten : (0 : ℚ) < 10 ^ d.exponent := zpow_pos (by norm_num) _
  rw [value_toRatio, Numeral.digitCount_eq (by decide) h]
  generalize Nat.log 10 d.significand = e at hlow hhigh
  constructor
  · have hexponent : ((e + 1 : ℕ) : ℤ) + d.exponent - 1 = (e : ℕ) + d.exponent := by
      push_cast
      ring
    rw [hexponent, zpow_add₀ (by norm_num), zpow_natCast]
    apply mul_le_mul_of_nonneg_right _ (le_of_lt hten)
    exact_mod_cast hlow
  · rw [zpow_add₀ (by norm_num), zpow_natCast]
    apply mul_lt_mul_of_pos_right _ hten
    exact_mod_cast hhigh

/-- Below the least exponents, a literal is at most half a unit of the smallest doubles. -/
theorem value_le_half_unit (h : d.significand = 0 ∨
    (Numeral.digitCount 10 d.significand : ℤ) + d.exponent < -exponentLimit) :
    d.toRatio.value ≤ 1 / 2 ^ FloatFormat.scale .double / 2 := by
  by_cases hzero : d.significand = 0
  · rw [value_toRatio, hzero, Nat.cast_zero, zero_mul]
    positivity
  · have hlimit : (Numeral.digitCount 10 d.significand : ℤ) + d.exponent ≤ -(400 : ℕ) :=
      (h.resolve_left hzero).le
    calc d.toRatio.value ≤ 10 ^ ((Numeral.digitCount 10 d.significand : ℤ) + d.exponent) :=
          (value_bounds hzero).2.le
      _ ≤ 10 ^ (-((400 : ℕ) : ℤ)) := zpow_le_zpow_right₀ (by norm_num) hlimit
      _ = 1 / 10 ^ 400 := by rw [zpow_neg, zpow_natCast, one_div]
      _ ≤ 1 / 2 ^ (3 * 400) := one_div_le_one_div_of_le (by positivity) (two_pow_le_ten_pow 400)
      _ ≤ 1 / 2 ^ (FloatFormat.scale .double + 1) := by
          apply one_div_le_one_div_of_le (by positivity)
          exact pow_le_pow_right₀ (by norm_num) (by decide)
      _ = 1 / 2 ^ FloatFormat.scale .double / 2 := by rw [pow_succ, div_div]

/-- Above the greatest exponents, a literal is greater than every double. -/
theorem overflow_le_value (h : d.significand ≠ 0)
    (hlimit : exponentLimit < Numeral.digitCount 10 d.significand + d.exponent) :
    Magnitude.overflow .double ≤ d.toRatio.value :=
  calc Magnitude.overflow .double
      ≤ 2 ^ FloatFormat.digits .double * Magnitude.topUnit .double :=
        Magnitude.overflow_le_two_pow _
    _ ≤ 2 ^ (3 * 400) := by
        rw [Magnitude.topUnit, ← mul_div_assoc, ← pow_add, div_le_iff₀ (by positivity), ← pow_add]
        exact pow_le_pow_right₀ (by norm_num) (by decide)
    _ ≤ 10 ^ 400 := two_pow_le_ten_pow 400
    _ ≤ 10 ^ ((Numeral.digitCount 10 d.significand : ℤ) + d.exponent - 1) := by
        rw [← zpow_natCast]
        exact zpow_le_zpow_right₀ (by norm_num) (Int.le_sub_one_of_lt hlimit)
    _ ≤ d.toRatio.value := (value_bounds h).1

/-- The exponent alone decides as all digits would. -/
theorem nearest_eq (d : Decimal) : d.nearest = .nearest .double d.negative d.toRatio := by
  by_cases hsmall : d.significand = 0 ∨
      (Numeral.digitCount 10 d.significand : ℤ) + d.exponent < -exponentLimit
  · rw [nearest, if_pos hsmall, BinaryFloat.nearest,
      Magnitude.nearest?_eq_zero (value_le_half_unit hsmall)]
  · rw [nearest, if_neg hsmall]
    split
    · next hlimit =>
      have hnone := Magnitude.nearest?_eq_none_iff.mpr (overflow_le_value (mt .inl hsmall) hlimit)
      rw [BinaryFloat.nearest, hnone]
    · rfl

/-- A literal that denotes a double exactly is read as that double. -/
theorem nearest_eq_finite (h : d.toRatio.value = m.toRatio.value) :
    d.nearest = .finite d.negative m := by
  rw [nearest_eq, BinaryFloat.nearest, Magnitude.nearest?_eq_self h]

/-- A literal is read as the double nearest to it. -/
theorem nearest_eq_iff : d.nearest = x ↔ x.IsNearest d.negative d.toRatio.value := by
  rw [nearest_eq, BinaryFloat.nearest_eq_iff]

end Decimal

end TextTemplate
