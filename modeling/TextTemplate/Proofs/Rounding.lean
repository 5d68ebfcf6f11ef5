import TextTemplate.Proofs.Numeral
import TextTemplate.Rounding
import Mathlib.Algebra.Order.Floor.Semifield
import Mathlib.Data.Int.Log
import Mathlib.Data.Rat.Floor
import Mathlib.Tactic.FieldSimp
import Mathlib.Tactic.Linarith
import Mathlib.Tactic.Positivity
import Mathlib.Tactic.Ring

/-! Rounding of quotients is rounding of the rational numbers that they stand for. A count of
significant digits leaves one rounding: rounding again at the last place of the result changes
nothing. -/
namespace TextTemplate

section Nearest

/-- The integer nearest to a rational number; of two equally near ones, the even one. -/
def nearestEven (q : ℚ) : ℤ :=
  if q - ⌊q⌋ < 1 / 2 ∨ q - ⌊q⌋ = 1 / 2 ∧ Even ⌊q⌋ then ⌊q⌋ else ⌊q⌋ + 1

/-- A rational number rounded to a count of significant decimal digits, ties to even; zero stays
zero. -/
def significantly (count : ℕ) (q : ℚ) : ℚ :=
  nearestEven (q / 10 ^ (Int.log 10 q - (count - 1))) * 10 ^ (Int.log 10 q - (count - 1))

variable {q : ℚ} {n : ℤ} {a b : ℕ}

theorem abs_sub_nearestEven_le (q : ℚ) : |q - nearestEven q| ≤ 1 / 2 := by
  have hlow := Int.floor_le q
  have hhigh := Int.lt_floor_add_one q
  unfold nearestEven
  split
  · next h =>
    have hle : q - ⌊q⌋ ≤ 1 / 2 := h.elim le_of_lt fun h => le_of_eq h.1
    rw [abs_le]
    constructor <;> linarith
  · next h =>
    have hle : 1 / 2 ≤ q - ⌊q⌋ := le_of_not_gt fun hlt => h (.inl hlt)
    push_cast
    rw [abs_le]
    constructor <;> linarith

theorem even_nearestEven_of_tie (h : |q - nearestEven q| = 1 / 2) : Even (nearestEven q) := by
  unfold nearestEven at h ⊢
  have hlow := Int.floor_le q
  have hhigh := Int.lt_floor_add_one q
  split
  · next hdown =>
    rw [if_pos hdown, abs_of_nonneg (by linarith)] at h
    exact hdown.elim (fun hlt => absurd h (ne_of_lt hlt)) fun htie => htie.2
  · next hup =>
    rw [if_neg hup] at h
    push_cast at h
    rw [abs_of_nonpos (by linarith)] at h
    have htie : q - ⌊q⌋ = 1 / 2 := by linarith
    rw [Int.even_add_one]
    exact fun heven => hup (.inr ⟨htie, heven⟩)

/-- Rounding is the only choice of an integer within half a unit that is even where half a unit is
reached. -/
theorem nearestEven_eq_iff :
    nearestEven q = n ↔ |q - n| ≤ 1 / 2 ∧ (|q - n| = 1 / 2 → Even n) := by
  constructor
  · rintro rfl
    exact ⟨abs_sub_nearestEven_le q, even_nearestEven_of_tie⟩
  · rintro ⟨hn, hneven⟩
    have hm := abs_sub_nearestEven_le q
    have hmeven := even_nearestEven_of_tie (q := q)
    generalize nearestEven q = m at hm hmeven
    by_contra hne
    -- Two integers within half a unit are neighbours, and both ties.
    have hgap : (1 : ℚ) ≤ |(m : ℚ) - n| := by
      exact_mod_cast Int.one_le_abs (sub_ne_zero.mpr hne)
    have htriangle : |(m : ℚ) - n| ≤ |q - m| + |q - n| := by
      rw [abs_sub_comm q m]
      exact abs_sub_le _ _ _
    have heven : Even (m - n) := (hmeven (by linarith)).sub (hneven (by linarith))
    have hone : |(m : ℚ) - n| = 1 := by linarith
    have hone : |m - n| = 1 := by exact_mod_cast hone
    obtain ⟨k, hk⟩ := heven
    obtain h | h := (abs_eq (by decide)).mp hone <;> omega

theorem nearestEven_of_abs_lt (h : |q - n| < 1 / 2) : nearestEven q = n :=
  nearestEven_eq_iff.mpr ⟨le_of_lt h, fun htie => absurd htie (ne_of_lt h)⟩

theorem le_nearestEven (h : n ≤ q) : n ≤ nearestEven q := by
  have hhalf := (abs_le.mp (abs_sub_nearestEven_le q)).2
  have hlt : (n : ℚ) < nearestEven q + 1 := by linarith
  have hlt : n < nearestEven q + 1 := by exact_mod_cast hlt
  omega

theorem nearestEven_le (h : q ≤ n) : nearestEven q ≤ n := by
  have hhalf := (abs_le.mp (abs_sub_nearestEven_le q)).1
  have hlt : (nearestEven q : ℚ) < n + 1 := by linarith
  have hlt : nearestEven q < n + 1 := by exact_mod_cast hlt
  omega

/-- An even integer that rounding does not exceed is reached from half a unit below it on. -/
theorem nearestEven_eq_iff_of_even (hn : Even n) (hle : nearestEven q ≤ n) :
    nearestEven q = n ↔ n - 1 / 2 ≤ q := by
  have hround := abs_le.mp (abs_sub_nearestEven_le q)
  constructor
  · intro h
    rw [h] at hround
    linarith [hround.1]
  · intro hlow
    have hle : (nearestEven q : ℚ) ≤ n := by exact_mod_cast hle
    refine nearestEven_eq_iff.mpr ⟨abs_le.mpr ⟨?_, ?_⟩, fun _ => hn⟩
    · linarith
    · linarith [hround.2]

/-- Rounding a quotient of natural numbers by their remainder is rounding the rational number. -/
theorem coe_roundHalfEven (hb : 0 < b) : (roundHalfEven a b : ℤ) = nearestEven (a / b) := by
  have hb' : (0 : ℚ) < b := by exact_mod_cast hb
  have hdivision : (a : ℚ) = b * (a / b : ℕ) + (a % b : ℕ) := by
    exact_mod_cast (Nat.div_add_mod a b).symm
  have hfloor : ⌊(a : ℚ) / b⌋ = (a / b : ℕ) := Rat.floor_natCast_div_natCast a b
  have hrest : (a : ℚ) / b - ⌊(a : ℚ) / b⌋ = (a % b : ℕ) / b := by
    rw [hfloor, Int.cast_natCast, eq_div_iff (ne_of_gt hb'), sub_mul,
      div_mul_cancel₀ _ (ne_of_gt hb')]
    linarith
  have hlt : ((a % b : ℕ) : ℚ) / b < 1 / 2 ↔ 2 * (a % b) < b := by
    rw [div_lt_div_iff₀ hb' two_pos, one_mul, mul_comm]
    exact_mod_cast Iff.rfl
  have heq : ((a % b : ℕ) : ℚ) / b = 1 / 2 ↔ 2 * (a % b) = b := by
    rw [div_eq_div_iff (ne_of_gt hb') two_ne_zero, one_mul, mul_comm]
    exact_mod_cast Iff.rfl
  have heven : Even ((a / b : ℕ) : ℤ) ↔ a / b % 2 = 0 := by
    rw [Int.even_coe_nat, Nat.even_iff]
  simp only [roundHalfEven, nearestEven, hrest, hlt, heq]
  simp only [hfloor, heven]
  split <;> push_cast <;> rfl

end Nearest

namespace Numeral

variable {base n : ℕ}

/-- A number has one digit more than its logarithm. -/
theorem digitCount_eq (hb : 2 ≤ base) (hn : n ≠ 0) : digitCount base n = Nat.log base n + 1 := by
  induction n using Nat.strongRecOn with
  | ind n ih =>
    have hlog : Nat.log base n = if n < base then 0 else Nat.log base (n / base) + 1 := by
      split
      · next hlt => exact Nat.log_of_lt hlt
      · next hge => exact Nat.log_of_one_lt_of_le hb (by omega)
    rw [digitCount, lowDigits_of_ne_zero hb hn, List.length_cons, hlog]
    split
    · next hlt => rw [Nat.div_eq_of_lt hlt, lowDigits_zero, List.length_nil]
    · next hge =>
      have hpos : n / base ≠ 0 := (Nat.div_pos (by omega) (by omega)).ne'
      have hcount := ih (n / base) (Nat.div_lt_self (by omega) hb) hpos
      rw [digitCount] at hcount
      rw [hcount]

theorem digitCount_ten_le {bits : ℕ} (h : n < 2 ^ bits) : digitCount 10 n ≤ bits := by
  by_cases hn : n = 0
  · subst hn
    exact Nat.zero_le bits
  · rw [digitCount_eq (by decide) hn]
    exact Nat.log_lt_of_lt_pow hn (lt_of_lt_of_le h (Nat.pow_le_pow_left (by decide) bits))

end Numeral

namespace Ratio

variable {r : Ratio} {count : ℕ}

def value (r : Ratio) : ℚ := r.numerator / r.denominator

theorem value_eq_zero_iff : r.value = 0 ↔ r.numerator = 0 := by
  have hd : r.denominator ≠ 0 := r.denominator_pos.ne'
  simp [value, hd]

theorem value_ofNat (n : ℕ) : (ofNat n).value = n := by
  rw [value, ofNat, Nat.cast_one, div_one]

theorem value_nonneg (r : Ratio) : 0 ≤ r.value :=
  div_nonneg (Nat.cast_nonneg _) (Nat.cast_nonneg _)

theorem value_pos (h : r.numerator ≠ 0) : 0 < r.value :=
  lt_of_le_of_ne r.value_nonneg fun hzero => h (value_eq_zero_iff.mp hzero.symm)

theorem zpow_ten_eq_div (e : ℤ) : (10 : ℚ) ^ e = 10 ^ e.toNat / 10 ^ (-e).toNat := by
  rw [← zpow_natCast, ← zpow_natCast, ← zpow_sub₀ (by norm_num)]
  congr 1
  omega

/-- The places of a quotient to the right of the point are multiplied into its numerator, those to
the left into its denominator. -/
theorem coe_roundedTo (r : Ratio) (places : ℤ) :
    (r.roundedTo places : ℤ) = nearestEven (r.value * 10 ^ places) := by
  rw [roundedTo, coe_roundHalfEven (Nat.mul_pos r.denominator_pos (Nat.pow_pos (by decide)))]
  congr 1
  push_cast
  rw [value, zpow_ten_eq_div, div_mul_div_comm]

theorem log_eq_of_bounds {q : ℚ} {e : ℤ} (hlow : (10 : ℚ) ^ e ≤ q) (hhigh : q < 10 ^ (e + 1)) :
    Int.log 10 q = e := by
  have hpos : 0 < q := lt_of_lt_of_le (zpow_pos (by norm_num) e) hlow
  have hle : e ≤ Int.log 10 q :=
    (Int.zpow_le_iff_le_log (by decide) hpos).mp (by exact_mod_cast hlow)
  have hlt : Int.log 10 q < e + 1 :=
    (Int.lt_zpow_iff_log_lt (by decide) hpos).mp (by exact_mod_cast hhigh)
  omega

/-- The exponent of the first digit is found by counting digits: those of the whole part, or those
of the whole number of times that the numerator goes into the denominator. -/
theorem decimalExponent_eq_log (h : r.numerator ≠ 0) : r.decimalExponent = Int.log 10 r.value := by
  have hn : (0 : ℚ) < r.numerator := by exact_mod_cast Nat.pos_of_ne_zero h
  have hd : (0 : ℚ) < r.denominator := by exact_mod_cast r.denominator_pos
  symm
  unfold decimalExponent
  split
  · next hle =>
    have hne : r.numerator / r.denominator ≠ 0 := (Nat.div_pos hle r.denominator_pos).ne'
    rw [Numeral.digitCount_eq (by decide) hne]
    have hlow : 10 ^ Nat.log 10 (r.numerator / r.denominator) * r.denominator ≤ r.numerator :=
      Nat.mul_le_of_le_div _ _ _ (Nat.pow_log_le_self 10 hne)
    have hhigh : r.numerator <
        10 ^ (Nat.log 10 (r.numerator / r.denominator) + 1) * r.denominator :=
      (Nat.div_lt_iff_lt_mul r.denominator_pos).mp (Nat.lt_pow_succ_log_self (by decide) _)
    generalize Nat.log 10 (r.numerator / r.denominator) = e at hlow hhigh
    push_cast
    rw [add_sub_cancel_right]
    apply log_eq_of_bounds
    · rw [value, le_div_iff₀ hd, zpow_natCast]
      exact_mod_cast hlow
    · rw [value, div_lt_iff₀ hd, ← Nat.cast_succ, zpow_natCast]
      exact_mod_cast hhigh
  · next hgt =>
    have hne : (r.denominator - 1) / r.numerator ≠ 0 :=
      (Nat.div_pos (by omega) (Nat.pos_of_ne_zero h)).ne'
    rw [Numeral.digitCount_eq (by decide) hne]
    have hlow : 10 ^ Nat.log 10 ((r.denominator - 1) / r.numerator) * r.numerator ≤
        r.denominator - 1 :=
      Nat.mul_le_of_le_div _ _ _ (Nat.pow_log_le_self 10 hne)
    have hhigh : r.denominator - 1 <
        10 ^ (Nat.log 10 ((r.denominator - 1) / r.numerator) + 1) * r.numerator :=
      (Nat.div_lt_iff_lt_mul (Nat.pos_of_ne_zero h)).mp (Nat.lt_pow_succ_log_self (by decide) _)
    generalize Nat.log 10 ((r.denominator - 1) / r.numerator) = e at hlow hhigh
    have hlow : 10 ^ e * r.numerator < r.denominator := by
      have := r.denominator_pos
      omega
    have hhigh : r.denominator ≤ 10 ^ (e + 1) * r.numerator := by omega
    apply log_eq_of_bounds
    · rw [value, le_div_iff₀ hd, zpow_neg, zpow_natCast, inv_mul_le_iff₀ (by positivity)]
      exact_mod_cast hhigh
    · have hexponent : -((e + 1 : ℕ) : ℤ) + 1 = -(e : ℤ) := by omega
      rw [value, div_lt_iff₀ hd, hexponent, zpow_neg, zpow_natCast, lt_inv_mul_iff₀ (by positivity)]
      exact_mod_cast hlow

section Significant

/-- The value in units of the last of a count of significant digits. -/
def scaled (r : Ratio) (count : ℕ) : ℚ := r.value * 10 ^ (count - 1 - r.decimalExponent)

theorem zpow_ten_add (a b : ℤ) : (10 : ℚ) ^ a * 10 ^ b = 10 ^ (a + b) :=
  (zpow_add₀ (by norm_num) a b).symm

theorem coe_pow_ten (count : ℕ) : ((10 ^ count : ℕ) : ℚ) = 10 ^ (count : ℤ) := by
  push_cast
  exact (zpow_natCast _ _).symm

theorem coe_pow_ten_pred (hcount : 0 < count) :
    ((10 ^ (count - 1) : ℕ) : ℚ) = 10 ^ ((count : ℤ) - 1) := by
  rw [coe_pow_ten, Nat.cast_pred hcount]

theorem le_scaled (h : r.numerator ≠ 0) (hcount : 0 < count) :
    ((10 ^ (count - 1) : ℕ) : ℚ) ≤ r.scaled count := by
  have hlow : (10 : ℚ) ^ r.decimalExponent ≤ r.value := by
    rw [decimalExponent_eq_log h]
    exact_mod_cast Int.zpow_log_le_self (b := 10) (by decide) (value_pos h)
  calc ((10 ^ (count - 1) : ℕ) : ℚ)
      = 10 ^ r.decimalExponent * 10 ^ (count - 1 - r.decimalExponent) := by
        rw [coe_pow_ten_pred hcount, zpow_ten_add, add_sub_cancel]
    _ ≤ r.scaled count := mul_le_mul_of_nonneg_right hlow (zpow_nonneg (by norm_num) _)

theorem scaled_lt (h : r.numerator ≠ 0) : r.scaled count < (10 ^ count : ℕ) := by
  have hhigh : r.value < 10 ^ (r.decimalExponent + 1) := by
    rw [decimalExponent_eq_log h]
    exact_mod_cast Int.lt_zpow_succ_log_self (b := 10) (by decide) r.value
  calc r.scaled count < 10 ^ (r.decimalExponent + 1) * 10 ^ (count - 1 - r.decimalExponent) :=
        mul_lt_mul_of_pos_right hhigh (zpow_pos (by norm_num) _)
    _ = (10 ^ count : ℕ) := by
        rw [coe_pow_ten, zpow_ten_add]
        congr 1
        omega

theorem coe_roundedTo_count (r : Ratio) (count : ℕ) :
    (r.roundedTo (count - 1 - r.decimalExponent) : ℤ) = nearestEven (r.scaled count) :=
  coe_roundedTo r _

theorem le_roundedTo_count (h : r.numerator ≠ 0) (hcount : 0 < count) :
    10 ^ (count - 1) ≤ r.roundedTo (count - 1 - r.decimalExponent) := by
  have hle := le_nearestEven (n := (10 ^ (count - 1) : ℕ)) (by exact_mod_cast le_scaled h hcount)
  rw [← coe_roundedTo_count] at hle
  exact_mod_cast hle

theorem roundedTo_count_le (h : r.numerator ≠ 0) :
    r.roundedTo (count - 1 - r.decimalExponent) ≤ 10 ^ count := by
  have hscaled : r.scaled count ≤ (10 ^ count : ℕ) := le_of_lt (scaled_lt h)
  have hle := nearestEven_le (n := (10 ^ count : ℕ)) (by exact_mod_cast hscaled)
  rw [← coe_roundedTo_count] at hle
  exact_mod_cast hle

theorem significant_of_zero (h : r.numerator = 0) : r.significant count = ⟨0, 0⟩ := if_pos h

/-- Either the digits are the rounded ones, or these are a power of ten and the exponent is one
more. -/
theorem significant_cases (h : r.numerator ≠ 0) (count : ℕ) :
    r.significant count = ⟨r.roundedTo (count - 1 - r.decimalExponent), r.decimalExponent⟩ ∧
        r.roundedTo (count - 1 - r.decimalExponent) < 10 ^ count ∨
      r.significant count = ⟨10 ^ (count - 1), r.decimalExponent + 1⟩ ∧
        r.roundedTo (count - 1 - r.decimalExponent) = 10 ^ count := by
  by_cases hcarry : r.roundedTo (count - 1 - r.decimalExponent) = 10 ^ count
  · exact .inr ⟨by simp only [significant, if_neg h, if_pos hcarry], hcarry⟩
  · exact .inl ⟨by simp only [significant, if_neg h, if_neg hcarry],
      lt_of_le_of_ne (roundedTo_count_le h) hcarry⟩

theorem significant_exponent_cases (h : r.numerator ≠ 0) (count : ℕ) :
    (r.significant count).exponent = r.decimalExponent ∨
      (r.significant count).exponent = r.decimalExponent + 1 := by
  obtain ⟨heq, -⟩ | ⟨heq, -⟩ := significant_cases h count
  · exact .inl (congrArg Significant.exponent heq)
  · exact .inr (congrArg Significant.exponent heq)

theorem le_significant (h : r.numerator ≠ 0) (hcount : 0 < count) :
    10 ^ (count - 1) ≤ (r.significant count).digits := by
  obtain ⟨heq, -⟩ | ⟨heq, -⟩ := significant_cases h count
  · rw [heq]
    exact le_roundedTo_count h hcount
  · rw [heq]

theorem significant_lt (hcount : 0 < count) : (r.significant count).digits < 10 ^ count := by
  by_cases h : r.numerator = 0
  · rw [significant_of_zero h]
    exact Nat.pow_pos (by decide)
  · obtain ⟨heq, hlt⟩ | ⟨heq, -⟩ := significant_cases h count
    · rw [heq]
      exact hlt
    · rw [heq]
      exact Nat.pow_lt_pow_right (by decide) (by omega)

/-- The digits and the exponent make up the rounded number. -/
theorem significantly_value (r : Ratio) (hcount : 0 < count) : significantly count r.value =
    (r.significant count).digits * 10 ^ ((r.significant count).exponent - (count - 1)) := by
  by_cases h : r.numerator = 0
  · rw [significant_of_zero h, value_eq_zero_iff.mpr h]
    simp [significantly, nearestEven]
  · have hunits : nearestEven (r.value / 10 ^ (r.decimalExponent - (count - 1))) =
        r.roundedTo (count - 1 - r.decimalExponent) := by
      rw [coe_roundedTo_count, scaled, div_eq_mul_inv, ← zpow_neg, neg_sub]
    rw [significantly, ← decimalExponent_eq_log h, hunits, Int.cast_natCast]
    obtain ⟨heq, -⟩ | ⟨heq, hcarry⟩ := significant_cases h count
    · rw [heq]
    · have hexponent : (count : ℤ) + (r.decimalExponent - (count - 1)) =
          count - 1 + (r.decimalExponent + 1 - (count - 1)) := by omega
      rw [heq, hcarry, coe_pow_ten_pred hcount, coe_pow_ten, zpow_ten_add, zpow_ten_add, hexponent]

theorem log_significantly (r : Ratio) (hcount : 0 < count) :
    Int.log 10 (significantly count r.value) = (r.significant count).exponent := by
  rw [significantly_value r hcount]
  by_cases h : r.numerator = 0
  · rw [significant_of_zero h]
    simp
  · generalize hs : r.significant count = s
    have hunit : (0 : ℚ) < 10 ^ (s.exponent - (count - 1)) := zpow_pos (by norm_num) _
    have hlow : ((10 ^ (count - 1) : ℕ) : ℚ) ≤ s.digits := by
      exact_mod_cast hs ▸ le_significant h hcount
    have hhigh : (s.digits : ℚ) < (10 ^ count : ℕ) := by
      exact_mod_cast hs ▸ significant_lt hcount
    apply log_eq_of_bounds
    · calc (10 : ℚ) ^ s.exponent
          = (10 ^ (count - 1) : ℕ) * 10 ^ (s.exponent - (count - 1)) := by
            rw [coe_pow_ten_pred hcount, zpow_ten_add, add_sub_cancel]
        _ ≤ s.digits * 10 ^ (s.exponent - (count - 1)) := mul_le_mul_of_nonneg_right hlow hunit.le
    · calc (s.digits : ℚ) * 10 ^ (s.exponent - (count - 1))
          < (10 ^ count : ℕ) * 10 ^ (s.exponent - (count - 1)) :=
            mul_lt_mul_of_pos_right hhigh hunit
        _ = 10 ^ (s.exponent + 1) := by
            rw [coe_pow_ten, zpow_ten_add]
            congr 1
            omega

/-- Rounding at the last of the significant places, once they are known, gives the same digits. -/
theorem roundedTo_significant (r : Ratio) (hcount : 0 < count) :
    r.roundedTo (count - 1 - (r.significant count).exponent) = (r.significant count).digits := by
  by_cases h : r.numerator = 0
  · have hzero : (r.roundedTo (count - 1 - (r.significant count).exponent) : ℤ) = 0 := by
      rw [coe_roundedTo, value_eq_zero_iff.mpr h]
      simp [nearestEven]
    rw [significant_of_zero h] at hzero ⊢
    exact_mod_cast hzero
  · obtain ⟨heq, -⟩ | ⟨heq, hcarry⟩ := significant_cases h count
    · rw [heq]
    · -- The first rounding went up to a power of ten; one place less keeps its error below
      -- half a unit.
      have hround := abs_sub_nearestEven_le (r.scaled count)
      rw [← coe_roundedTo_count, hcarry, Int.cast_natCast, coe_pow_ten] at hround
      have hten : nearestEven (r.scaled count * 10 ^ (-1 : ℤ)) = (10 ^ (count - 1) : ℕ) := by
        have hpow : (10 : ℚ) ^ ((count : ℤ) - 1) = 10 ^ (count : ℤ) * 10 ^ (-1 : ℤ) := by
          rw [zpow_ten_add, sub_eq_add_neg]
        have htenth : |(10 : ℚ) ^ (-1 : ℤ)| = 1 / 10 := by norm_num
        apply nearestEven_of_abs_lt
        rw [Int.cast_natCast, coe_pow_ten_pred hcount, hpow, ← sub_mul, abs_mul, htenth]
        linarith
      have hplaces : (count : ℤ) - 1 - (r.decimalExponent + 1) =
          count - 1 - r.decimalExponent + -1 := by omega
      have hrounded := coe_roundedTo r (count - 1 - r.decimalExponent + -1)
      rw [← zpow_ten_add, ← mul_assoc] at hrounded
      rw [heq, hplaces]
      exact_mod_cast hrounded.trans hten

end Significant

end Ratio

end TextTemplate
