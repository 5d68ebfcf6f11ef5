import TextTemplate.Proofs.Nearest

/-! Rounding keeps the order of numbers: to integers, to a count of significant digits, and to the
numbers of a floating-point format. -/
namespace TextTemplate

section Rounding

variable {p q : ℚ} {count : ℕ}

/-- Two numbers that are rounded against their order are ties, and so they are one number. -/
theorem nearestEven_mono (h : p ≤ q) : nearestEven p ≤ nearestEven q := by
  by_contra hlt
  have hp := (abs_le.mp (abs_sub_nearestEven_le p)).1
  have hq := (abs_le.mp (abs_sub_nearestEven_le q)).2
  have hgap : (nearestEven q : ℚ) + 1 ≤ nearestEven p := by
    exact_mod_cast Int.add_one_le_of_lt (lt_of_not_ge hlt)
  have heq : p = q := by linarith
  rw [heq] at hlt
  exact hlt le_rfl

theorem nearestEven_zero : nearestEven 0 = 0 := by
  simp [nearestEven]

theorem significantly_zero (count : ℕ) : significantly count 0 = 0 := by
  simp [significantly, nearestEven_zero]

theorem pow_mul_zpow_ten (count : ℕ) (e : ℤ) :
    ((10 ^ count : ℕ) : ℚ) * 10 ^ e = 10 ^ (e + count) := by
  rw [Ratio.coe_pow_ten, Ratio.zpow_ten_add, add_comm]

theorem pow_pred_mul_zpow_ten (hcount : 0 < count) (e : ℤ) :
    ((10 ^ (count - 1) : ℕ) : ℚ) * 10 ^ e = 10 ^ (e + (count - 1)) := by
  rw [Ratio.coe_pow_ten_pred hcount, Ratio.zpow_ten_add, add_comm]

/-- The weight of the last of a count of significant digits. -/
def lastPlace (count : ℕ) (q : ℚ) : ℚ := 10 ^ (Int.log 10 q - (count - 1))

theorem lastPlace_pos : 0 < lastPlace count q := zpow_pos (by norm_num) _

theorem significantly_eq (count : ℕ) (q : ℚ) :
    significantly count q = nearestEven (q / lastPlace count q) * lastPlace count q := rfl

theorem pow_mul_lastPlace (count : ℕ) (q : ℚ) :
    ((10 ^ count : ℕ) : ℚ) * lastPlace count q = 10 ^ (Int.log 10 q + 1) := by
  rw [lastPlace, pow_mul_zpow_ten]
  congr 1
  omega

theorem pow_pred_mul_lastPlace (hcount : 0 < count) (q : ℚ) :
    ((10 ^ (count - 1) : ℕ) : ℚ) * lastPlace count q = 10 ^ Int.log 10 q := by
  rw [lastPlace, pow_pred_mul_zpow_ten hcount, sub_add_cancel]

/-- Rounding stays above the power of ten at which the digits of a number begin. -/
theorem zpow_log_le_significantly (hcount : 0 < count) (hq : 0 < q) :
    10 ^ Int.log 10 q ≤ significantly count q := by
  have hlow : (10 : ℚ) ^ Int.log 10 q ≤ q := by
    exact_mod_cast Int.zpow_log_le_self (b := 10) (by decide) hq
  have hdigits : ((10 ^ (count - 1) : ℕ) : ℚ) ≤ q / lastPlace count q := by
    rw [le_div_iff₀ lastPlace_pos, pow_pred_mul_lastPlace hcount]
    exact hlow
  have hround := le_nearestEven (n := (10 ^ (count - 1) : ℕ)) (by exact_mod_cast hdigits)
  rw [← pow_pred_mul_lastPlace hcount, significantly_eq]
  apply mul_le_mul_of_nonneg_right _ lastPlace_pos.le
  exact_mod_cast hround

/-- Rounding goes up to the next power of ten at most. -/
theorem significantly_le_zpow_log_succ (count : ℕ) (q : ℚ) :
    significantly count q ≤ 10 ^ (Int.log 10 q + 1) := by
  have hhigh : q < 10 ^ (Int.log 10 q + 1) := by
    exact_mod_cast Int.lt_zpow_succ_log_self (b := 10) (by decide) q
  have hdigits : q / lastPlace count q ≤ ((10 ^ count : ℕ) : ℚ) := by
    rw [div_le_iff₀ lastPlace_pos, pow_mul_lastPlace]
    exact hhigh.le
  have hround := nearestEven_le (n := (10 ^ count : ℕ)) (by exact_mod_cast hdigits)
  rw [← pow_mul_lastPlace count, significantly_eq]
  apply mul_le_mul_of_nonneg_right _ lastPlace_pos.le
  exact_mod_cast hround

/-- Numbers of one decimal exponent are rounded at one place; between numbers of different ones lies
a power of ten that neither rounding crosses. -/
theorem significantly_mono (hcount : 0 < count) (hp : 0 ≤ p) (h : p ≤ q) :
    significantly count p ≤ significantly count q := by
  rcases eq_or_lt_of_le hp with rfl | hp
  · rw [significantly_zero]
    rcases eq_or_lt_of_le h with rfl | hq
    · rw [significantly_zero]
    · exact (zpow_pos (by norm_num) _).le.trans (zpow_log_le_significantly hcount hq)
  · have hq : 0 < q := lt_of_lt_of_le hp h
    rcases eq_or_lt_of_le (Int.log_mono_right (b := 10) hp h) with hlog | hlog
    · have hplace : lastPlace count p = lastPlace count q := by rw [lastPlace, lastPlace, hlog]
      have hpos : 0 < lastPlace count q := lastPlace_pos
      have hround := nearestEven_mono (div_le_div_of_nonneg_right h hpos.le)
      rw [significantly_eq, significantly_eq, hplace]
      apply mul_le_mul_of_nonneg_right _ hpos.le
      exact_mod_cast hround
    · calc significantly count p ≤ 10 ^ (Int.log 10 p + 1) := significantly_le_zpow_log_succ count p
        _ ≤ 10 ^ Int.log 10 q := zpow_le_zpow_right₀ (by norm_num) hlog
        _ ≤ significantly count q := zpow_log_le_significantly hcount hq

end Rounding

namespace Magnitude

variable {f : FloatFormat} {r r' : Ratio} {m m' : Magnitude f} {q x y : ℚ}

/-- Of two numbers, the greater one is nearer only from their middle on. -/
theorem half_add_le_of_abs_sub_le (hlt : y < x) (h : |q - x| ≤ |q - y|) : (x + y) / 2 ≤ q := by
  have hsquares := sq_le_sq.mpr h
  by_contra hbelow
  have hpos : 0 < (x - y) * (x + y - 2 * q) := mul_pos (by linarith) (by linarith)
  nlinarith

/-- Of two numbers, the lesser one is nearer only up to their middle. -/
theorem le_half_add_of_abs_sub_le (hlt : y < x) (h : |q - y| ≤ |q - x|) : q ≤ (x + y) / 2 := by
  have hsquares := sq_le_sq.mpr h
  by_contra habove
  have hpos : 0 < (x - y) * (2 * q - (x + y)) := mul_pos (by linarith) (by linarith)
  nlinarith

/-- Quotients whose nearest numbers were in the other order would be one quotient, in the middle of
both. -/
theorem value_le_of_nearest? (h : nearest? f r = some m) (h' : nearest? f r' = some m')
    (hle : r.value ≤ r'.value) : m.toRatio.value ≤ m'.toRatio.value := by
  by_contra hlt
  have hlt := lt_of_not_ge hlt
  have hlow := half_add_le_of_abs_sub_le hlt ((isNearest_of_nearest? h).abs_sub_le m')
  have hhigh := le_half_add_of_abs_sub_le hlt ((isNearest_of_nearest? h').abs_sub_le m)
  have heq : r.value = r'.value := le_antisymm hle (hhigh.trans hlow)
  have hm : m.IsNearest r'.value := heq ▸ isNearest_of_nearest? h
  rw [hm.eq_of_nearest? h'] at hlt
  exact lt_irrefl _ hlt

end Magnitude

end TextTemplate
