import TextTemplate.Proofs.Monotone
import TextTemplate.Proofs.ReadBack
import TextTemplate.Proofs.Rendering

/-! General notation is stable under reading. Six decimal digits lie so much farther apart than
normal doubles that the double nearest to six digits is rounded back to the same six digits. -/
namespace TextTemplate

section Digits

variable {count n : ℕ} {k e : ℤ} {q : ℚ}

theorem log_natCast_mul_zpow (e : ℤ) (hlow : 10 ^ count ≤ n) (hhigh : n < 10 ^ (count + 1)) :
    Int.log 10 (n * 10 ^ e : ℚ) = e + count := by
  have hten : (0 : ℚ) < 10 ^ e := zpow_pos (by norm_num) e
  apply Ratio.log_eq_of_bounds
  · rw [add_comm, ← Ratio.zpow_ten_add, zpow_natCast]
    apply mul_le_mul_of_nonneg_right _ hten.le
    exact_mod_cast hlow
  · rw [add_assoc, add_comm, ← Ratio.zpow_ten_add, ← Nat.cast_succ, zpow_natCast]
    apply mul_lt_mul_of_pos_right _ hten
    exact_mod_cast hhigh

/-- Half a unit of the last significant place leads back to the digits. -/
theorem significantly_eq_of_log (hlog : Int.log 10 q = e + (count - 1))
    (h : |q - k * 10 ^ e| < 10 ^ e / 2) : significantly count q = k * 10 ^ e := by
  have hplace : lastPlace count q = 10 ^ e := by rw [lastPlace, hlog, add_sub_cancel_right]
  have hten : (0 : ℚ) < 10 ^ e := zpow_pos (by norm_num) e
  rw [abs_sub_mul_eq hten] at h
  have hhalf : |q / 10 ^ e - k| < 1 / 2 := by
    by_contra hfar
    have hfar := mul_le_mul_of_nonneg_right (le_of_not_gt hfar) hten.le
    linarith
  rw [significantly_eq, hplace, nearestEven_of_abs_lt hhalf]

/-- A number that is near to `count` digits and begins at the same power of ten has them at the same
places. -/
theorem log_eq_of_near_of_le (hhigh : n < 10 ^ count) (h : |q - n * 10 ^ e| < 10 ^ e / 20)
    (hbegin : 10 ^ (e + (count - 1)) ≤ q) : Int.log 10 q = e + (count - 1) := by
  have hten : (0 : ℚ) < 10 ^ e := zpow_pos (by norm_num) e
  have hbounds := abs_lt.mp h
  have hnext : (10 : ℚ) ^ (e + (count - 1) + 1) = (10 ^ count : ℕ) * 10 ^ e := by
    rw [pow_mul_zpow_ten]
    congr 1
    omega
  have hdigits : (n : ℚ) + 1 ≤ (10 ^ count : ℕ) := by exact_mod_cast hhigh
  have hdigits := mul_le_mul_of_nonneg_right hdigits hten.le
  apply Ratio.log_eq_of_bounds hbegin
  rw [hnext]
  linarith

/-- Near to `count` digits and below the power of ten at which they begin, the digits are those of
the power, and the number has one place more behind them. -/
theorem log_eq_of_near_of_lt (hcount : 0 < count) (hlow : 10 ^ (count - 1) ≤ n)
    (h : |q - n * 10 ^ e| < 10 ^ e / 20) (hbelow : q < 10 ^ (e + (count - 1))) :
    Int.log 10 q = e - 1 + (count - 1) := by
  have hten : (0 : ℚ) < 10 ^ e := zpow_pos (by norm_num) e
  have hbounds := abs_lt.mp h
  rw [← pow_pred_mul_zpow_ten hcount] at hbelow
  have hn : n = 10 ^ (count - 1) := by
    by_contra hne
    have hgap : ((10 ^ (count - 1) : ℕ) : ℚ) + 1 ≤ n := by
      exact_mod_cast Nat.lt_of_le_of_ne hlow (Ne.symm hne)
    have hgap := mul_le_mul_of_nonneg_right hgap hten.le
    linarith
  have hone : (1 : ℚ) ≤ n := by
    rw [hn]
    exact_mod_cast Nat.one_le_pow _ _ (by decide)
  have hone := mul_le_mul_of_nonneg_right hone hten.le
  rw [← hn] at hbelow
  apply Ratio.log_eq_of_bounds
  · rw [← pow_pred_mul_zpow_ten hcount, ← hn, zpow_sub₀ (by norm_num), zpow_one]
    linarith
  · have hexponent : e - 1 + ((count : ℤ) - 1) + 1 = e + (count - 1) := by omega
    rw [hexponent, ← pow_pred_mul_zpow_ten hcount, ← hn]
    exact hbelow

/-- A twentieth of a unit leads back to the digits also just below a power of ten, where the last
place of a number has a tenth of the weight. -/
theorem significantly_eq_of_near (hcount : 0 < count) (hlow : 10 ^ (count - 1) ≤ n)
    (hhigh : n < 10 ^ count) (h : |q - n * 10 ^ e| < 10 ^ e / 20) :
    significantly count q = n * 10 ^ e := by
  have hten : (0 : ℚ) < 10 ^ e := zpow_pos (by norm_num) e
  rcases le_or_gt (10 ^ (e + (count - 1))) q with hbegin | hbelow
  · have hround := significantly_eq_of_log (k := n) (log_eq_of_near_of_le hhigh h hbegin)
    push_cast at hround
    exact hround (by linarith)
  · have htenth : (10 : ℚ) ^ (e - 1) = 10 ^ e / 10 := by rw [zpow_sub₀ (by norm_num), zpow_one]
    have hsame : (10 : ℚ) * n * (10 ^ e / 10) = n * 10 ^ e := by ring
    have hround := significantly_eq_of_log (k := 10 * n) (log_eq_of_near_of_lt hcount hlow h hbelow)
    push_cast at hround
    rw [htenth, hsame] at hround
    apply hround
    linarith

theorem lastPlace_le (hcount : 0 < count) (hq : 0 < q) : lastPlace count q ≤ q := by
  have hone : (1 : ℚ) ≤ (10 ^ (count - 1) : ℕ) := by
    exact_mod_cast Nat.one_le_pow _ _ (by decide)
  calc lastPlace count q ≤ (10 ^ (count - 1) : ℕ) * lastPlace count q :=
        le_mul_of_one_le_left lastPlace_pos.le hone
    _ = 10 ^ Int.log 10 q := pow_pred_mul_lastPlace hcount q
    _ ≤ q := by exact_mod_cast Int.zpow_log_le_self (b := 10) (by decide) hq

/-- Rounding to significant digits leaves at least half of a number. -/
theorem half_le_significantly (hcount : 0 < count) (hq : 0 < q) :
    q / 2 ≤ significantly count q := by
  have hround := (abs_le.mp (abs_sub_nearestEven_le (q / lastPlace count q))).2
  have hpos : 0 < lastPlace count q := lastPlace_pos
  have hround := mul_le_mul_of_nonneg_right hround hpos.le
  rw [sub_mul, div_mul_cancel₀ q hpos.ne', ← significantly_eq] at hround
  have hplace := lastPlace_le hcount hq
  linarith

/-- The least number of ten digits above all doubles, but for its place, does not go up at the sixth
digit. -/
theorem significantly_ceiling (e : ℕ) :
    significantly 6 (1797693135 * 10 ^ e : ℕ) = (179769 * 10 ^ (e + 4) : ℕ) := by
  have hten : (0 : ℚ) < 10 ^ (e : ℤ) := zpow_pos (by norm_num) _
  have hpow : (10 : ℚ) ^ ((e : ℤ) + 4) = 10000 * 10 ^ (e : ℤ) := by
    rw [← Ratio.zpow_ten_add, mul_comm]
    norm_num
  have hlog : Int.log 10 ((1797693135 : ℕ) * 10 ^ (e : ℤ) : ℚ) = e + (9 : ℕ) :=
    log_natCast_mul_zpow e (by decide) (by decide)
  have hround : significantly 6 ((1797693135 : ℕ) * 10 ^ (e : ℤ)) =
      (179769 : ℕ) * 10 ^ ((e : ℤ) + 4) := by
    apply significantly_eq_of_log (k := (179769 : ℕ))
    · rw [hlog]
      push_cast
      ring
    · rw [hpow, abs_lt]
      push_cast
      constructor <;> linarith
  exact_mod_cast hround

end Digits

namespace Magnitude

variable {f : FloatFormat} {r : Ratio} {m : Magnitude f} {b : ℕ}

/-- From half of the least normal number on, a unit is small against the number. -/
theorem two_pow_mul_unit_le (h : 2 ^ f.fractionBits / 2 ^ f.scale ≤ 2 * r.value) :
    2 ^ f.fractionBits * unit f r ≤ 2 * r.value := by
  by_cases hshift : nearestShift f r = 0
  · rw [unit, hshift, pow_zero, mul_one_div]
    exact h
  · have hbegin := two_pow_mul_unit_le_value hshift
    have hnonneg := r.value_nonneg
    linarith

/-- The relative error of the nearest number. -/
theorem abs_sub_mul_two_pow_le (h : nearest? f r = some m)
    (hlarge : 2 ^ f.fractionBits / 2 ^ f.scale ≤ 2 * r.value) :
    |m.toRatio.value - r.value| * 2 ^ f.fractionBits ≤ r.value := by
  have herror : |m.toRatio.value - r.value| ≤ unit f r / 2 := by
    have hround := abs_sub_nearestEven_le (r.value / unit f r)
    have hround := mul_le_mul_of_nonneg_right hround (unit_pos (f := f) (r := r)).le
    rw [← abs_sub_eq_mul_unit h, abs_sub_comm] at hround
    linarith
  have hunit := two_pow_mul_unit_le hlarge
  have herror := mul_le_mul_of_nonneg_right herror (show (0 : ℚ) ≤ 2 ^ f.fractionBits by positivity)
  linarith

theorem value_lt_two_pow (m : Magnitude f) : m.toRatio.value < 2 ^ f.digits * topUnit f := by
  have hnumerator : m.significand * 2 ^ m.shift < 2 ^ f.digits * 2 ^ f.maxShift :=
    calc m.significand * 2 ^ m.shift < 2 ^ f.digits * 2 ^ m.shift :=
          Nat.mul_lt_mul_of_pos_right m.significand_lt (Nat.two_pow_pos _)
      _ ≤ 2 ^ f.digits * 2 ^ f.maxShift :=
          Nat.mul_le_mul_left _ (Nat.pow_le_pow_right (by decide) m.shift_le)
  rw [value_toRatio, topUnit, ← mul_div_assoc, Nat.cast_pow 2 f.scale, Nat.cast_ofNat,
    div_lt_div_iff_of_pos_right (by positivity)]
  exact_mod_cast hnumerator

theorem value_le_of_two_pow_le (m : Magnitude f)
    (h : 2 ^ f.digits * 2 ^ f.maxShift ≤ b * 2 ^ f.scale) :
    m.toRatio.value ≤ b := by
  apply m.value_lt_two_pow.le.trans
  rw [topUnit, ← mul_div_assoc, div_le_iff₀ (by positivity)]
  exact_mod_cast h

theorem lt_overflow (h : b * 2 ^ f.scale * 2 + 2 ^ f.maxShift < 2 ^ f.digits * 2 ^ f.maxShift * 2) :
    (b : ℚ) < overflow f := by
  have h : (b : ℚ) * 2 ^ f.scale * 2 + 2 ^ f.maxShift < 2 ^ f.digits * 2 ^ f.maxShift * 2 := by
    exact_mod_cast h
  rw [overflow, topUnit, ← mul_div_assoc, lt_div_iff₀ (by positivity)]
  linarith

/-- The six digits of the greatest doubles are rounded down, and stay below the overflow. -/
theorem significantly_lt_overflow (m : Magnitude .double) :
    significantly 6 m.toRatio.value < overflow .double := by
  have hceiling : m.toRatio.value ≤ (1797693135 * 10 ^ 299 : ℕ) :=
    m.value_le_of_two_pow_le (by decide +kernel)
  have hdigits : (179769 * 10 ^ (299 + 4) : ℕ) < overflow .double := lt_overflow (by decide +kernel)
  generalize 299 = e at hceiling hdigits
  calc significantly 6 m.toRatio.value ≤ significantly 6 (1797693135 * 10 ^ e : ℕ) :=
        significantly_mono (by decide) m.toRatio.value_nonneg hceiling
    _ = (179769 * 10 ^ (e + 4) : ℕ) := significantly_ceiling e
    _ < overflow .double := hdigits

/-- Six digits of a normal double are too far from their neighbours to be confused by a rounding to
doubles. -/
theorem significantly_of_nearest? {m x : Magnitude .double} (hm : 1 / 2 ^ 1022 ≤ m.toRatio.value)
    (hr : r.value = significantly 6 m.toRatio.value) (hx : nearest? .double r = some x) :
    significantly 6 x.toRatio.value = r.value := by
  have hsix : 0 < 6 := by decide
  have hpos : 0 < m.toRatio.value := lt_of_lt_of_le (by positivity) hm
  have hnumerator : m.toRatio.numerator ≠ 0 := mt Ratio.value_eq_zero_iff.mpr hpos.ne'
  have hdigits := Ratio.significantly_value m.toRatio hsix
  have hlow := Ratio.le_significant hnumerator hsix
  have hhigh : (m.toRatio.significant 6).digits < 10 ^ 6 := Ratio.significant_lt hsix
  rw [← hr] at hdigits
  generalize (m.toRatio.significant 6).digits = n at hdigits hlow hhigh
  generalize (m.toRatio.significant 6).exponent - ((6 : ℕ) - 1) = e at hdigits
  have hlarge : 2 ^ FloatFormat.fractionBits .double / 2 ^ FloatFormat.scale .double ≤
      2 * r.value := by
    have hhalf := half_le_significantly hsix hpos
    have hscale : FloatFormat.scale .double = FloatFormat.fractionBits .double + 1022 := rfl
    have hleast :
        (2 : ℚ) ^ FloatFormat.fractionBits .double / 2 ^ FloatFormat.scale .double =
          1 / 2 ^ 1022 := by
      rw [hscale, pow_add, div_mul_eq_div_div, div_self (by positivity)]
    rw [hleast, hr]
    exact hm.trans (by linarith only [hhalf])
  have herror : |x.toRatio.value - r.value| * 2 ^ 52 ≤ r.value := abs_sub_mul_two_pow_le hx hlarge
  have hten : (0 : ℚ) < 10 ^ e := zpow_pos (by norm_num) e
  have hbelow : (n : ℚ) < 1000000 := by exact_mod_cast hhigh
  have hbelow := mul_lt_mul_of_pos_right hbelow hten
  rw [hdigits] at herror ⊢
  apply significantly_eq_of_near hsix hlow hhigh
  linarith

end Magnitude

open Numeral

variable {t : Text} {c : Char} {k : ℤ} {r : ℚ} {n : ℕ} {negative : Bool}

theorem IsWhole.isDigit_of_mem (h : IsWhole t k) (hc : c ∈ t) (hplus : c ≠ '+') (hminus : c ≠ '-') :
    c.isDigit = true := by
  obtain ⟨hsign, -, hdigits⟩ := h
  rcases List.mem_append.mp hc with hc | hc
  · rcases hsign with rfl | rfl | rfl
    · cases hc
    · exact absurd (List.mem_singleton.mp hc) hplus
    · exact absurd (List.mem_singleton.mp hc) hminus
  · exact hdigits c hc

namespace Numeral

theorem mem_withSign_of_mem (negative : Bool) (hc : c ∈ t) : c ∈ withSign negative t := by
  cases negative with
  | true => exact List.mem_cons_of_mem _ hc
  | false => exact hc

theorem withSign_decimal (hn : n ≠ 0) :
    withSign negative (decimal n) = ofInt (if negative then -(n : ℤ) else n) := by
  cases negative with
  | true =>
    have hlt : -(n : ℤ) < 0 := by omega
    rw [if_pos rfl, ofInt, decide_eq_true hlt, Int.natAbs_neg, Int.natAbs_natCast]
  | false =>
    have hge : ¬(n : ℤ) < 0 := by omega
    rw [if_neg Bool.false_ne_true, ofInt, decide_eq_false hge, Int.natAbs_natCast]

/-- General notation that is read as a whole number is a decimal numeral, without a point and an
exponent. -/
theorem IsGeneral.exists_eq_decimal (h : IsGeneral r t) (hwhole : IsWhole (withSign negative t) k) :
    ∃ n : ℕ, t = decimal n ∧ r = n := by
  have hmarks {c : Char} (hc : c ∈ t) (hplus : c ≠ '+') (hminus : c ≠ '-') : c.isDigit = true :=
    hwhole.isDigit_of_mem (mem_withSign_of_mem negative hc) hplus hminus
  cases h with
  | @positional whole fraction _ hplain =>
    by_cases hnil : fraction = []
    · subst hnil
      have hvalue := hplain.value
      rw [List.append_nil, List.length_nil, pow_zero, mul_one] at hvalue
      have hdecimal := isPlain_decimal (ofDecimal whole)
      rw [← hvalue] at hdecimal
      refine ⟨ofDecimal whole, ?_, hvalue⟩
      rw [pointed, if_pos rfl, List.append_nil]
      exact (hplain.unique hdecimal).1
    · have hpoint : '.' ∈ pointed whole fraction := by simp [pointed, hnil]
      cases hmarks hpoint (by decide) (by decide)
  | scientific _ _ _ =>
    cases hmarks (List.mem_append_right _ List.mem_cons_self) (by decide) (by decide)

end Numeral

namespace BinaryFloat

open Rendering

/-- What is read as an integer was written like one. -/
theorem decimal_eq_generalText {n : Integer .signed64} {m : Magnitude .double}
    (hm : 0 < m.toRatio.value) (hwhole : IsWhole (finite negative m).generalText n.value) :
    n.decimal = (finite negative m).generalText := by
  obtain ⟨t, htext, hgeneral⟩ := exists_generalText_eq negative m
  rw [htext] at hwhole ⊢
  obtain ⟨a, rfl, hvalue⟩ := hgeneral.exists_eq_decimal hwhole
  have ha : a ≠ 0 := by
    rintro rfl
    have hhalf : m.toRatio.value / 2 ≤ significantly 6 m.toRatio.value :=
      half_le_significantly (by decide) hm
    rw [hvalue, Nat.cast_zero] at hhalf
    linarith
  rw [withSign_decimal ha] at hwhole ⊢
  rw [Integer.decimal, hwhole.unique (isWhole_ofInt _)]

/-- What is read as a double is written again in the same six digits. -/
theorem generalText_nearest {d : Decimal} {m : Magnitude .double}
    (hm : 1 / 2 ^ 1022 ≤ m.toRatio.value) (hnegative : d.negative = negative)
    (hvalue : d.toRatio.value = significantly 6 m.toRatio.value) :
    d.nearest.generalText = (finite negative m).generalText := by
  have hlt : ¬Magnitude.overflow .double ≤ d.toRatio.value := by
    rw [hvalue]
    exact not_le_of_gt m.significantly_lt_overflow
  obtain ⟨x, hx⟩ := Option.ne_none_iff_exists'.mp (mt Magnitude.nearest?_eq_none_iff.mp hlt)
  have hsame := Magnitude.significantly_of_nearest? hm hvalue hx
  obtain ⟨t, htext, hgeneral⟩ := exists_generalText_eq negative m
  obtain ⟨t', htext', hgeneral'⟩ := exists_generalText_eq negative x
  rw [hsame, hvalue] at hgeneral'
  rw [Decimal.nearest_eq, nearest, hx, hnegative]
  simp only
  rw [htext, htext', hgeneral'.unique hgeneral]

/-- The default text of a normal double is read as a number, as an integer where it has neither a
point nor an exponent and as a double where it has one of them, and the number has the same default
text. -/
theorem generalText_stable (negative : Bool) (m : Magnitude .double)
    (hm : 1 / 2 ^ 1022 ≤ m.toRatio.value) :
    let t := (finite negative m).generalText
    (Argument.float (.finite negative m)).rendering [] = ofFields [t] ∧
      ((∃ n, Value.infer t = .integer n) ∨ ∃ x, Value.infer t = .float x) ∧
      (Argument.value (Value.infer t)).rendering [] = ofFields [t] := by
  intro t
  have hdefault {f : FloatFormat} (x : BinaryFloat f) : ofFloat x [] = ofFields [x.generalText] :=
    ofFloat_of_default rfl (by simp)
  refine ⟨hdefault _, ?_⟩
  by_cases hwhole : ∃ n : Integer .signed64, IsWhole t n.value
  · obtain ⟨n, hn⟩ := hwhole
    have hinfer : Value.infer t = .integer n := Value.infer_eq_of_infers (.integer hn)
    refine ⟨.inl ⟨n, hinfer⟩, ?_⟩
    have hpos : 0 < m.toRatio.value := lt_of_lt_of_le (by positivity) hm
    rw [hinfer, Argument.rendering, ofValue, ofInteger, integerText_eq_decimal n (by decide),
      decimal_eq_generalText hpos hn]
  · obtain ⟨u, htext, hgeneral⟩ := exists_generalText_eq negative m
    obtain ⟨d, hread, hnegative, hvalue⟩ := hgeneral.exists_ofText? negative
    rw [← htext] at hread
    have hliteral := Decimal.exists_ofText?_iff.mp ⟨d, hread, rfl, rfl⟩
    have hinfer : Value.infer t = .float d.nearest :=
      Value.infer_eq_of_infers <|
        .float (not_exists.mp hwhole) hliteral (Decimal.nearest_eq_iff.mp rfl)
    refine ⟨.inr ⟨_, hinfer⟩, ?_⟩
    rw [hinfer, Argument.rendering, ofValue, hdefault, generalText_nearest hm hnegative hvalue]

/-- The least normal double has six digits that no normal double is nearest to. -/
theorem generalText_stable_at_least_normal :
    let m : Magnitude .double := ⟨4503599627370496, 0, by decide, by decide, .inl rfl⟩
    let t := (finite true m).generalText
    1 / 2 ^ 1022 ≤ m.toRatio.value ∧
      (Argument.float (.finite true m)).rendering [] = ofFields [t] ∧
      ((∃ n, Value.infer t = .integer n) ∨ ∃ x, Value.infer t = .float x) ∧
      (Argument.value (Value.infer t)).rendering [] = ofFields [t] := by
  intro m t
  have hunits : 1 * 2 ^ FloatFormat.scale .double ≤ m.significand * 2 ^ m.shift * 2 ^ 1022 := by
    decide +kernel
  have hm : 1 / 2 ^ 1022 ≤ m.toRatio.value := by
    rw [Magnitude.value_toRatio, div_le_div_iff₀ (by positivity) (by positivity)]
    exact_mod_cast hunits
  exact ⟨hm, generalText_stable true m hm⟩

-- Zero is not normal: its sign is lost where its text is read as an integer.
example : (BinaryFloat.finite true (.zero .double)).generalText = "-0".toList ∧
    (Argument.value (Value.infer "-0".toList)).rendering [] = ofFields ["0".toList] := by
  decide +kernel

end BinaryFloat

end TextTemplate
