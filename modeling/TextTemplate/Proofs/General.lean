import TextTemplate.BinaryFloat.Notation
import TextTemplate.Proofs.Canonical

/-! General notation of floating-point numbers: six significant digits of the exact value,
positional or with an exponent, which denote exactly the rounded value. -/
namespace TextTemplate

theorem Text.splitOnce?_append {c : Char} {s t : Text} (h : c ∉ s) :
    Text.splitOnce? c (s ++ c :: t) = some (s, t) := by
  have hs : ∀ d ∈ s, decide (d ≠ c) = true := by
    intro d hd
    exact decide_eq_true fun heq => h (heq ▸ hd)
  have hstop : Text.StopsAt (fun d => decide (d ≠ c)) (c :: t) := Text.stopsAt_cons (by simp)
  rw [Text.splitOnce?, Text.dropWhile_append hs hstop, Text.takeWhile_append hs hstop]

namespace Magnitude

variable {f : FloatFormat}

theorem numerator_lt (m : Magnitude f) : m.toRatio.numerator < 2 ^ (f.digits + f.maxShift) :=
  calc m.significand * 2 ^ m.shift < 2 ^ f.digits * 2 ^ m.shift :=
        Nat.mul_lt_mul_of_pos_right m.significand_lt (Nat.two_pow_pos _)
    _ = 2 ^ (f.digits + m.shift) := (Nat.pow_add 2 _ _).symm
    _ ≤ 2 ^ (f.digits + f.maxShift) :=
        Nat.pow_le_pow_right (by decide) (Nat.add_le_add_left m.shift_le _)

/-- The numerator bounds the digits of the whole part, the denominator the places before the first
digit. -/
theorem decimalExponent_bounds (m : Magnitude f) :
    -(f.scale : ℤ) ≤ m.toRatio.decimalExponent ∧
      m.toRatio.decimalExponent < (f.digits + f.maxShift : ℕ) := by
  have hwhole : Numeral.digitCount 10 (m.toRatio.numerator / m.toRatio.denominator) ≤
      f.digits + f.maxShift :=
    Numeral.digitCount_ten_le (lt_of_le_of_lt (Nat.div_le_self _ _) m.numerator_lt)
  have hfront : Numeral.digitCount 10 ((m.toRatio.denominator - 1) / m.toRatio.numerator) ≤
      f.scale := by
    apply Numeral.digitCount_ten_le
    calc (2 ^ f.scale - 1) / m.toRatio.numerator ≤ 2 ^ f.scale - 1 := Nat.div_le_self _ _
      _ < 2 ^ f.scale := Nat.sub_lt (Nat.two_pow_pos _) Nat.one_pos
  have hdigits : 0 < f.digits := Nat.succ_pos _
  have hscale : 0 < f.scale := by cases f <;> decide
  unfold Ratio.decimalExponent
  split <;> omega

/-- Exponents of significant digits are far inside the range of 32 bits. -/
theorem significant_exponent_bounds (m : Magnitude f) (count : ℕ) :
    IntegerKind.signed32.low ≤ (m.toRatio.significant count).exponent ∧
      (m.toRatio.significant count).exponent < IntegerKind.signed32.bound := by
  have hscale : f.scale ≤ 1074 := by cases f <;> decide
  have hshift : f.digits + f.maxShift ≤ 2098 := by cases f <;> decide
  have hexponent := m.decimalExponent_bounds
  rw [IntegerKind.low_signed32, IntegerKind.bound_signed32]
  by_cases h : m.toRatio.numerator = 0
  · rw [Ratio.significant_of_zero h]
    decide
  · have hcases := Ratio.significant_exponent_cases h count
    omega

end Magnitude

namespace Numeral

/-- Six significant digits of a rational number: its plain numeral, or its mantissa's with an
exponent. -/
inductive IsGeneral (r : ℚ) : Text → Prop
  | positional {whole fraction : Text} (hrange : -4 ≤ Int.log 10 r ∧ Int.log 10 r < 6)
      (hplain : IsPlain whole fraction r) : IsGeneral r (pointed whole fraction)
  | scientific {whole fraction exponent : Text} (hrange : ¬(-4 ≤ Int.log 10 r ∧ Int.log 10 r < 6))
      (hmantissa : IsPlain whole fraction (r / 10 ^ Int.log 10 r))
      (hexponent : IsExponent exponent (Int.log 10 r).natAbs) :
      IsGeneral r
        (pointed whole fraction ++ 'e' :: (if Int.log 10 r < 0 then '-' else '+') :: exponent)

/-- General notation denotes exactly the number that it is the notation of. -/
theorem IsGeneral.exists_ofText? {r : ℚ} {t : Text} (h : IsGeneral r t) (negative : Bool) :
    ∃ d, Decimal.ofText? (withSign negative t) = some d ∧ d.negative = negative ∧
      d.toRatio.value = r := by
  cases h with
  | positional _ hplain =>
    have hread := Decimal.exists_ofText?_of_isPlain negative hplain Decimal.readExponent?_nil
    rwa [List.append_nil, zpow_zero, mul_one] at hread
  | scientific _ hmantissa hexponent =>
    have hten : (10 : ℚ) ^ Int.log 10 r ≠ 0 := zpow_ne_zero _ (by norm_num)
    have hread := Decimal.exists_ofText?_of_isPlain negative hmantissa
      (Decimal.readExponent?_of_isExponent 'e' (.inl rfl) hexponent)
    rwa [div_mul_cancel₀ _ hten, ← withSign_append] at hread

/-- A number has one text in general notation. -/
theorem IsGeneral.unique {r : ℚ} {s t : Text} (hs : IsGeneral r s) (ht : IsGeneral r t) :
    s = t := by
  cases hs with
  | positional hrange hplain =>
    cases ht with
    | positional _ hplain' =>
      obtain ⟨rfl, rfl⟩ := hplain.unique hplain'
      rfl
    | scientific hrange' _ _ => exact absurd hrange hrange'
  | scientific hrange hmantissa hexponent =>
    cases ht with
    | positional hrange' _ => exact absurd hrange' hrange
    | scientific _ hmantissa' hexponent' =>
      obtain ⟨rfl, rfl⟩ := hmantissa.unique hmantissa'
      rw [hexponent.unique hexponent']

theorem mem_withSign_pointed {negative : Bool} {whole fraction : Text} {c : Char}
    (h : c ∈ withSign negative (pointed whole fraction)) :
    c = '-' ∨ c = '.' ∨ c ∈ whole ++ fraction := by
  have hpointed (h : c ∈ pointed whole fraction) : c = '.' ∨ c ∈ whole ++ fraction := by
    obtain h | h := List.mem_append.mp h
    · exact .inr (List.mem_append_left _ h)
    · split at h
      · cases h
      · exact (List.mem_cons.mp h).imp_right (List.mem_append_right _)
  cases negative with
  | true => exact (List.mem_cons.mp h).imp_right hpointed
  | false => exact .inr (hpointed h)

theorem not_mem_withSign_withPlaces (negative : Bool) (places units : ℕ) :
    'e' ∉ withSign negative (withPlaces places units) := by
  rw [withPlaces_eq_pointed]
  intro h
  obtain h | h | h := mem_withSign_pointed h
  · cases h
  · cases h
  · have hdigit : 'e'.isDigit = true :=
      (List.mem_append.mp h).elim isDigit_of_mem_decimal isDigit_of_mem_fractionDigits
    cases hdigit

/-- What is left of a numeral with a fixed number of places. -/
theorem trimFraction_withPlaces (negative : Bool) (places units : ℕ) :
    trimFraction (withSign negative (withPlaces places units)) = withSign negative
      (pointed (decimal (units / 10 ^ places))
        (dropTrailing '0' (fractionDigits places units))) := by
  rw [withPlaces_eq_pointed]
  exact trimFraction_pointed negative (decimal_ne_nil _) (fun _ => isDigit_of_mem_decimal)
    fun _ => isDigit_of_mem_fractionDigits

end Numeral

namespace BinaryFloat

open Numeral

variable {f : FloatFormat}

/-- Exponential notation always splits, so nothing stands in for it. -/
theorem splitExponent?_finite (places : ℕ) (negative : Bool) (m : Magnitude f) :
    (finite negative m).splitExponent? places =
      some (withSign negative (withPlaces places (m.toRatio.significant (places + 1)).digits),
        (m.toRatio.significant (places + 1)).exponent) := by
  have hbounds := m.significant_exponent_bounds (places + 1)
  simp [splitExponent?, exponentialText, Text.splitOnce?_append (not_mem_withSign_withPlaces _ _ _),
    SignedNumeral.ofText?_ofInt, SignedNumeral.value_natAbs, Integer.ofInt?, hbounds]

theorem generalText_eq {x : BinaryFloat f} {mantissa : Text} {exponent : ℤ}
    (hfinite : x.nonFiniteText? = none) (hsplit : x.splitExponent? 5 = some (mantissa, exponent)) :
    x.generalText =
      if exponent < -4 ∨ 6 ≤ exponent then joinExponent (trimFraction mantissa) exponent
      else trimFraction (x.fixedText (5 - exponent).toNat) := by
  unfold generalText
  rw [hfinite, show generalDigits - 1 = 5 from rfl, hsplit]
  rfl

/-- Both roundings of general notation end in the digits of the number rounded once. -/
theorem exists_generalText_eq (negative : Bool) (m : Magnitude f) :
    ∃ t, (finite negative m).generalText = withSign negative t ∧
      IsGeneral (significantly 6 m.toRatio.value) t := by
  have hsix : 0 < 6 := by decide
  have hsplit := splitExponent?_finite 5 negative m
  have hround := Ratio.roundedTo_significant m.toRatio hsix
  have hvalue := Ratio.significantly_value m.toRatio hsix
  have hlog := Ratio.log_significantly m.toRatio hsix
  generalize m.toRatio.significant 6 = s at hsplit hround hvalue hlog
  by_cases h : s.exponent < -4 ∨ 6 ≤ s.exponent
  · refine ⟨pointed (decimal (s.digits / 10 ^ 5)) (dropTrailing '0' (fractionDigits 5 s.digits)) ++
      exponentPart 'e' s.exponent, ?_, ?_⟩
    · rw [generalText_eq rfl hsplit, if_pos h, joinExponent, trimFraction_withPlaces,
        withSign_append]
    · have hmantissa : significantly 6 m.toRatio.value / 10 ^ s.exponent = s.digits / 10 ^ 5 := by
        rw [hvalue, mul_div_assoc, ← zpow_sub₀ (by norm_num), div_eq_mul_inv, ← zpow_natCast,
          ← zpow_neg]
        congr 2
        omega
      rw [exponentPart, ← hlog]
      apply IsGeneral.scientific
      · omega
      · rw [hlog, hmantissa]
        exact isPlain_units 5 s.digits
      · exact isExponent_zeroFilled _
  · have hplaces : ((5 - s.exponent).toNat : ℤ) = (6 : ℕ) - 1 - s.exponent := by omega
    have hfixed : (finite negative m).fixedText (5 - s.exponent).toNat =
        withSign negative (withPlaces (5 - s.exponent).toNat s.digits) := by
      rw [fixedText, hplaces, hround]
    refine ⟨pointed (decimal (s.digits / 10 ^ (5 - s.exponent).toNat))
      (dropTrailing '0' (fractionDigits (5 - s.exponent).toNat s.digits)), ?_, ?_⟩
    · rw [generalText_eq rfl hsplit, if_neg h, hfixed, trimFraction_withPlaces]
    · have hplain : significantly 6 m.toRatio.value = s.digits / 10 ^ (5 - s.exponent).toNat := by
        rw [hvalue, div_eq_mul_inv, ← zpow_natCast, ← zpow_neg, hplaces, neg_sub]
      apply IsGeneral.positional
      · omega
      · rw [hplain]
        exact isPlain_units _ s.digits

/-- The default text of a finite number is the one general notation of its exact value rounded to
six significant digits, behind a minus sign if its sign is negative; a reader of literals gets that
value back, and no other notation ever stands in. -/
theorem generalText_finite (negative : Bool) (m : Magnitude f) :
    (∃ t, (finite negative m).generalText = withSign negative t ∧
      ∀ s, IsGeneral (significantly 6 m.toRatio.value) s ↔ s = t) ∧
    (∃ d, Decimal.ofText? (finite negative m).generalText = some d ∧ d.negative = negative ∧
      d.toRatio.value = significantly 6 m.toRatio.value) ∧
    ∀ places, (finite negative m).splitExponent? places ≠ none := by
  obtain ⟨t, htext, hgeneral⟩ := exists_generalText_eq negative m
  refine ⟨⟨t, htext, fun s => ⟨fun h => h.unique hgeneral, ?_⟩⟩, ?_, ?_⟩
  · rintro rfl
    exact hgeneral
  · rw [htext]
    exact hgeneral.exists_ofText? negative
  · intro places
    rw [splitExponent?_finite]
    exact Option.some_ne_none _

-- Half a unit above 999999 the even neighbour has one digit more and leaves the positional range.
example : (BinaryFloat.ofBits .double 0x412E847F00000000).generalText = "1e+06".toList := by
  decide +kernel

end BinaryFloat

end TextTemplate
