import TextTemplate.Argument
import TextTemplate.Proofs.Nearest

/-! Scientific notation of floating-point numbers and of integers: seven significant digits of the
exact value, and an exponent behind a small or a capital mark. -/
namespace TextTemplate

namespace Numeral

variable {n : ℕ} {q : ℚ} {mantissa exponent : Text}

/-- Seven significant digits of a rational number, one in front of a point and six behind it, and
the exponent of the first of them in two digits or more behind its sign. Zero alone has a zero in
front of the point. -/
inductive IsScientific (q : ℚ) : Text → Text → Prop
  | intro {lead : Char} {fraction digits : Text} {exponent : ℤ}
      (hlead : lead.isDigit = true) (hlead_ne : q ≠ 0 → lead ≠ '0')
      (hlength : fraction.length = 6) (hfraction : ∀ c ∈ fraction, c.isDigit = true)
      (hexponent : IsExponent digits exponent.natAbs) (hzero : q = 0 → exponent = 0)
      (hvalue : significantly 7 q = ofDecimal (lead :: fraction) * 10 ^ (exponent - 6)) :
      IsScientific q (lead :: '.' :: fraction) ((if exponent < 0 then '-' else '+') :: digits)

/-- Scientific notation denotes exactly the seven digits. -/
theorem IsScientific.exists_ofText? (h : IsScientific q mantissa exponent) (negative : Bool)
    {mark : Char} (hmark : mark = 'e' ∨ mark = 'E') :
    ∃ d, Decimal.ofText? (withSign negative (mantissa ++ mark :: exponent)) = some d ∧
      d.negative = negative ∧ d.toRatio.value = significantly 7 q := by
  cases h with
  | @intro lead fraction digits exponent hlead _ hlength hfraction hexponent _ hvalue =>
    have hne : fraction ≠ [] := by
      rintro rfl
      cases hlength
    have hpointed : lead :: '.' :: fraction = pointed [lead] fraction := by
      rw [pointed, if_neg hne, List.singleton_append]
    have hdigits : ∀ c ∈ [lead] ++ fraction, c.isDigit = true := by
      intro c hc
      obtain rfl | hc := List.mem_cons.mp hc
      · exact hlead
      · exact hfraction c hc
    have hread := Decimal.readExponent?_of_isExponent mark hmark hexponent
    have htext := Decimal.ofText?_pointed negative (List.cons_ne_nil lead []) hdigits hread
    rw [← hpointed, ← withSign_append] at htext
    refine ⟨_, htext, rfl, ?_⟩
    rw [Decimal.value_toRatio, hvalue, hlength]
    rfl

theorem exists_decimal_eq_singleton (h : n < 10) :
    ∃ c, decimal n = [c] ∧ c.isDigit = true ∧ (n ≠ 0 → c ≠ '0') := by
  have hlength : (decimal n).length ≤ 1 := length_inBase_le (by decide) .lower Nat.one_pos h
  obtain ⟨c, t, hdecimal, hc⟩ := SignedNumeral.exists_decimal_eq_cons n
  rw [hdecimal, List.length_cons] at hlength
  obtain rfl : t = [] := List.length_eq_zero_iff.mp (by omega)
  refine ⟨c, hdecimal, hc, ?_⟩
  rintro hn rfl
  have hvalue := ofDecimal_decimal n
  rw [hdecimal] at hvalue
  exact hn hvalue.symm

/-- The digits and the exponent of a rounded quotient are written in scientific notation. -/
theorem isScientific_significant (r : Ratio) :
    IsScientific r.value (withPlaces 6 (r.significant 7).digits)
      ((if (r.significant 7).exponent < 0 then '-' else '+') ::
        zeroFilled 2 (decimal (r.significant 7).exponent.natAbs)) := by
  have hseven : 0 < 7 := by decide
  have hvalue := Ratio.significantly_value r hseven
  have hlt : (r.significant 7).digits < 10 ^ 7 := Ratio.significant_lt hseven
  have hle (hne : r.numerator ≠ 0) : 10 ^ 6 ≤ (r.significant 7).digits :=
    Ratio.le_significant hne hseven
  have hzero (h : r.value = 0) : (r.significant 7).exponent = 0 := by
    rw [Ratio.significant_of_zero (Ratio.value_eq_zero_iff.mp h)]
  generalize r.significant 7 = s at hvalue hlt hle hzero ⊢
  obtain ⟨c, hlead, hc, hc_ne⟩ := exists_decimal_eq_singleton (n := s.digits / 10 ^ 6) (by omega)
  have hfraction : fractionDigits 6 s.digits ≠ [] := by
    intro hnil
    have hlength := length_fractionDigits 6 s.digits
    rw [hnil] at hlength
    cases hlength
  have hdigits := ofDecimal_append_fractionDigits 6 s.digits
  rw [withPlaces_eq_pointed, pointed, if_neg hfraction, hlead, List.singleton_append]
  rw [hlead, List.singleton_append] at hdigits
  refine .intro hc ?_ (length_fractionDigits 6 _) (fun _ => isDigit_of_mem_fractionDigits)
    (isExponent_zeroFilled _) hzero ?_
  · intro hne
    have hlow := hle (mt Ratio.value_eq_zero_iff.mpr hne)
    exact hc_ne (by omega)
  · rw [hvalue, hdigits]
    norm_num

end Numeral

namespace BinaryFloat

open Numeral

variable {f : FloatFormat}

theorem map_mark_exponentPart (mark : Char) (exponent : ℤ) :
    (exponentPart 'e' exponent).map (fun c => if c = 'e' then mark else c) =
      exponentPart mark exponent := by
  have hsign : (if exponent < 0 then '-' else '+') ≠ 'e' := by
    split <;> decide
  have hdigits :
      (zeroFilled 2 (decimal exponent.natAbs)).map (fun c => if c = 'e' then mark else c) =
        zeroFilled 2 (decimal exponent.natAbs) := by
    refine (List.map_congr_left fun c hc => if_neg ?_).trans (List.map_id _)
    rintro rfl
    have hdigit := isDigit_of_mem_zeroFilled (fun _ => isDigit_of_mem_decimal) hc
    cases hdigit
  rw [exponentPart, List.map_cons, List.map_cons, hdigits, if_pos rfl, if_neg hsign]
  rfl

/-- Nothing but the mark depends on which mark is asked for. -/
theorem scientificText_finite (mark : Char) (negative : Bool) (m : Magnitude f) :
    (finite negative m).scientificText mark =
      withSign negative (withPlaces 6 (m.toRatio.significant 7).digits) ++
        exponentPart mark (m.toRatio.significant 7).exponent := by
  have hsplit := splitExponent?_finite 6 negative m
  have hmantissa : (withSign negative (withPlaces 6 (m.toRatio.significant 7).digits)).map
      (fun c => if c = 'e' then mark else c) =
        withSign negative (withPlaces 6 (m.toRatio.significant 7).digits) := by
    refine (List.map_congr_left fun c hc => if_neg ?_).trans (List.map_id _)
    rintro rfl
    exact not_mem_withSign_withPlaces _ _ _ hc
  rw [scientificText, signedExponentText, show scientificPlaces = 6 from rfl, hsplit]
  simp only [nonFiniteText?, joinExponent]
  rw [List.map_append, hmantissa, map_mark_exponentPart]

end BinaryFloat

namespace Rendering

open Numeral

variable {f : FloatFormat} {negative : Bool} {m : Magnitude f} {rendering : Text → Rendering}

/-- A rendering that writes a number in scientific notation: the same text under three
specifications, and one that differs from it in nothing but its capital mark under the fourth. -/
def WritesScientific (negative : Bool) (q : ℚ) (rendering : Text → Rendering) : Prop :=
  ∃ mantissa exponent, IsScientific q mantissa exponent ∧
    (∀ spec ∈ ["e".toList, "sci".toList, "scientific".toList],
      rendering spec = ofFields [withSign negative (mantissa ++ 'e' :: exponent)]) ∧
    rendering "E".toList = ofFields [withSign negative (mantissa ++ 'E' :: exponent)]

theorem writesScientific_of_forall_mark (h : ∀ spec mark, scientificMark? spec = some mark →
    rendering spec = ofFields [(BinaryFloat.finite negative m).scientificText mark]) :
    WritesScientific negative m.toRatio.value rendering := by
  refine ⟨_, _, isScientific_significant m.toRatio, ?_, ?_⟩
  · intro spec hspec
    have hmark : scientificMark? spec = some 'e' := by
      simp only [List.mem_cons, List.not_mem_nil, or_false] at hspec
      exact if_pos hspec
    rw [h spec 'e' hmark, BinaryFloat.scientificText_finite, withSign_append]
    rfl
  · rw [h "E".toList 'E' rfl, BinaryFloat.scientificText_finite, withSign_append]
    rfl

theorem ofFloat_of_scientificMark? {x : BinaryFloat f} {spec : Text} {mark : Char}
    (h : scientificMark? spec = some mark) : ofFloat x spec = ofFields [x.scientificText mark] := by
  simp only [ofFloat, h]

theorem ofInteger_of_scientificMark? {k : IntegerKind} {n : Integer k} {spec : Text} {mark : Char}
    (h : scientificMark? spec = some mark) :
    ofInteger n spec = ofFields [n.toDouble.scientificText mark] := by
  simp only [ofInteger, integerText, h]

/-- Finite floating-point numbers are written in scientific notation from their exact values, and
every integer from the double nearest to it, which is always finite; a reader of literals gets the
seven digits back. -/
theorem writesScientific_of_number :
    (∀ (f : FloatFormat) (negative : Bool) (m : Magnitude f),
      WritesScientific negative m.toRatio.value (Argument.float (.finite negative m)).rendering) ∧
    (∀ (k : IntegerKind) (n : Integer k), ∃ m : Magnitude .double,
      n.toDouble = .finite (decide (n.value < 0)) m ∧ m.IsNearest n.value.natAbs ∧
        WritesScientific (decide (n.value < 0)) m.toRatio.value (Argument.integer n).rendering) ∧
    ∀ q mantissa exponent, IsScientific q mantissa exponent → ∀ negative, ∀ mark ∈ ['e', 'E'],
      ∃ d, Decimal.ofText? (withSign negative (mantissa ++ mark :: exponent)) = some d ∧
        d.negative = negative ∧ d.toRatio.value = significantly 7 q := by
  refine ⟨?_, ?_, ?_⟩
  · intro f negative m
    exact writesScientific_of_forall_mark fun spec mark h => ofFloat_of_scientificMark? h
  · intro k n
    obtain ⟨m, hdouble, hnearest⟩ := n.exists_toDouble_eq
    refine ⟨m, hdouble, hnearest, writesScientific_of_forall_mark fun spec mark h => ?_⟩
    rw [← hdouble]
    exact ofInteger_of_scientificMark? h
  · intro q mantissa exponent h negative mark hmark
    exact h.exists_ofText? negative (by simpa using hmark)

-- The nearest double drops the last digit, which alone would have decided against the even
-- neighbour.
example : integerText (k := ⟨false, .bits64⟩)
    ⟨12345685000000000001, by decide, by decide⟩ "e".toList =
    "1.234568e+19".toList := by
  decide +kernel

end Rendering

end TextTemplate
