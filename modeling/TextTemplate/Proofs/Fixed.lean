import TextTemplate.Proofs.Canonical
import TextTemplate.Proofs.Rendering

/-! Fixed notation of floating-point numbers: the exact value rounded once, to the last of the
places that a precision asks for, and never refused. -/
namespace TextTemplate

namespace Numeral

variable {places : ℕ} {q : ℚ} {whole fraction whole' fraction' : Text}

/-- A rational number rounded to a number of decimal places, ties to even: its whole digits without
a superfluous zero in front, and as many digits behind the point as there are places, zeros among
them. -/
structure IsFixed (places : ℕ) (q : ℚ) (whole fraction : Text) : Prop where
  ne_nil : whole ≠ []
  isDigit : ∀ c ∈ whole ++ fraction, c.isDigit = true
  noLeadingZero : NoLeadingZero whole
  length_fraction : fraction.length = places
  value : (ofDecimal (whole ++ fraction) : ℤ) = nearestEven (q * 10 ^ places)

theorem isFixed_roundedTo (places : ℕ) (r : Ratio) :
    IsFixed places r.value (decimal (r.roundedTo places / 10 ^ places))
      (fractionDigits places (r.roundedTo places)) := by
  refine ⟨decimal_ne_nil _, ?_, noLeadingZero_inBase (by decide) (by decide) .lower _,
    length_fractionDigits _ _, ?_⟩
  · intro c hc
    obtain hc | hc := List.mem_append.mp hc
    · exact isDigit_of_mem_decimal hc
    · exact isDigit_of_mem_fractionDigits hc
  · rw [ofDecimal_append_fractionDigits, Ratio.coe_roundedTo, zpow_natCast]

/-- A number has one text of each count of places. -/
theorem IsFixed.unique (h : IsFixed places q whole fraction)
    (h' : IsFixed places q whole' fraction') :
    whole = whole' ∧ fraction = fraction' := by
  have hvalue : ofDecimal (whole ++ fraction) = ofDecimal (whole' ++ fraction') := by
    exact_mod_cast h.value.trans h'.value.symm
  exact eq_and_eq_of_ofDecimal_append_eq h.isDigit h'.isDigit h.ne_nil h'.ne_nil h.noLeadingZero
    h'.noLeadingZero (h.length_fraction.trans h'.length_fraction.symm) hvalue

/-- Fixed notation denotes exactly the rounded number. -/
theorem IsFixed.exists_ofText? (h : IsFixed places q whole fraction) (negative : Bool) :
    ∃ d, Decimal.ofText? (withSign negative (pointed whole fraction)) = some d ∧
      d.negative = negative ∧ d.toRatio.value = nearestEven (q * 10 ^ places) / 10 ^ places := by
  have hread := Decimal.ofText?_pointed negative h.ne_nil h.isDigit Decimal.readExponent?_nil
  rw [List.append_nil] at hread
  refine ⟨_, hread, rfl, ?_⟩
  rw [Decimal.value_toRatio, ← h.value, h.length_fraction, zero_sub, zpow_neg, zpow_natCast,
    Int.cast_natCast, div_eq_mul_inv]

end Numeral

namespace Rendering

open Numeral

variable {f : FloatFormat} {spec : Text} {places : ℕ}

theorem ofFloat_of_precision (x : BinaryFloat f) (hpoint : spec.head? = some '.')
    (hplaces : Precision.ofSpec spec = .ok places) :
    ofFloat x spec = ofFields [x.fixedText places] := by
  have hmark := scientificMark?_of_point hpoint
  obtain ⟨t, rfl⟩ := List.head?_eq_some_iff.mp hpoint
  simp only [ofFloat, hmark, hplaces]

theorem fixedText_finite (places : ℕ) (negative : Bool) (m : Magnitude f) :
    (BinaryFloat.finite negative m).fixedText places =
      withSign negative (pointed (decimal (m.toRatio.roundedTo places / 10 ^ places))
        (fractionDigits places (m.toRatio.roundedTo places))) := by
  rw [BinaryFloat.fixedText, withPlaces_eq_pointed]

/-- With a precision behind its point, a specification has a finite number written in the one way
that its exact value has with so many places: a minus sign exactly for a negative sign, also where
nothing but zeros follows, and a point exactly where there are places. A reader of literals gets the
rounded value back. -/
theorem rendering_float_of_precision (negative : Bool) (m : Magnitude f)
    (hpoint : spec.head? = some '.') :
    ∀ places < Precision.limit, Precision.ofSpec spec = .ok places → ∃ whole fraction,
      (Argument.float (.finite negative m)).rendering spec =
        ofFields [withSign negative (pointed whole fraction)] ∧
      (∀ s t, IsFixed places m.toRatio.value s t ↔ s = whole ∧ t = fraction) ∧
      ∃ d, Decimal.ofText? (withSign negative (pointed whole fraction)) = some d ∧
        d.negative = negative ∧
        d.toRatio.value = nearestEven (m.toRatio.value * 10 ^ places) / 10 ^ places := by
  intro places _ hplaces
  have hfixed := isFixed_roundedTo places m.toRatio
  refine ⟨_, _, ?_, ?_, hfixed.exists_ofText? negative⟩
  · rw [Argument.rendering, ofFloat_of_precision _ hpoint hplaces, fixedText_finite]
  · intro s t
    constructor
    · exact fun h => h.unique hfixed
    · rintro ⟨rfl, rfl⟩
      exact hfixed

/-- A negative eighth in two places, which a field with a blank and a plus sign asks for. -/
theorem rendering_float_of_precision_negative_eighth :
    let eighth : Magnitude .single := ⟨8388608, 123, by decide, by decide, .inr (by decide)⟩
    ". +2xf".toList.head? = some '.' ∧ 2 < Precision.limit ∧
      Precision.ofSpec ". +2xf".toList = .ok 2 ∧
      ∃ whole fraction,
        (Argument.float (.finite true eighth)).rendering ". +2xf".toList =
          ofFields [withSign true (pointed whole fraction)] ∧
        (∀ s t, IsFixed 2 eighth.toRatio.value s t ↔ s = whole ∧ t = fraction) ∧
        ∃ d, Decimal.ofText? (withSign true (pointed whole fraction)) = some d ∧ d.negative = true ∧
          d.toRatio.value = nearestEven (eighth.toRatio.value * 10 ^ 2) / 10 ^ 2 := by
  intro eighth
  exact ⟨rfl, by decide, by decide,
    rendering_float_of_precision true eighth rfl 2 (by decide) (by decide)⟩

-- Twelve and a half hundredths are a tie, and the minus sign stays where nothing but zeros is left.
example :
    ofFloat (f := .single) (.finite true ⟨8388608, 123, by decide, by decide, .inr (by decide)⟩)
      ".2f".toList =
        ofFields ["-0.12".toList] ∧
      ofFloat (f := .double) (.finite true ⟨1, 0, by decide, by decide, .inl rfl⟩) ".0f".toList =
        ofFields ["-0".toList] := by
  decide +kernel

end Rendering

end TextTemplate
