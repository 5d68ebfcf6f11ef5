import TextTemplate.Decimal
import TextTemplate.Numeral.Places

/-! The positional numeral of a floating-point number with the fewest significant digits that are
read back as it. -/
namespace TextTemplate

namespace Decimal

/-- The two literals with a count of significant digits next to a quotient, the nearer one first. -/
def neighbours (negative : Bool) (r : Ratio) (count : Nat) : List Decimal :=
  let places := count - 1 - r.decimalExponent
  let near := r.roundedTo places
  let below := r.numerator * 10 ^ places.toNat / (r.denominator * 10 ^ (-places).toNat)
  [⟨negative, near, -places⟩, ⟨negative, 2 * below + 1 - near, -places⟩]

/-- So many significant digits tell any two doubles apart. -/
def sufficientDigits : Nat := 17

/-- The literal with the fewest digits among those that the double nearest to a quotient is nearest
to. -/
def shortest (negative : Bool) (r : Ratio) : Decimal :=
  let candidates := (List.range sufficientDigits).flatMap fun n => neighbours negative r (n + 1)
  let readsBack (d : Decimal) : Bool := d.nearest = .nearest .double negative r
  (candidates.find? readsBack).getD
    ⟨negative, r.roundedTo (sufficientDigits - 1 - r.decimalExponent),
      r.decimalExponent - (sufficientDigits - 1)⟩

/-- The numeral of a literal without an exponent. -/
def positionalText (d : Decimal) : Text :=
  Numeral.withSign d.negative
    (if 0 ≤ d.exponent then Numeral.decimal (d.significand * 10 ^ d.exponent.toNat)
    else Numeral.trimFraction (Numeral.withPlaces (-d.exponent).toNat d.significand))

end Decimal

namespace BinaryFloat

variable {f : FloatFormat}

def infinityText (negative : Bool) : Text := Numeral.withSign negative "inf".toList

/-- The shortest numeral that is read back as a number, without an exponent. -/
def shortestText : BinaryFloat f → Text
  | nan => "NaN".toList
  | infinite negative => infinityText negative
  | finite negative m =>
    if m.significand = 0 then Numeral.withSign negative (Numeral.decimal 0)
    else (Decimal.shortest negative m.toRatio).positionalText

end BinaryFloat

end TextTemplate
