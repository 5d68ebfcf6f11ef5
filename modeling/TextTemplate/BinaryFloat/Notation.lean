import TextTemplate.BinaryFloat.Shortest
import TextTemplate.Integer

/-! The three notations of floating-point numbers: fixed, scientific and general, each rounded from
the exact value. -/
namespace TextTemplate.BinaryFloat

variable {f : FloatFormat}

def scientificPlaces : Nat := 6

def generalDigits : Nat := 6

/-- The nearest numeral with the given number of places; zero keeps its sign. -/
def fixedText (places : Nat) : BinaryFloat f → Text
  | nan => "NaN".toList
  | infinite negative => infinityText negative
  | finite negative m =>
    Numeral.withSign negative (Numeral.withPlaces places (m.toRatio.roundedTo places))

/-- One digit before the point, the given number of places after it, and the plain exponent behind
an `e`. -/
def exponentialText (places : Nat) : BinaryFloat f → Text
  | nan => "NaN".toList
  | infinite negative => infinityText negative
  | finite negative m =>
    let s := m.toRatio.significant (places + 1)
    Numeral.withSign negative (Numeral.withPlaces places s.digits) ++
      'e' :: Numeral.ofInt s.exponent

/-- The text of a number that is not finite, in the notations with an exponent. -/
def nonFiniteText? : BinaryFloat f → Option Text
  | nan => some "nan".toList
  | infinite negative => some (infinityText negative)
  | finite _ _ => none

/-- The mantissa with its sign and the exponent of exponential notation, if the exponent is one of
32 bits. -/
def splitExponent? (places : Nat) (x : BinaryFloat f) : Option (Text × Int) := do
  let (mantissa, exponent) ← Text.splitOnce? 'e' (x.exponentialText places)
  let exponent ← SignedNumeral.ofText? exponent
  let exponent ← Integer.ofInt? .signed32 exponent.value
  return (mantissa, exponent.value)

/-- A mantissa with its exponent behind an `e`. -/
def joinExponent (mantissa : Text) (exponent : Int) : Text :=
  mantissa ++ Numeral.exponentPart 'e' exponent

/-- Exponential notation of six places, with the exponent in at least two digits behind a sign. -/
def signedExponentText (x : BinaryFloat f) : Text :=
  match x.nonFiniteText?, x.splitExponent? scientificPlaces with
  | some t, _ => t
  | none, some (mantissa, exponent) => joinExponent mantissa exponent
  | none, none => x.exponentialText scientificPlaces

/-- Scientific notation with the given mark in front of the exponent. -/
def scientificText (mark : Char) (x : BinaryFloat f) : Text :=
  x.signedExponentText.map fun c => if c = 'e' then mark else c

/-- Six significant digits without trailing zeros; positional where the exponent is from -4 to 5. -/
def generalText (x : BinaryFloat f) : Text :=
  match x.nonFiniteText?, x.splitExponent? (generalDigits - 1) with
  | some t, _ => t
  | none, some (mantissa, exponent) =>
    if exponent < -4 ∨ generalDigits ≤ exponent then
      joinExponent (Numeral.trimFraction mantissa) exponent
    else Numeral.trimFraction (x.fixedText (generalDigits - 1 - exponent).toNat)
  | none, none => x.shortestText

end TextTemplate.BinaryFloat
