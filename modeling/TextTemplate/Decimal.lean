import TextTemplate.BinaryFloat.Nearest
import TextTemplate.Numeral.Signed

/-! Decimal literals with a fraction and an exponent, and the double nearest to each of them. -/
namespace TextTemplate

/-- The number `significand · 10 ^ exponent` with a sign that zero keeps. -/
structure Decimal where
  negative : Bool
  significand : Nat
  exponent : Int
deriving DecidableEq, Repr

namespace Decimal

/-- The exponent after the digits: empty, or a mark, an optional sign and at least one digit. -/
def readExponent? : Text → Option Int
  | [] => some 0
  | mark :: t =>
    if mark = 'e' ∨ mark = 'E' then (SignedNumeral.ofText? t).map SignedNumeral.value else none

/-- The fraction after the whole digits: the digits behind an optional point, and the rest. -/
def readFraction : Text → Text × Text
  | '.' :: t => (t.takeWhile Char.isDigit, t.dropWhile Char.isDigit)
  | t => ([], t)

/-- A literal with an optional sign, digits on at least one side of an optional point, and an
optional exponent. -/
def ofText? (t : Text) : Option Decimal :=
  let (negative, unsigned) := SignedNumeral.takeSign t
  let whole := unsigned.takeWhile Char.isDigit
  let (fraction, rest) := readFraction (unsigned.dropWhile Char.isDigit)
  if whole ++ fraction = [] then none
  else (readExponent? rest).map fun exponent =>
    ⟨negative, Numeral.ofDecimal (whole ++ fraction), exponent - fraction.length⟩

/-- The absolute value of a literal. -/
def toRatio (d : Decimal) : Ratio :=
  ⟨d.significand * 10 ^ d.exponent.toNat, 10 ^ (-d.exponent).toNat,
    Nat.pow_pos (by decide)⟩

/-- The exponent of ten that no double reaches, and below whose negative every number rounds to
zero. -/
def exponentLimit : Int := 400

/-- The double nearest to a literal, found without its digits where the exponent alone decides. -/
def nearest (d : Decimal) : Double :=
  let magnitude : Int := Numeral.digitCount 10 d.significand + d.exponent
  if d.significand = 0 ∨ magnitude < -exponentLimit then .finite d.negative (.zero _)
  else if exponentLimit < magnitude then .infinite d.negative
  else .nearest .double d.negative d.toRatio

end Decimal

end TextTemplate
