import TextTemplate.Numeral

/-! Decimal numerals with a point: a fixed number of places, trailing zeros removed, and a written
exponent. -/
namespace TextTemplate.Numeral

/-- A number of units of the last of `places` decimal places; without places there is no point. -/
def withPlaces (places units : Nat) : Text :=
  decimal (units / 10 ^ places) ++
    if places = 0 then [] else '.' :: zeroFilled places (decimal (units % 10 ^ places))

/-- A text without the run of one character at its end. -/
def dropTrailing (c : Char) (t : Text) : Text := (t.reverse.dropWhile (· = c)).reverse

/-- A numeral without the zeros that end its fraction, and without a point that nothing follows. -/
def trimFraction (t : Text) : Text :=
  if '.' ∈ t then dropTrailing '.' (dropTrailing '0' t) else t

/-- A written exponent: the mark, the sign in every case, and at least two digits. -/
def exponentPart (mark : Char) (exponent : Int) : Text :=
  mark :: (if exponent < 0 then '-' else '+') :: zeroFilled 2 (decimal exponent.natAbs)

def withSign (negative : Bool) (t : Text) : Text := if negative then '-' :: t else t

def ofInt (n : Int) : Text := withSign (decide (n < 0)) (decimal n.natAbs)

end TextTemplate.Numeral
