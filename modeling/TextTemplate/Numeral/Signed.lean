import TextTemplate.Numeral

/-! Whole numbers with an optional sign, read from the front of a text. -/
namespace TextTemplate

/-- A whole number as it is written: its sign and its absolute value. -/
structure SignedNumeral where
  negative : Bool
  magnitude : Nat
deriving DecidableEq, Repr

namespace SignedNumeral

/-- The number that is written; a negative zero is zero. -/
def value (n : SignedNumeral) : Int := if n.negative then -(n.magnitude : Int) else n.magnitude

/-- Whether a text starts with a minus sign, and the text after its one optional sign. -/
def takeSign : Text → Bool × Text
  | '-' :: t => (true, t)
  | '+' :: t => (false, t)
  | t => (false, t)

/-- An optional sign and the longest run of digits after it, which must not be empty. -/
def readUnpadded? (t : Text) : Option (SignedNumeral × Text) :=
  let (negative, unsigned) := takeSign t
  let digits := unsigned.takeWhile Char.isDigit
  if digits = [] then none
  else some (⟨negative, Numeral.ofDecimal digits⟩, unsigned.dropWhile Char.isDigit)

/-- A numeral after any number of blanks. -/
def read? (t : Text) : Option (SignedNumeral × Text) :=
  readUnpadded? (t.dropWhile Text.isAsciiBlank)

/-- A numeral that makes up the whole text. -/
def ofText? (t : Text) : Option SignedNumeral :=
  match readUnpadded? t with
  | some (n, []) => some n
  | _ => none

end SignedNumeral

end TextTemplate
