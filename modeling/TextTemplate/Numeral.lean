import TextTemplate.Numeral.Digits
import TextTemplate.Text

/-! Numerals of natural numbers as texts, in the bases up to sixteen. -/
namespace TextTemplate.Numeral

/-- Whether the digits above nine are written with small or with capital letters. -/
inductive LetterCase
  | lower
  | upper
deriving DecidableEq, Repr

/-- The character of a digit below sixteen. -/
def digitChar (letters : LetterCase) (d : Nat) : Char :=
  if d < 10 then Char.ofNat ('0'.toNat + d)
  else match letters with
    | .lower => Char.ofNat ('a'.toNat + (d - 10))
    | .upper => Char.ofNat ('A'.toNat + (d - 10))

/-- The value of a digit below sixteen, with letters of either case. -/
def digitOf? (c : Char) : Option Nat :=
  if c.isDigit then some (c.toNat - '0'.toNat)
  else if 'a' ≤ c ∧ c ≤ 'f' then some (c.toNat - 'a'.toNat + 10)
  else if 'A' ≤ c ∧ c ≤ 'F' then some (c.toNat - 'A'.toNat + 10)
  else none

theorem digitOf?_digitChar (letters : LetterCase) {d : Nat} (h : d < 16) :
    digitOf? (digitChar letters d) = some d := by
  revert d
  cases letters <;> decide

/-- The numeral of a number in a base of at most sixteen. -/
def inBase (base : Nat) (letters : LetterCase) (n : Nat) : Text :=
  (digits base n).map (digitChar letters)

/-- The decimal numeral of a number, with no superfluous leading zero. -/
def decimal (n : Nat) : Text := inBase 10 .lower n

/-- A text filled up on the left with zeros to a least length. -/
def zeroFilled (length : Nat) (t : Text) : Text := List.replicate (length - t.length) '0' ++ t

/-- The number that a run of decimal digits denotes. -/
def ofDecimal (t : Text) : Nat := positionalValue 10 (t.map fun c => c.toNat - '0'.toNat)

/-- Binary digits in groups of four, and a marked zero. -/
def binaryGroups (n : Nat) : Text :=
  if n = 0 then "0b0".toList
  else
    let t := inBase 2 .lower n
    zeroFilled ((t.length + 3) / 4 * 4) t

end TextTemplate.Numeral
