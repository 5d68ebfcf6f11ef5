import TextTemplate.Value

/-! The inference of a value in single steps: the readers of integers and of doubles one after the
other, with a look for digits in front of the second one, which would read names as well. -/
namespace TextTemplate

/-- The number that a name stands for, in letters of either case. -/
def BinaryFloat.ofName? {f : FloatFormat} (negative : Bool) (name : Text) :
    Option (BinaryFloat f) :=
  let letters := name.map Char.toLower
  if letters = "inf".toList ∨ letters = "infinity".toList then some (.infinite negative)
  else if letters = "nan".toList then some .nan
  else none

/-- A double by its name behind an optional sign, or by a literal. -/
def BinaryFloat.ofText? (t : Text) : Option Double :=
  let (negative, name) := SignedNumeral.takeSign t
  (ofName? negative name).or ((Decimal.ofText? t).map Decimal.nearest)

/-- The value of a word, read as a double only where it has a digit. -/
def Value.stepwise (word : Text) : Value :=
  if word = "true".toList then bool true
  else if word = "false".toList then bool false
  else
    match integerOfWord? word with
    | some n => integer n
    | none =>
      if word.any Char.isDigit then
        match BinaryFloat.ofText? word with
        | some x => float x
        | none => text word
      else text word

end TextTemplate
