import TextTemplate.Integer
import TextTemplate.Precision
import TextTemplate.Text.Bytes

/-! The precision of a specification once more, step by step: texts are cut at byte positions, and
integers have a fixed width. A cut through a character or a number that leaves its width has no
result. -/
namespace TextTemplate

/-- The number with the other sign, if the kind has it. -/
def Integer.negated? {k : IntegerKind} (n : Integer k) : Option (Integer k) := ofInt? k (-n.value)

namespace Precision

/-- Whether a byte is the UTF-8 form of a decimal digit. -/
def isDigitByte (b : UInt8) : Bool := '0'.toNat ≤ b.toNat && b.toNat < '0'.toNat + 10

/-- The field, from behind the first byte to where the last character starts. -/
def stepwiseField? (spec : Text) : Option Text := ((spec.fromByte? 1).getD []).upToLast?

/-- Whether the first byte is a minus sign, and the text without that byte if it is a sign. -/
def stepwiseSign? (t : Text) : Option (Bool × Text) :=
  let first := t.bytes.head?.map UInt8.toNat
  if first = some '-'.toNat then (t.fromByte? 1).map fun unsigned => (true, unsigned)
  else if first = some '+'.toNat then (t.fromByte? 1).map fun unsigned => (false, unsigned)
  else some (false, t)

/-- A number of 64 bits, negated behind a minus sign. -/
def stepwiseNumber? (negative : Bool) (magnitude : Integer .signed64) :
    Option (Integer .signed64) :=
  if negative then magnitude.negated? else some magnitude

/-- What a number of 64 bits asks for: it is held in 32 bits, and then in an unsigned machine
word. -/
def narrowed (field : Text) (number : Integer .signed64) : Except SpecError Nat :=
  match Integer.ofInt? .signed32 number.value with
  | none => .error (.outOfRange field)
  | some number =>
    match Integer.ofInt? ⟨false, .word⟩ number.value with
    | none => .ok fallback
    | some places =>
      if limit < places.value then .error (.outOfRange field) else .ok places.value.toNat

/-- What the digits in front of a text ask for, counted by their bytes. -/
def stepwiseDigits? (field : Text) (negative : Bool) (unsigned : Text) :
    Option (Except SpecError Nat) :=
  let count := (unsigned.bytes.takeWhile isDigitByte).length
  if count = 0 then some (.error (.notANumber field))
  else
    (unsigned.upToByte? count).bind fun digits =>
      match Integer.ofInt? .signed64 (Numeral.ofDecimal digits) with
      | none => some (.error (.outOfRange field))
      | some magnitude => (stepwiseNumber? negative magnitude).map (narrowed field)

/-- The number of places that a specification asks for, if every step on the way has a result. -/
def stepwise? (spec : Text) : Option (Except SpecError Nat) := do
  let field ← stepwiseField? spec
  let (negative, unsigned) ← stepwiseSign? (field.dropWhile Text.isAsciiBlank)
  stepwiseDigits? field negative unsigned

end Precision

end TextTemplate
