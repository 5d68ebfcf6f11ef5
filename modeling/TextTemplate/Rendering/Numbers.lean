import TextTemplate.BinaryFloat.Notation
import TextTemplate.Integer
import TextTemplate.Rendering

/-! How truth values, integers and floating-point numbers follow their specifications. -/
namespace TextTemplate.Rendering

/-- The exponent mark that a specification of scientific notation asks for. -/
def scientificMark? (spec : Text) : Option Char :=
  if spec = "e".toList ∨ spec = "sci".toList ∨ spec = "scientific".toList then some 'e'
  else if spec = "E".toList then some 'E'
  else none

/-- The text of an integer; a specification without a meaning leaves the decimal numeral. -/
def integerText {k : IntegerKind} (n : Integer k) (spec : Text) : Text :=
  match scientificMark? spec with
  | some mark => n.toDouble.scientificText mark
  | none =>
    if spec = "x".toList then n.inBase 16 .lower
    else if spec = "X".toList then n.inBase 16 .upper
    else if spec = "o".toList then n.inBase 8 .lower
    else if spec = "b".toList then n.binary
    else n.decimal

/-- An integer is one field. -/
def ofInteger {k : IntegerKind} (n : Integer k) (spec : Text) : Rendering :=
  ofFields [integerText n spec]

def boolWord (b : Bool) : Text := if b then "true".toList else "false".toList

/-- A truth value is the integer one or zero, after its word in a field of its own if that is asked
for. -/
def ofBool (b : Bool) (spec : Text) : Rendering :=
  let number := integerText (Integer.ofBool b) spec
  if spec = "boolalpha".toList ∨ spec = "ba".toList then ofFields [boolWord b, number]
  else ofFields [number]

/-- A floating-point number is one field; only an unreadable precision after a point fails. -/
def ofFloat {f : FloatFormat} (x : BinaryFloat f) (spec : Text) : Rendering :=
  match scientificMark? spec, spec with
  | some mark, _ => ofFields [x.scientificText mark]
  | none, '.' :: _ =>
    match Precision.ofSpec spec with
    | .ok places => ofFields [x.fixedText places]
    | .error e => failing e
  | none, _ => ofFields [x.generalText]

end TextTemplate.Rendering
