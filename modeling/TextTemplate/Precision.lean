import TextTemplate.Numeral.Signed

/-! The precision field of a specification, and the faults that a specification can have. -/
namespace TextTemplate

/-- What is wrong with the precision field of a specification. -/
inductive SpecError
  | notANumber (field : Text)
  | outOfRange (field : Text)
deriving DecidableEq, Repr

namespace SpecError

def field : SpecError → Text
  | notANumber t | outOfRange t => t

def message (e : SpecError) : Text :=
  "precision field '".toList ++ e.field ++
    match e with
    | notANumber _ => "' is not a number".toList
    | outOfRange _ => "' is out of range".toList

end SpecError

namespace Precision

/-- The largest number of places that can be asked for. -/
def limit : Nat := 65536

/-- The number of places that a negative number asks for. -/
def fallback : Nat := 6

/-- What stands between the first and the last character; nothing if the first takes several
bytes. -/
def field : Text → Text
  | [] => []
  | c :: t => if c.utf8Size = 1 then t.dropLast else []

/-- The number of places that a specification asks for; what follows the digits of its field is
ignored. -/
def ofSpec (spec : Text) : Except SpecError Nat :=
  match SignedNumeral.read? (field spec) with
  | none => .error (.notANumber (field spec))
  | some (n, _) =>
    if 0 ≤ n.value ∧ n.value ≤ limit then .ok n.magnitude
    else if n.value < 0 ∧ n.magnitude ≤ 2147483648 then .ok fallback
    else .error (.outOfRange (field spec))

end Precision

end TextTemplate
