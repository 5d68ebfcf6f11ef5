import TextTemplate.Numeral.Signed
import TextTemplate.Output

/-! Bodies of placeholders: an argument index, an optional alignment, and an optional
specification. -/
namespace TextTemplate

/-- A placeholder body that starts with a number; the index is missing if it can address nothing. -/
structure Placeholder where
  index : Option Nat
  alignment : Alignment
  spec : Text
deriving DecidableEq, Repr

namespace Placeholder

/-- The number after the largest index. -/
def indexBound : Nat := 18446744073709551616

/-- The largest width on the right; the largest one on the left is by one larger. -/
def widthLimit : Int := 9223372036854775807

/-- The index that a number denotes: not negative, though zero may have a minus sign, and of 64
bits. -/
def indexOf? (n : SignedNumeral) : Option Nat :=
  if n.magnitude < indexBound ∧ 0 ≤ n.value then some n.magnitude else none

/-- The alignment that a number denotes, its width reduced to 64 bits with a sign. -/
def alignmentOf (n : SignedNumeral) : Alignment :=
  .ofWidth
    (if widthLimit < n.value then widthLimit
    else if n.value < -widthLimit - 1 then -widthLimit - 1
    else n.value)

/-- The alignment behind the index and the text after it; a comma without a number is passed
over. -/
def readAlignment : Text → Alignment × Text
  | ',' :: t =>
    match SignedNumeral.read? t with
    | some (n, rest) => (alignmentOf n, rest)
    | none => (.none, t)
  | t => (.none, t)

/-- The specification behind the alignment: all that follows a colon. -/
def readSpec : Text → Text
  | ':' :: t => t
  | _ => []

/-- The placeholder that a body denotes, if the body starts with a number. -/
def ofBody? (body : Text) : Option Placeholder :=
  (SignedNumeral.read? body).map fun (n, rest) =>
    let (alignment, rest) := readAlignment rest
    ⟨indexOf? n, alignment, readSpec rest⟩

/-- Where the specification lies in its body: it runs to the end of the body. -/
def specSpan (p : Placeholder) (body : Text) : Span :=
  ⟨body.byteLength - p.spec.byteLength, body.byteLength⟩

end Placeholder

end TextTemplate
