import TextTemplate.Decimal
import TextTemplate.Integer

/-! Values of the four kinds that a word or an argument file can hold. -/
namespace TextTemplate

/-- A truth value, a signed integer of 64 bits, a double or a text. -/
inductive Value
  | bool (b : Bool)
  | integer (n : Integer .signed64)
  | float (x : Double)
  | text (t : Text)
deriving DecidableEq

namespace Value

/-- Equality within a kind, of floating-point numbers as numbers. -/
def equals : Value → Value → Bool
  | bool a, bool b => a = b
  | integer m, integer n => m = n
  | float x, float y => x.numericallyEqual y
  | text s, text t => s = t
  | _, _ => false

/-- The signed integer of 64 bits that a whole word denotes. -/
def integerOfWord? (word : Text) : Option (Integer .signed64) :=
  (SignedNumeral.ofText? word).bind fun n => Integer.ofInt? .signed64 n.value

/-- The first kind of value whose form a word has: truth value, integer, decimal literal, text. -/
def infer (word : Text) : Value :=
  if word = "true".toList then bool true
  else if word = "false".toList then bool false
  else
    match integerOfWord? word, Decimal.ofText? word with
    | some n, _ => integer n
    | none, some d => float d.nearest
    | none, none => text word

end Value

end TextTemplate
