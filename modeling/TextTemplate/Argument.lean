import TextTemplate.Rendering.Numbers
import TextTemplate.Value

/-! Arguments of every kind, how each is rendered, and the store that templates address by index. -/
namespace TextTemplate

/-- A value follows the rules of its kind; a text ignores its specification. -/
def Rendering.ofValue : Value → Text → Rendering
  | .bool b, spec => ofBool b spec
  | .integer n, spec => ofInteger n spec
  | .float x, spec => ofFloat x spec
  | .text t, _ => ofFields [t]

/-- An item with a plain text of its own. -/
inductive Displayable
  | bool (b : Bool)
  | integer {k : IntegerKind} (n : Integer k)
  | character (c : Char)
  | text (t : Text)

def Displayable.plainText : Displayable → Text
  | bool b => Rendering.boolWord b
  | integer n => n.decimal
  | character c => [c]
  | text t => t

/-- An argument: a number or text, one held indirectly, an item shown as it is, a value, or one with
its own rule. Such a rule acts on the output only by appending to it and by asking for alignments:
it neither looks at the text in front of its own nor takes any of it back. -/
inductive Argument
  | bool (b : Bool)
  | integer {k : IntegerKind} (n : Integer k)
  | float {f : FloatFormat} (x : BinaryFloat f)
  | text (t : Text)
  | reference (target : Argument)
  | boxed (content : Argument)
  | display (item : Displayable)
  | value (v : Value)
  | custom (rule : Text → Rendering)

namespace Argument

def ofValue : Value → Argument
  | .bool b => bool b
  | .integer n => integer n
  | .float x => float x
  | .text t => text t

/-- What an argument inserts under a specification; texts ignore it. -/
def rendering : Argument → Text → Rendering
  | bool b, spec => Rendering.ofBool b spec
  | integer n, spec => Rendering.ofInteger n spec
  | float x, spec => Rendering.ofFloat x spec
  | text t, _ => Rendering.ofFields [t]
  | reference a, spec => a.rendering spec
  | boxed a, spec => a.rendering spec
  | display item, _ => Rendering.ofFields [item.plainText]
  | value v, spec => Rendering.ofValue v spec
  | custom rule, spec => rule spec

/-- Whether no argument with a rule of its own is involved. -/
def isBuiltIn : Argument → Bool
  | reference a | boxed a => a.isBuiltIn
  | custom _ => false
  | _ => true

theorem rendering_value (v : Value) (spec : Text) :
    (value v).rendering spec = (ofValue v).rendering spec := by
  cases v <;> rfl

end Argument

/-- The arguments of a template, addressed from zero. -/
structure Store where
  arguments : List Argument

namespace Store

def empty : Store := ⟨[]⟩

def size (s : Store) : Nat := s.arguments.length

def isEmpty (s : Store) : Bool := s.arguments.isEmpty

def get? (s : Store) (index : Nat) : Option Argument := s.arguments[index]?

def extend (s : Store) (arguments : List Argument) : Store := ⟨s.arguments ++ arguments⟩

def push (s : Store) (argument : Argument) : Store := s.extend [argument]

def ofValues (values : List Value) : Store := ⟨values.map .value⟩

def summary (s : Store) : Text :=
  "ArgumentStore \x7b len: ".toList ++ Numeral.decimal s.size ++ " \x7d".toList

end Store

end TextTemplate
