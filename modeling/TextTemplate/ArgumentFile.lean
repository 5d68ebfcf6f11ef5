import TextTemplate.Toml.Document
import TextTemplate.Value

/-! Argument files: TOML documents that hold a template, arguments, or both. -/
namespace TextTemplate

structure ArgumentFile where
  template : Option Text
  arguments : List Value
deriving DecidableEq

namespace ArgumentFile

/-- What is wrong with the content of an argument file. -/
inductive Refusal
  | notToml
  | unknownKey
  | templateNotText
  | argumentsNotList
  | argumentNotScalar
deriving DecidableEq, Repr

def empty : ArgumentFile := ⟨none, []⟩

def templateKey : Text := "template".toList

def argumentsKey : Text := "args".toList

/-- The value of one item of the arguments. -/
def scalar : Toml.Value → Except Refusal Value
  | .string t => .ok (.text t)
  | .integer n => .ok (.integer n)
  | .float x => .ok (.float x)
  | .boolean b => .ok (.bool b)
  | _ => .error .argumentNotScalar

def templateOf (root : Toml.Entries) : Except Refusal (Option Text) :=
  match root.get? templateKey with
  | none => .ok none
  | some (.string t) => .ok (some t)
  | some _ => .error .templateNotText

def argumentsOf (root : Toml.Entries) : Except Refusal (List Value) :=
  match root.get? argumentsKey with
  | none => .ok []
  | some (.array items) => items.mapM scalar
  | some _ => .error .argumentsNotList

/-- The file that a root table describes, which has no other keys. -/
def ofTable (root : Toml.Entries) : Except Refusal ArgumentFile :=
  if root.all fun e => e.1 = templateKey || e.1 = argumentsKey then do
    let template ← templateOf root
    let arguments ← argumentsOf root
    return ⟨template, arguments⟩
  else .error .unknownKey

def ofText (t : Text) : Except Refusal ArgumentFile :=
  match Toml.Entries.ofDocument? t with
  | none => .error .notToml
  | some root => ofTable root

end ArgumentFile

end TextTemplate
