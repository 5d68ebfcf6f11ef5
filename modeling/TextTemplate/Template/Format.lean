import TextTemplate.Argument
import TextTemplate.Template.Placeholder
import TextTemplate.Template.Segment

/-! Filling a template with the arguments of a store. -/
namespace TextTemplate

/-- A specification that an argument could not follow, and where it stands in the template. -/
structure FormatError where
  span : Span
  spec : Text
  cause : SpecError
deriving DecidableEq, Repr

def FormatError.message (e : FormatError) : Text :=
  "invalid format spec '".toList ++ e.spec ++ "' at ".toList ++ Numeral.decimal e.span.start ++
    "..".toList ++ Numeral.decimal e.span.stop ++ ": ".toList ++ e.cause.message

namespace Output

/-- Write the argument that a placeholder body addresses, if there is one; no alignment outlives
it. -/
def resolve (o : Output) (store : Store) (offset : Nat) (body : Text) :
    Output × Option FormatError :=
  match Placeholder.ofBody? body with
  | none => (o, none)
  | some p =>
    match p.index.bind store.get? with
    | none => (o, none)
    | some argument =>
      let (written, failure) := (o.padNext p.alignment).render (argument.rendering p.spec)
      (written.clearPending,
        failure.map fun cause => ⟨(p.specSpan body).shift offset, p.spec, cause⟩)

/-- Write segments in order up to the first failure. -/
def fill (store : Store) (o : Output) : List Segment → Except FormatError Output
  | [] => .ok o
  | .literal t :: segments => fill store (o.literal t) segments
  | .placeholder offset body :: segments =>
    match o.resolve store offset body with
    | (written, none) => fill store written segments
    | (_, some e) => .error e

end Output

/-- The text of a template under the arguments of a store; without arguments a template stands for
itself. -/
def format (store : Store) (template : Text) : Except FormatError Text :=
  if store.isEmpty then .ok template
  else (Output.empty.fill store (Segment.ofTemplate template)).map Output.text

end TextTemplate
