import TextTemplate.Template.Format

/-! The operations on one output, as data, and what a run of them writes. -/
namespace TextTemplate

inductive Operation
  | padNext (alignment : Alignment)
  | clearPending
  | push (text : Text)
  | literal (text : Text)
  | render (argument : Argument) (spec : Text)
  | resolve (store : Store) (template : Text) (body : Span)

/-- A fault of an operation: of a specification alone, or of one in a template. -/
inductive Fault
  | spec (e : SpecError)
  | template (e : FormatError)
deriving DecidableEq, Repr

namespace Output

/-- The output after an operation, and the fault that ended it; a range that cuts a character is no
body. -/
def perform (o : Output) : Operation → Output × Option Fault
  | .padNext a => (o.padNext a, none)
  | .clearPending => (o.clearPending, none)
  | .push t => (o.push t, none)
  | .literal t => (o.literal t, none)
  | .render argument spec =>
    let (written, failure) := o.render (argument.rendering spec)
    (written, failure.map .spec)
  | .resolve store template span =>
    match template.slice? span with
    | none => (o, none)
    | some body =>
      let (written, failure) := o.resolve store span.start body
      (written, failure.map .template)

def performAll (o : Output) (operations : List Operation) : Output :=
  operations.foldl (fun o operation => (o.perform operation).1) o

end Output

end TextTemplate
