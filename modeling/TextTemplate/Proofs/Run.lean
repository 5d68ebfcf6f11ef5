import Mathlib.Data.List.Basic
import TextTemplate.CommandLine.Run
import TextTemplate.Proofs.CommandLine

/-! How a run ends, from its options, the content of its argument file and the standard input: where
its template and its arguments come from, what it writes, and when the standard input makes no
difference. -/
namespace TextTemplate

namespace Options

variable {o : Options} {file file' : ArgumentFile} {content input : Except ReadFailure Text}
  {template : Text} {e : LoadFailure}

/-- The words that are arguments: all but the first one if that is the template. -/
def argumentWords (o : Options) (file : ArgumentFile) : List Text :=
  if (o.template.or file.template).isSome then o.words else o.words.tail

/-- The argument at an index: a value of the argument file, or behind those a word, as a text or as
what it denotes. -/
def argument? (o : Options) (file : ArgumentFile) (i : Nat) : Option Argument :=
  if i < file.arguments.length then file.arguments[i]?.map .value
  else (o.argumentWords file)[i - file.arguments.length]?.map fun word =>
    .value (if o.raw then .text word else .infer word)

end Options

end TextTemplate
