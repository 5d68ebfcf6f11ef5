import TextTemplate.ArgumentFile
import TextTemplate.CommandLine.Options
import TextTemplate.Report

/-! A run of the program as a function of its command line, the argument file and the standard
input. -/
namespace TextTemplate

inductive ReadFailure
  | missing
  | directory
  | notUnicode
  | other (message : Text)
deriving DecidableEq, Repr

def ReadFailure.message : ReadFailure → Text
  | missing => "No such file or directory (os error 2)".toList
  | directory => "Is a directory (os error 21)".toList
  | notUnicode => "stream did not contain valid UTF-8".toList
  | other message => message

def ArgumentFile.Refusal.message : ArgumentFile.Refusal → Text
  | .notToml => "the text is not a TOML document".toList
  | .unknownKey => "a key is neither template nor args".toList
  | .templateNotText => "the template is not a string".toList
  | .argumentsNotList => "the arguments are not an array".toList
  | .argumentNotScalar => "an argument is not a boolean, a number or a string".toList

inductive LoadFailure
  | unreadable (cause : ReadFailure)
  | refused (cause : ArgumentFile.Refusal)
deriving DecidableEq, Repr

def LoadFailure.message : LoadFailure → Text
  | unreadable cause => "Failed to read argument file: ".toList ++ cause.message
  | refused cause => "Failed to parse argument file TOML: ".toList ++ cause.message

/-- How a run ends: its exit code and what it writes. -/
structure Outcome where
  code : Nat
  output : Text
  errors : Text
deriving DecidableEq, Repr

namespace Outcome

def failure (message : Text) : Outcome := ⟨1, [], message⟩

end Outcome

namespace Options

/-- The argument file that a run uses: the one it names, or the empty one. -/
def load (o : Options) (content : Except ReadFailure Text) : Except LoadFailure ArgumentFile :=
  match o.file, content with
  | none, _ => .ok .empty
  | some _, .error cause => .error (.unreadable cause)
  | some _, .ok t =>
    match ArgumentFile.ofText t with
    | .error cause => .error (.refused cause)
    | .ok file => .ok file

/-- The template and the words that are arguments: the option wins over the file, and the file over
the first word. -/
def chooseTemplate (o : Options) (file : ArgumentFile) : Option Text × List Text :=
  match o.template, file.template, o.words with
  | some t, _, words => (some t, words)
  | none, some t, words => (some t, words)
  | none, none, t :: words => (some t, words)
  | none, none, [] => (none, [])

/-- The value of a word: a text if words are taken as they are. -/
def valueOfWord (o : Options) (word : Text) : Value :=
  if o.raw then .text word else Value.infer word

/-- The arguments of a run: those of the file before the words. -/
def store (o : Options) (file : ArgumentFile) : Store :=
  Store.ofValues (file.arguments ++ (o.chooseTemplate file).2.map o.valueOfWord)

/-- The end of a run that fills a template. -/
def fill (o : Options) (file : ArgumentFile) (template : Text) : Outcome :=
  match format (o.store file) template with
  | .ok t => ⟨0, if o.noNewline then t else t ++ ['\n'], []⟩
  | .error e => .failure (e.report template "<template>".toList)

/-- The end of a run whose argument file could not be loaded. -/
def loadFailed (o : Options) (e : LoadFailure) : Outcome :=
  .failure ("Error loading argument file '".toList ++ o.file.getD [] ++ "': ".toList ++
    e.message ++ ['\n'])

/-- Whether a run takes its template from the standard input. -/
def needsInput (o : Options) (content : Except ReadFailure Text) : Bool :=
  match o.load content with
  | .ok file => (o.chooseTemplate file).1.isNone
  | .error _ => false

/-- The end of a run, given the content of its argument file and the standard input. -/
def run (o : Options) (content input : Except ReadFailure Text) : Outcome :=
  match o.load content with
  | .error e => o.loadFailed e
  | .ok file =>
    match (o.chooseTemplate file).1, input with
    | some template, _ => o.fill file template
    | none, .ok template => o.fill file template
    | none, .error cause =>
      .failure ("Error reading from stdin: ".toList ++ cause.message ++ ['\n'])

end Options

end TextTemplate
