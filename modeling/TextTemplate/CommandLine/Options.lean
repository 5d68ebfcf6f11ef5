import TextTemplate.Decimal

/-! Command lines: options with values, switches that cluster, and words, of which negative numbers
are some. -/
namespace TextTemplate

/-- What a command line asks to fill: where the template comes from, and the words that were
given. -/
structure Options where
  template : Option Text
  file : Option Text
  raw : Bool
  noNewline : Bool
  words : List Text
deriving DecidableEq, Repr

inductive ValueOption
  | template
  | file
deriving DecidableEq, Repr

/-- The options that take none. -/
inductive Switch
  | raw
  | noNewline
deriving DecidableEq, Repr

/-- What an accepted command line asks for. -/
inductive Request
  | help
  | fill (options : Options)
deriving DecidableEq, Repr

namespace Options

def empty : Options := ⟨none, none, false, false, []⟩

/-- The options with a value, which can be given once; a file must have a name. -/
def set? (o : Options) (option : ValueOption) (value : Text) : Option Options :=
  match option with
  | .template => if o.template.isSome then none else some { o with template := some value }
  | .file => if o.file.isSome || value.isEmpty then none else some { o with file := some value }

/-- The options with a switch, which can be given once. -/
def turnOn? (o : Options) (switch : Switch) : Option Options :=
  match switch with
  | .raw => if o.raw then none else some { o with raw := true }
  | .noNewline => if o.noNewline then none else some { o with noNewline := true }

def addWords (o : Options) (words : List Text) : Options := { o with words := o.words ++ words }

end Options

namespace CommandLine

/-- The forms of an element of the command line. -/
inductive Element
  | terminator
  | word
  | long (name : Text) (value : Option Text)
  | cluster (letters : Text)
deriving DecidableEq, Repr

/-- Whether a text is a numeral without a sign that starts with a digit, also in its exponent. -/
def isUnsignedNumber (t : Text) : Bool :=
  let (_, rest) := Decimal.readFraction (t.dropWhile Char.isDigit)
  !(t.takeWhile Char.isDigit).isEmpty &&
    match rest with
    | [] => true
    | mark :: digits => (mark = 'e' || mark = 'E') && !digits.isEmpty && digits.all Char.isDigit

/-- The form of an element: a single minus sign and negative numbers are words. -/
def Element.ofText : Text → Element
  | ['-', '-'] => terminator
  | '-' :: '-' :: t =>
    long (t.takeWhile (· ≠ '='))
      (match t.dropWhile (· ≠ '=') with
      | [] => none
      | _ :: value => some value)
  | '-' :: c :: t => if isUnsignedNumber (c :: t) then word else cluster (c :: t)
  | _ => word

/-- What is known after some elements: the options, with an option that still needs its value; that
only words follow; or a call for help. -/
inductive Progress
  | options (o : Options) (pending : Option ValueOption)
  | onlyWords (o : Options)
  | help
deriving DecidableEq, Repr

/-- An option with its value, or waiting for it. -/
def Progress.ofOption? (o : Options) (option : ValueOption) : Option Text → Option Progress
  | some value => (o.set? option value).map (options · none)
  | none => some (options o (some option))

/-- The effect of a long option, by its full name. -/
def longEffect? (o : Options) (name : Text) (value : Option Text) : Option Progress :=
  if name = "template".toList then Progress.ofOption? o .template value
  else if name = "args-file".toList then Progress.ofOption? o .file value
  else if value.isSome then none
  else if name = "raw".toList then (o.turnOn? .raw).map (.options · none)
  else if name = "no-newline".toList then (o.turnOn? .noNewline).map (.options · none)
  else if name = "help".toList then some .help
  else none

/-- The value that follows an option in a cluster; an equals sign before it is no part of it. -/
def attachedValue : Text → Option Text
  | [] => none
  | '=' :: t => some t
  | t => some t

/-- The effect of a cluster of letters; an option takes the rest of it as its value. -/
def clusterEffect? (o : Options) : Text → Option Progress
  | [] => some (.options o none)
  | 't' :: t => Progress.ofOption? o .template (attachedValue t)
  | 'f' :: t => Progress.ofOption? o .file (attachedValue t)
  | 'r' :: t => (o.turnOn? .raw).bind (clusterEffect? · t)
  | 'n' :: t => (o.turnOn? .noNewline).bind (clusterEffect? · t)
  | 'h' :: _ => some .help
  | _ => none

/-- The effect of an element; an option that needs a value takes the next word and nothing else. -/
def effect? (o : Options) (pending : Option ValueOption) (element : Text) : Option Progress :=
  match Element.ofText element, pending with
  | .word, some option => Progress.ofOption? o option (some element)
  | .word, none => some (.options (o.addWords [element]) none)
  | _, some _ => none
  | .terminator, none => some (.onlyWords o)
  | .long name value, none => longEffect? o name value
  | .cluster letters, none => clusterEffect? o letters

/-- What a command line asks for after some of its elements. -/
def readFrom? (o : Options) (pending : Option ValueOption) : List Text → Option Request
  | [] => if pending.isSome then none else some (.fill o)
  | element :: rest =>
    match effect? o pending element with
    | none => none
    | some (.options o pending) => readFrom? o pending rest
    | some (.onlyWords o) => some (.fill (o.addWords rest))
    | some .help => some .help

/-- What a command line asks for, if it is well formed. -/
def read? (elements : List Text) : Option Request := readFrom? .empty none elements

end CommandLine

end TextTemplate
