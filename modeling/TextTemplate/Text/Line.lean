import TextTemplate.Text

/-! Texts as sequences of lines, each with the terminator that ends it. -/
namespace TextTemplate

/-- The line terminators; a carriage return and a line feed after it are one. -/
def Text.lineTerminators : List Char :=
  ['\r', '\n', '\x0b', '\x0c', '\u0085', '\u2028', '\u2029']

/-- A line of a text: its number from one, the position of its first character, and its
characters. -/
structure Line where
  number : Nat
  start : Nat
  text : Text
deriving DecidableEq, Repr

namespace Line

variable {c : Char} {t : Text} {lines : List Text}

/-- A character in front of lines: it joins the first one. -/
def attach (c : Char) : List Text → List Text
  | [] => [[c]]
  | line :: lines => (c :: line) :: lines

/-- The lines of a text, each with its terminator; no line follows the last terminator. -/
def split : Text → List Text
  | [] => []
  | [c] => [[c]]
  | c :: d :: t =>
    if c = '\r' ∧ d = '\n' then [c, d] :: split t
    else if c ∈ Text.lineTerminators then [c] :: split (d :: t)
    else attach c (split (d :: t))

/-- The line that holds a position, among lines that start at a number and a position; the last one
takes the rest. -/
def find (number start : Nat) : List Text → Nat → Line
  | [], _ => ⟨number, start, []⟩
  | [line], _ => ⟨number, start, line⟩
  | line :: lines, position =>
    if position < start + line.length then ⟨number, start, line⟩
    else find (number + 1) (start + line.length) lines position

/-- The line of a text that holds a position. -/
def holding (t : Text) (position : Nat) : Line := find 1 0 (split t) position

end Line

end TextTemplate
