import TextTemplate.Numeral

/-! Coloured characters on a terminal. -/
namespace TextTemplate

/-- The colours of a report: red for the fault, and greys by their number in the palette. -/
inductive Colour
  | red
  | grey (level : Nat)
deriving DecidableEq, Repr

namespace Colour

def frame : Colour := grey 246

def margin : Colour := grey 240

def quoted : Colour := grey 249

/-- The parameters that select a colour. -/
def code : Colour → Text
  | red => "31".toList
  | grey level => "38;5;".toList ++ Numeral.decimal level

def paint (c : Colour) (t : Text) : Text :=
  "\x1b[".toList ++ c.code ++ 'm' :: t ++ "\x1b[0m".toList

end Colour

/-- A character in a colour or in none. -/
structure Cell where
  colour : Option Colour
  char : Char
deriving DecidableEq, Repr

namespace Cell

def red (c : Char) : Cell := ⟨some .red, c⟩

def gap : Cell := ⟨none, ' '⟩

def text (c : Cell) : Text :=
  match c.colour with
  | some colour => colour.paint [c.char]
  | none => [c.char]

end Cell

end TextTemplate
