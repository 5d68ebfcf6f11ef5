import TextTemplate.Proofs.Concatenation
import TextTemplate.Proofs.Numeral

/-! Templates written from literal texts and placeholders, and what formatting makes of them. -/
namespace TextTemplate

open Text

/-- A placeholder that can be written: an index and a width of 64 bits, and a specification that
closes nothing. -/
structure Slot where
  index : Nat
  width : Int
  spec : Text
  index_lt : index < Placeholder.indexBound
  le_width : -Placeholder.widthLimit - 1 ≤ width
  width_le : width ≤ Placeholder.widthLimit
  close_notMem : '}' ∉ spec

namespace Slot

variable {s : Slot}

/-- The width behind its comma; a width of zero is left out. -/
def widthPart (s : Slot) : Text := if s.width = 0 then [] else ',' :: Numeral.ofInt s.width

def lead (s : Slot) : Text := Numeral.decimal s.index ++ (s.widthPart ++ [':'])

def body (s : Slot) : Text := s.lead ++ s.spec

/-- What the placeholder stands for: nothing without an argument at its index. -/
def contribution (store : Store) (s : Slot) : Except SpecError Text :=
  match store.get? s.index with
  | none => .ok []
  | some argument => (argument.rendering s.spec).alone (.ofWidth s.width)

/-- The error of the placeholder, written at a byte offset: it covers the specification. -/
def error (s : Slot) (offset : Nat) (cause : SpecError) : FormatError :=
  let start := offset + Text.byteLength ('{' :: s.lead)
  let stop := offset + Text.byteLength ('{' :: s.body)
  ⟨⟨start, stop⟩, s.spec, cause⟩

end Slot

/-- A part of a template: a literal text or a placeholder. -/
inductive Piece
  | literal (text : Text)
  | slot (s : Slot)

namespace Piece

/-- The template of a part; a literal text has its opening braces doubled. -/
def print : Piece → Text
  | literal t => t.flatMap fun c => if c = '{' then ['{', '{'] else [c]
  | slot s => '{' :: (s.body ++ ['}'])

def contribution (store : Store) : Piece → Except SpecError Text
  | literal t => .ok t
  | slot s => s.contribution store

end Piece

namespace Placeholder

end Placeholder

namespace Slot

variable {store : Store} {s : Slot} {n : Nat}

end Slot

namespace Piece

variable {store : Store} {n : Nat} {p : Piece} {ps : List Piece} {t : Text} {cause : SpecError}

end Piece

end TextTemplate
