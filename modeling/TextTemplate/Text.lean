/-! Texts as lists of Unicode scalar values, measured in characters and in UTF-8 bytes. -/
namespace TextTemplate

/-- A text is the list of its Unicode scalar values. -/
abbrev Text := List Char

/-- A half-open range of byte positions. -/
structure Span where
  start : Nat
  stop : Nat
deriving DecidableEq, Repr

namespace Span

def shift (s : Span) (offset : Nat) : Span := ⟨offset + s.start, offset + s.stop⟩

end Span

namespace Text

variable {s t : Text} {c : Char} {m n : Nat}

/-- The number of bytes of the UTF-8 form of a text. -/
def byteLength : Text → Nat
  | [] => 0
  | c :: t => c.utf8Size + byteLength t

@[simp] theorem byteLength_nil : byteLength [] = 0 := rfl

@[simp] theorem byteLength_cons : byteLength (c :: t) = c.utf8Size + byteLength t := rfl

@[simp] theorem byteLength_append : byteLength (s ++ t) = byteLength s + byteLength t := by
  induction s with
  | nil => simp
  | cons c s ih => simp [ih, Nat.add_assoc]

/-- The text cut at a byte position, if that position lies between two characters. -/
def splitAtByte? : Text → Nat → Option (Text × Text)
  | t, 0 => some ([], t)
  | [], _ + 1 => none
  | c :: t, n + 1 =>
    if c.utf8Size ≤ n + 1 then
      (splitAtByte? t (n + 1 - c.utf8Size)).map fun (before, after) => (c :: before, after)
    else none

theorem splitAtByte?_zero : splitAtByte? t 0 = some ([], t) := by
  cases t <;> rfl

theorem splitAtByte?_byteLength : splitAtByte? (s ++ t) s.byteLength = some (s, t) := by
  induction s with
  | nil => exact splitAtByte?_zero
  | cons c s ih =>
    have hc := c.utf8Size_pos
    obtain ⟨n, hn⟩ : ∃ n, c.utf8Size + byteLength s = n + 1 :=
      ⟨c.utf8Size + byteLength s - 1, by omega⟩
    have hs : n + 1 - c.utf8Size = byteLength s := by omega
    simp [splitAtByte?, hn, hs, ih]
    omega

/-- The characters that a byte range covers, if both of its ends lie between two characters. -/
def slice? (t : Text) (span : Span) : Option Text :=
  if span.start ≤ span.stop then do
    let (_, rest) ← t.splitAtByte? span.start
    let (middle, _) ← rest.splitAtByte? (span.stop - span.start)
    return middle
  else none

theorem slice?_append {u : Text} :
    (s ++ (t ++ u)).slice? ⟨s.byteLength, s.byteLength + t.byteLength⟩ = some t := by
  simp [slice?, splitAtByte?_byteLength]

/-- The texts before and behind the first occurrence of a character. -/
def splitOnce? (c : Char) (t : Text) : Option (Text × Text) :=
  match t.dropWhile (· ≠ c) with
  | [] => none
  | _ :: after => some (t.takeWhile (· ≠ c), after)

/-- The space, the tabulator, the line feed, the form feed and the carriage return. -/
def isAsciiBlank (c : Char) : Bool :=
  c = ' ' || c = '\t' || c = '\n' || c = '\x0c' || c = '\r'

end Text

end TextTemplate
