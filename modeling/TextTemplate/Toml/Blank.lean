import TextTemplate.Text

/-! Spaces, comments and ends of lines in TOML documents. -/
namespace TextTemplate.Toml

/-- The spaces within a line. -/
def isSpace (c : Char) : Bool := c = ' ' || c = '\t'

/-- The characters of comments and literal strings: no control characters but the tabulator. -/
def isPrintable (c : Char) : Bool := c = '\t' || (0x20 ≤ c.toNat && c.toNat ≠ 0x7F)

def skipSpaces (t : Text) : Text := t.dropWhile isSpace

def skipComment : Text → Text
  | '#' :: t => t.dropWhile isPrintable
  | t => t

/-- The text after the line feed at its front, which may have a carriage return before it. -/
def skipNewline? : Text → Option Text
  | '\n' :: t => some t
  | '\r' :: '\n' :: t => some t
  | _ => none

/-- The text after the end of a line: spaces and a comment, then a line feed or the end of the
document. -/
def endLine? (t : Text) : Option Text :=
  match skipComment (skipSpaces t) with
  | [] => some []
  | rest => skipNewline? rest

/-- The text after spaces, comments and line feeds, the first characters possibly within a
comment. -/
def skipFillerFrom (comment : Bool) : Text → Text
  | [] => []
  | c :: t =>
    if c = '\n' then skipFillerFrom false t
    else if c = '\r' ∧ t.head? = some '\n' then skipFillerFrom false t
    else if comment then if isPrintable c then skipFillerFrom true t else c :: t
    else if isSpace c then skipFillerFrom false t
    else if c = '#' then skipFillerFrom true t
    else c :: t

/-- The text after all spaces, comments and line feeds at its front. -/
def skipFiller (t : Text) : Text := skipFillerFrom false t

end TextTemplate.Toml
