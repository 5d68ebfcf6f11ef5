import TextTemplate.Numeral
import TextTemplate.Toml.Blank

/-! The four forms of TOML strings: basic and literal ones, on one line or on several. -/
namespace TextTemplate.Toml

/-- What stands before the next character of a basic string. -/
inductive QuotedState
  | content
  | escape
  | scalar (digitsLeft : Nat) (value : Nat)
  | lineBreak
  | indentation
deriving DecidableEq, Repr

def scalarOf? (n : Nat) : Option Char := if n.isValidChar then some (Char.ofNat n) else none

/-- The character of an escape of one letter. -/
def escaped? (c : Char) : Option Char :=
  if c = '"' ∨ c = '\\' then some c
  else if c = 'b' then some '\x08'
  else if c = 't' then some '\t'
  else if c = 'n' then some '\n'
  else if c = 'f' then some '\x0c'
  else if c = 'r' then some '\r'
  else none

/-- How many digits follow the letter of a numeric escape. -/
def scalarDigits? (c : Char) : Option Nat :=
  if c = 'u' then some 4 else if c = 'U' then some 8 else none

/-- A character in front of the string that is read behind it. -/
def consString (c : Char) (r : Option (Text × Text)) : Option (Text × Text) :=
  r.map fun (s, rest) => (c :: s, rest)

/-- The end of a string on several lines at the first of a run of quotes: three close the string,
and up to two further ones before them belong to it. -/
def closeMultiline? (quote : Char) (t : Text) : Option (Text × Text) :=
  let run := (t.takeWhile (· = quote)).length
  if run < 3 then none
  else if run ≤ 5 then some (List.replicate (run - 3) quote, t.drop run)
  else some ([quote, quote], t.drop 5)

/-- The rest of a basic string, and the text behind its closing quotes. -/
def readBasicFrom (multiline : Bool) (state : QuotedState) : Text → Option (Text × Text)
  | [] => none
  | c :: t =>
    let crlf : Bool := multiline && c = '\r' && t.head? = some '\n'
    match state with
    | .escape =>
      match escaped? c, scalarDigits? c with
      | some d, _ => consString d (readBasicFrom multiline .content t)
      | none, some digits => readBasicFrom multiline (.scalar digits 0) t
      | none, none =>
        if multiline && (isSpace c || crlf) then readBasicFrom multiline .lineBreak t
        else if multiline && c = '\n' then readBasicFrom multiline .indentation t
        else none
    | .scalar digitsLeft value =>
      match Numeral.digitOf? c with
      | none => none
      | some d =>
        if digitsLeft ≤ 1 then
          match scalarOf? (16 * value + d) with
          | some e => consString e (readBasicFrom multiline .content t)
          | none => none
        else readBasicFrom multiline (.scalar (digitsLeft - 1) (16 * value + d)) t
    | .lineBreak =>
      if isSpace c || crlf then readBasicFrom multiline .lineBreak t
      else if c = '\n' then readBasicFrom multiline .indentation t
      else none
    | _ =>
      if state = .indentation && (isSpace c || c = '\n' || crlf) then
        readBasicFrom multiline .indentation t
      else if c = '\\' then readBasicFrom multiline .escape t
      else if c = '"' then
        if multiline then
          match closeMultiline? '"' (c :: t) with
          | some ending => some ending
          | none => consString c (readBasicFrom multiline .content t)
        else some ([], t)
      else if isPrintable c || (multiline && c = '\n') then
        consString c (readBasicFrom multiline .content t)
      else if crlf then readBasicFrom multiline .content t
      else none

/-- The rest of a literal string, and the text behind its closing quotes. -/
def readLiteralFrom (multiline : Bool) : Text → Option (Text × Text)
  | [] => none
  | c :: t =>
    if c = '\'' then
      if multiline then
        match closeMultiline? '\'' (c :: t) with
        | some ending => some ending
        | none => consString c (readLiteralFrom multiline t)
      else some ([], t)
    else if isPrintable c || (multiline && c = '\n') then consString c (readLiteralFrom multiline t)
    else if multiline && c = '\r' && t.head? = some '\n' then readLiteralFrom multiline t
    else none

/-- The content of a string on several lines does not start with the line feed behind the opening
quotes. -/
def dropFirstNewline (t : Text) : Text := (skipNewline? t).getD t

/-- A string on one line, at its opening quote. -/
def readLineString? : Text → Option (Text × Text)
  | '"' :: t => readBasicFrom false .content t
  | '\'' :: t => readLiteralFrom false t
  | _ => none

/-- A string of any form, at its opening quotes. -/
def readString? : Text → Option (Text × Text)
  | '"' :: '"' :: '"' :: t => readBasicFrom true .content (dropFirstNewline t)
  | '\'' :: '\'' :: '\'' :: t => readLiteralFrom true (dropFirstNewline t)
  | t => readLineString? t

end TextTemplate.Toml
