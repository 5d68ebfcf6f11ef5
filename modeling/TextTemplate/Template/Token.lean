import TextTemplate.Text

/-! Templates as sequences of tokens: braces, doubled opening braces, and the texts between them. -/
namespace TextTemplate

/-- A piece of a template; closing braces are never doubled. -/
inductive Token
  | escapedBrace
  | openBrace
  | closeBrace
  | literal (text : Text)
deriving DecidableEq, Repr

namespace Token

variable {c : Char} {t : Text} {ts : List Token}

/-- The characters that a token stands for in the template. -/
def lexeme : Token → Text
  | escapedBrace => ['{', '{']
  | openBrace => ['{']
  | closeBrace => ['}']
  | literal t => t

/-- The text that a token contributes outside of placeholders. -/
def meaning : Token → Text
  | escapedBrace => ['{']
  | token => token.lexeme

/-- The tokens of a character and of the text behind it; an ordinary character joins a literal
there. -/
def attach (c : Char) (ts : List Token) : List Token :=
  if c = '{' then openBrace :: ts
  else if c = '}' then closeBrace :: ts
  else
    match ts with
    | literal t :: ts => literal (c :: t) :: ts
    | ts => literal [c] :: ts

/-- The tokens of a template; two opening braces make one token from the left. -/
def lex : Text → List Token
  | [] => []
  | [c] => attach c []
  | c :: d :: t =>
    if c = '{' ∧ d = '{' then escapedBrace :: lex t else attach c (lex (d :: t))

/-- The template that tokens make up. -/
def source (ts : List Token) : Text := ts.flatMap lexeme

theorem source_attach : source (attach c ts) = c :: source ts := by
  unfold attach
  split
  · next h => simp [source, lexeme, h]
  · split
    · next h => simp [source, lexeme, h]
    · split <;> simp [source, lexeme]

theorem source_lex (t : Text) : source (lex t) = t := by
  fun_induction lex t with
  | case1 => rfl
  | case2 c => rw [source_attach]; rfl
  | case3 c d t h ih =>
    obtain ⟨rfl, rfl⟩ := h
    simpa [source, lexeme] using ih
  | case4 c d t h ih => rw [source_attach, ih]

/-- Tokens with the byte ranges that they cover when the first one starts at an offset. -/
def withSpans (offset : Nat) : List Token → List (Token × Span)
  | [] => []
  | token :: ts =>
    let stop := offset + token.lexeme.byteLength
    (token, ⟨offset, stop⟩) :: withSpans stop ts

end Token

end TextTemplate
