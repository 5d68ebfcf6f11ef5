import TextTemplate.Template.Token

/-! Templates as sequences of literal texts and placeholders. -/
namespace TextTemplate

/-- A literal text, or a placeholder with its body and the byte position of the body. -/
inductive Segment
  | literal (text : Text)
  | placeholder (offset : Nat) (body : Text)
deriving DecidableEq, Repr

namespace Segment

mutual

/-- The segments of tokens outside of placeholders, the first token at a byte offset. -/
def ofTokens (offset : Nat) : List Token → List Segment
  | [] => []
  | .openBrace :: ts => ofTokensInside (offset + 1) [] ts
  | token :: ts => literal token.meaning :: ofTokens (offset + token.lexeme.byteLength) ts

/-- The segments of tokens inside a placeholder whose body starts at a byte offset and was read up
to here; without a closing brace the placeholder is literal text. -/
def ofTokensInside (offset : Nat) (body : Text) : List Token → List Segment
  | [] => [literal ('{' :: body)]
  | .closeBrace :: ts => placeholder offset body :: ofTokens (offset + body.byteLength + 1) ts
  | token :: ts => ofTokensInside offset (body ++ token.lexeme) ts

end

def ofTemplate (template : Text) : List Segment := ofTokens 0 (Token.lex template)

end Segment

end TextTemplate
