import TextTemplate.Proofs.Contribution
import TextTemplate.Proofs.Scan

/-! Templates read character by character, without tokens, byte ranges of tokens or a shared output.
Formatting is this reading. -/
namespace TextTemplate

namespace Store

variable {store : Store} {offset : Nat} {c : Char} {body t : Text}

/-- The text of a template from a byte offset on. Two opening braces stand for one; any other
opening brace takes what stands in front of the first closing brace behind it as a body, and without
one the rest is literal. -/
def expand (store : Store) (offset : Nat) : Text → Except FormatError Text
  | [] => .ok []
  | '{' :: '{' :: t => return '{' :: (← expand store (offset + 2) t)
  | '{' :: t =>
    if '}' ∈ t then do
      let body : Text := t.takeWhile (· ≠ '}')
      let field ← store.contribution (offset + 1) body
      return field ++ (← expand store (offset + body.byteLength + 2) (t.dropWhile (· ≠ '}')).tail)
    else .ok ('{' :: t)
  | c :: t => return c :: (← expand store (offset + c.utf8Size) t)
termination_by t => t.length
decreasing_by
  all_goals simp only [List.length_cons, List.length_tail]
  · omega
  · have := (List.dropWhile_sublist (l := t) (fun c : Char => decide (c ≠ '}'))).length_le
    omega
  · omega

theorem expand_nil : store.expand offset [] = .ok [] := by
  rw [expand]

theorem expand_escape : store.expand offset ('{' :: '{' :: t) =
    (store.expand (offset + 2) t).map ('{' :: ·) := by
  rw [expand]
  cases store.expand (offset + 2) t <;> rfl

theorem expand_char (hc : c ≠ '{') : store.expand offset (c :: t) =
    (store.expand (offset + c.utf8Size) t).map (c :: ·) := by
  rw [expand]
  · cases store.expand (offset + c.utf8Size) t <;> rfl
  · rintro t rfl
    exact absurd rfl hc
  · rintro rfl
    exact absurd rfl hc

theorem expand_placeholder (hhead : body.head? ≠ some '{') (hclose : '}' ∉ body) :
    store.expand offset ('{' :: (body ++ '}' :: t)) = do
      let field ← store.contribution (offset + 1) body
      return field ++ (← store.expand (offset + body.byteLength + 2) t) := by
  rw [expand]
  · rw [if_pos (by simp), Text.takeWhile_append_close hclose,
      Text.dropWhile_append_close hclose]
    rfl
  · rintro u hu
    exact Text.head?_append_close hhead (congrArg List.head? hu)

theorem expand_unterminated (hhead : t.head? ≠ some '{') (hclose : '}' ∉ t) :
    store.expand offset ('{' :: t) = .ok ('{' :: t) := by
  rw [expand]
  · rw [if_neg hclose]
  · rintro u rfl
    exact hhead rfl

end Store

open Segment in
/-- The tokens of a text contribute what the text expands to. -/
theorem contributions_ofTokens_lex (store : Store) (offset : Nat) (t : Text) :
    contributions store (ofTokens offset (Token.lex t)) = store.expand offset t := by
  induction t using Text.scanInduction generalizing offset with
  | nil => rw [Store.expand_nil]; rfl
  | escape t ih =>
    rw [ofTokens_lex_escape, contributions_cons_of_eq_ok rfl, ih, Store.expand_escape]
    rfl
  | placeholder body t hhead hclose ih =>
    rw [ofTokens_lex_placeholder hhead hclose, contributions, ih,
      Store.expand_placeholder hhead hclose]
    rfl
  | unterminated t hhead hclose =>
    rw [ofTokens_lex_unterminated hhead hclose, contributions_cons_of_eq_ok rfl,
      Store.expand_unterminated hhead hclose]
    simp [contributions, Except.map]
  | char c t hc ih =>
    rw [Store.expand_char hc, ← ih]
    obtain h | ⟨u, ss, hu, h⟩ := ofTokens_lex_char offset t hc
    · rw [h, contributions_cons_of_eq_ok rfl]
      rfl
    · rw [h, hu, contributions_cons_of_eq_ok rfl, contributions_cons_of_eq_ok rfl]
      cases contributions store ss <;> simp [Except.map]

theorem format_eq_expand {store : Store} (h : store.isEmpty = false) (template : Text) :
    format store template = store.expand 0 template := by
  rw [format_eq_contributions h, Segment.ofTemplate, contributions_ofTokens_lex]

/-- Every template expands character by character under every store but the empty one, which leaves
it as it is. -/
theorem format_eq_ite_expand (store : Store) (template : Text) :
    format store template =
      if store.isEmpty then .ok template else store.expand 0 template := by
  cases h : store.isEmpty with
  | true => simp [format, h]
  | false => simp [format_eq_expand h]

end TextTemplate
