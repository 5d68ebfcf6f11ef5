import TextTemplate.Proofs.Scan

/-! Texts whose scan ends outside of a placeholder. They can stand in front of any text without a
change to its scan, so the placeholders of a template are the places that such a text leads up
to. -/
namespace TextTemplate

namespace Token

mutual

/-- Whether tokens end outside of a placeholder. -/
def closes : List Token → Bool
  | [] => true
  | .openBrace :: ts => closesInside ts
  | _ :: ts => closes ts

/-- Whether tokens that start inside a placeholder end outside of one. -/
def closesInside : List Token → Bool
  | [] => false
  | .closeBrace :: ts => closes ts
  | _ :: ts => closesInside ts

end

variable {c : Char} {ts us : List Token}

theorem closes_attach (hc : c ≠ '{') : closes (attach c ts) = closes ts := by
  unfold attach
  rw [if_neg hc]
  split
  · rfl
  · split <;> rfl

theorem closesInside_of_notMem (h : closeBrace ∉ ts) : closesInside ts = false := by
  induction ts with
  | nil => rfl
  | cons token ts ih =>
    have hts : closeBrace ∉ ts := fun hm => h (List.mem_cons_of_mem _ hm)
    cases token with
    | closeBrace => exact absurd List.mem_cons_self h
    | escapedBrace | openBrace | literal => exact ih hts

theorem closesInside_append_close (h : closeBrace ∉ ts) :
    closesInside (ts ++ closeBrace :: us) = closes us := by
  induction ts with
  | nil => rfl
  | cons token ts ih =>
    have hts : closeBrace ∉ ts := fun hm => h (List.mem_cons_of_mem _ hm)
    cases token with
    | closeBrace => exact absurd List.mem_cons_self h
    | escapedBrace | openBrace | literal => exact ih hts

end Token

namespace Text

variable {c : Char} {s t body : Text}

/-- The scan of a text meets no opening brace that stays unclosed. -/
def Closed (t : Text) : Prop := Token.closes (Token.lex t) = true

instance : DecidablePred Closed := fun t =>
  inferInstanceAs (Decidable (Token.closes (Token.lex t) = true))

theorem closed_escape_iff : Closed ('{' :: '{' :: t) ↔ Closed t := by
  unfold Closed
  rw [Token.lex_escape]
  rfl

theorem closed_char_iff (hc : c ≠ '{') : Closed (c :: t) ↔ Closed t := by
  unfold Closed
  rw [Token.lex_cons_of_ne hc, Token.closes_attach hc]

theorem closed_placeholder_iff (hhead : body.head? ≠ some '{') (hclose : '}' ∉ body) :
    Closed ('{' :: (body ++ '}' :: t)) ↔ Closed t := by
  unfold Closed
  rw [Token.lex_open (head?_append_close hhead), Token.lex_append_close, Token.closes,
    Token.closesInside_append_close (mt Token.closeBrace_mem_lex.mp hclose)]

theorem not_closed_unterminated (hhead : t.head? ≠ some '{') (hclose : '}' ∉ t) :
    ¬ Closed ('{' :: t) := by
  unfold Closed
  rw [Token.lex_open hhead, Token.closes,
    Token.closesInside_of_notMem (mt Token.closeBrace_mem_lex.mp hclose)]
  exact Bool.false_ne_true

/-- A closed text in front of another one leaves the scan of that one as it is. -/
theorem closed_append_iff (hs : s.Closed) : (s ++ t).Closed ↔ t.Closed := by
  induction s using scanInduction with
  | nil => rfl
  | escape s ih =>
    rw [closed_escape_iff] at hs
    exact closed_escape_iff.trans (ih hs)
  | placeholder body s hhead hclose ih =>
    rw [closed_placeholder_iff hhead hclose] at hs
    rw [List.cons_append, List.append_assoc, List.cons_append,
      closed_placeholder_iff hhead hclose]
    exact ih hs
  | unterminated s hhead hclose => exact absurd hs (not_closed_unterminated hhead hclose)
  | char c s hc ih =>
    rw [closed_char_iff hc] at hs
    exact (closed_char_iff hc).trans (ih hs)

end Text

end TextTemplate
