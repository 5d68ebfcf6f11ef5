import TextTemplate.Template.Segment

/-! The scan of a template as steps on its characters: an escape, a placeholder up to its first
closing brace, a brace that nothing closes, or any other character. The tokens of a template follow
the same steps. -/
namespace TextTemplate

section

variable {body t : Text}

theorem Text.byteLength_escape : byteLength ('{' :: '{' :: t) = 2 + byteLength t := by
  rw [byteLength_cons, byteLength_cons, ← Nat.add_assoc]
  rfl

theorem Text.byteLength_placeholder :
    byteLength ('{' :: (body ++ '}' :: t)) = body.byteLength + 2 + byteLength t := by
  have hopen : '{'.utf8Size = 1 := rfl
  have hclose : '}'.utf8Size = 1 := rfl
  simp only [byteLength_cons, byteLength_append]
  omega

theorem Text.head?_append_close (hhead : body.head? ≠ some '{') :
    (body ++ '}' :: t).head? ≠ some '{' := by
  cases body with
  | nil => simp
  | cons d body => simpa using hhead

theorem Text.takeWhile_append_close (h : '}' ∉ body) :
    (body ++ '}' :: t).takeWhile (· ≠ '}') = body := by
  rw [List.takeWhile_append_of_pos (by simpa using fun c hc => ne_of_mem_of_not_mem hc h)]
  simp

theorem Text.dropWhile_append_close (h : '}' ∉ body) :
    (body ++ '}' :: t).dropWhile (· ≠ '}') = '}' :: t := by
  rw [List.dropWhile_append_of_pos (by simpa using fun c hc => ne_of_mem_of_not_mem hc h)]
  simp

end

/-- Induction along the scan of a template. -/
@[elab_as_elim]
theorem Text.scanInduction {motive : Text → Prop} (nil : motive [])
    (escape : ∀ t : Text, motive t → motive ('{' :: '{' :: t))
    (placeholder : ∀ body t : Text, body.head? ≠ some '{' → '}' ∉ body → motive t →
      motive ('{' :: (body ++ '}' :: t)))
    (unterminated : ∀ t : Text, t.head? ≠ some '{' → '}' ∉ t → motive ('{' :: t))
    (char : ∀ (c : Char) (t : Text), c ≠ '{' → motive t → motive (c :: t)) (t : Text) :
    motive t := by
  induction h : t.length using Nat.strongRecOn generalizing t with
  | ind n ih =>
    subst h
    cases t with
    | nil => exact nil
    | cons c t =>
      by_cases hc : c = '{'
      · subst hc
        by_cases hescape : t.head? = some '{'
        · obtain ⟨t, rfl⟩ := List.head?_eq_some_iff.mp hescape
          have hlt : t.length < ('{' :: '{' :: t).length := by
            simp only [List.length_cons]
            omega
          exact escape t (ih t.length hlt t rfl)
        · by_cases hclose : '}' ∈ t
          · obtain ⟨body, rest, rfl, hbody⟩ := List.eq_append_cons_of_mem hclose
            have hlt : rest.length < ('{' :: (body ++ '}' :: rest)).length := by
              simp only [List.length_cons, List.length_append]
              omega
            refine placeholder body rest ?_ hbody (ih rest.length hlt rest rfl)
            cases body with
            | nil => simp
            | cons d body => simpa using hescape
          · exact unterminated t hescape hclose
      · exact char c t hc (ih t.length (by simp) t rfl)

namespace Token

variable {c : Char} {s t : Text} {ts us : List Token}

theorem lex_cons_of_ne (hc : c ≠ '{') : lex (c :: t) = attach c (lex t) := by
  cases t with
  | nil => rfl
  | cons d t => rw [lex, if_neg (fun h => hc h.1)]

theorem lex_close : lex ('}' :: t) = closeBrace :: lex t := by
  rw [lex_cons_of_ne (by decide)]
  rfl

theorem lex_escape : lex ('{' :: '{' :: t) = escapedBrace :: lex t := by
  rw [lex, if_pos ⟨rfl, rfl⟩]

theorem lex_open (h : t.head? ≠ some '{') : lex ('{' :: t) = openBrace :: lex t := by
  cases t with
  | nil => rfl
  | cons d t =>
    have hd : d ≠ '{' := by simpa using h
    rw [lex, if_neg (fun h => hd h.2)]
    rfl

theorem attach_append_close :
    attach c (ts ++ closeBrace :: us) = attach c ts ++ closeBrace :: us := by
  unfold attach
  split
  · rfl
  · split
    · rfl
    · cases ts with
      | nil => rfl
      | cons token ts => cases token <;> rfl

/-- A closing brace never joins the characters around it, so it cuts the tokens where it cuts the
text. -/
theorem lex_append_close : lex (s ++ '}' :: t) = lex s ++ closeBrace :: lex t := by
  fun_induction lex s with
  | case1 => exact lex_close
  | case2 c =>
    by_cases hc : c = '{'
    · subst hc
      rw [List.singleton_append, lex_open (by simp), lex_close]
      rfl
    · rw [List.singleton_append, lex_cons_of_ne hc, lex_close]
      have hsingle : attach c ([] ++ closeBrace :: lex t) = attach c [] ++ closeBrace :: lex t :=
        attach_append_close
      exact hsingle
  | case3 c d s h ih =>
    obtain ⟨rfl, rfl⟩ := h
    simp only [List.cons_append, lex_escape, ih]
  | case4 c d s h ih =>
    rw [List.cons_append, List.cons_append, lex, if_neg h, ← List.cons_append, ih,
      attach_append_close]

theorem closeBrace_mem_attach : closeBrace ∈ attach c ts ↔ c = '}' ∨ closeBrace ∈ ts := by
  unfold attach
  split
  · next h => simp [h]
  · split
    · next h => simp [h]
    · next h => split <;> simp [h]

theorem closeBrace_mem_lex : closeBrace ∈ lex t ↔ '}' ∈ t := by
  fun_induction lex t with
  | case1 => simp
  | case2 c => simp [closeBrace_mem_attach, eq_comm]
  | case3 c d t h ih =>
    obtain ⟨rfl, rfl⟩ := h
    simp [ih]
  | case4 c d t h ih => rw [closeBrace_mem_attach, ih, List.mem_cons (a := '}') (b := c), eq_comm]

end Token

namespace Segment

variable {offset : Nat} {c : Char} {body t : Text} {ts us : List Token}

theorem ofTokensInside_of_notMem (h : Token.closeBrace ∉ ts) :
    ofTokensInside offset body ts = [literal ('{' :: (body ++ Token.source ts))] := by
  induction ts generalizing body with
  | nil => simp [ofTokensInside, Token.source]
  | cons token ts ih =>
    have hts : Token.closeBrace ∉ ts := fun hm => h (List.mem_cons_of_mem _ hm)
    cases token with
    | closeBrace => exact absurd List.mem_cons_self h
    | escapedBrace | openBrace | literal => simp [ofTokensInside, ih hts, Token.source]

theorem ofTokensInside_append_close (h : Token.closeBrace ∉ ts) :
    ofTokensInside offset body (ts ++ .closeBrace :: us) =
      placeholder offset (body ++ Token.source ts) ::
        ofTokens (offset + (body ++ Token.source ts).byteLength + 1) us := by
  induction ts generalizing body with
  | nil => simp [ofTokensInside, Token.source]
  | cons token ts ih =>
    have hts : Token.closeBrace ∉ ts := fun hm => h (List.mem_cons_of_mem _ hm)
    cases token with
    | closeBrace => exact absurd List.mem_cons_self h
    | escapedBrace | openBrace | literal => simp [ofTokensInside, ih hts, Token.source]

theorem ofTokens_lex_escape : ofTokens offset (Token.lex ('{' :: '{' :: t)) =
    literal ['{'] :: ofTokens (offset + 2) (Token.lex t) := by
  rw [Token.lex_escape]
  rfl

theorem ofTokens_lex_placeholder (hhead : body.head? ≠ some '{') (hclose : '}' ∉ body) :
    ofTokens offset (Token.lex ('{' :: (body ++ '}' :: t))) =
      placeholder (offset + 1) body :: ofTokens (offset + body.byteLength + 2) (Token.lex t) := by
  rw [Token.lex_open (Text.head?_append_close hhead), Token.lex_append_close, ofTokens,
    ofTokensInside_append_close (mt Token.closeBrace_mem_lex.mp hclose), Token.source_lex,
    List.nil_append]
  congr 2
  omega

theorem ofTokens_lex_unterminated (hhead : t.head? ≠ some '{') (hclose : '}' ∉ t) :
    ofTokens offset (Token.lex ('{' :: t)) = [literal ('{' :: t)] := by
  rw [Token.lex_open hhead, ofTokens,
    ofTokensInside_of_notMem (mt Token.closeBrace_mem_lex.mp hclose), Token.source_lex,
    List.nil_append]

/-- Any other character is a literal, or joins the one behind it. -/
theorem ofTokens_lex_char (offset : Nat) (t : Text) (hc : c ≠ '{') :
    ofTokens offset (Token.lex (c :: t)) =
        literal [c] :: ofTokens (offset + c.utf8Size) (Token.lex t) ∨
      ∃ u ss, ofTokens (offset + c.utf8Size) (Token.lex t) = literal u :: ss ∧
        ofTokens offset (Token.lex (c :: t)) = literal (c :: u) :: ss := by
  rw [Token.lex_cons_of_ne hc]
  by_cases hclose : c = '}'
  · subst hclose
    exact .inl rfl
  · cases hl : Token.lex t with
    | nil => simp [Token.attach, hc, hclose, ofTokens, Token.meaning, Token.lexeme]
    | cons token ts =>
      cases token with
      | literal u =>
        right
        refine ⟨u, _, rfl, ?_⟩
        simp [Token.attach, hc, hclose, ofTokens, Token.meaning, Token.lexeme, Nat.add_assoc]
      | escapedBrace | openBrace | closeBrace =>
        simp [Token.attach, hc, hclose, ofTokens, Token.meaning, Token.lexeme]

end Segment

end TextTemplate
