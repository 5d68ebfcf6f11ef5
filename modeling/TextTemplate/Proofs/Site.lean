import TextTemplate.Proofs.Closed

/-! The placeholders of a template, each found by the text in front of it. They are the ones that
the scan of the tokens meets, and one of them never begins inside another. -/
namespace TextTemplate

open Text

variable {s t u lead body : Text} {n offset : Nat}

theorem Text.close_mem_of_closed_open (hu : Closed ('{' :: u)) (h : u.head? ≠ some '{') :
    '}' ∈ u := by
  by_cases hclose : '}' ∈ u
  · exact hclose
  · exact absurd hu (not_closed_unterminated h hclose)

/-- A closed text that starts with the opening brace of a placeholder holds all of the
placeholder. -/
theorem Text.exists_eq_placeholder (hhead : body.head? ≠ some '{') (hclose : '}' ∉ body)
    (hu : u.Closed) (hne : u ≠ []) (h : '{' :: (body ++ '}' :: s) = u ++ t) :
    ∃ rest, u = '{' :: (body ++ '}' :: rest) := by
  cases u with
  | nil => exact absurd rfl hne
  | cons c v =>
    rw [List.cons_append, List.cons.injEq] at h
    obtain ⟨rfl, hv⟩ := h
    have hvhead : v.head? ≠ some '{' := by
      intro hv'
      apply head?_append_close hhead
      rw [hv, List.head?_append, hv']
      rfl
    obtain ⟨inner, rest, rfl, hinner⟩ :=
      List.eq_append_cons_of_mem (close_mem_of_closed_open hu hvhead)
    have hsame : body = inner := by
      have := congrArg (List.takeWhile (· ≠ '}')) hv
      rwa [takeWhile_append_close hclose, List.append_assoc, List.cons_append,
        takeWhile_append_close hinner] at this
    exact ⟨rest, by rw [hsame]⟩

/-- A placeholder in a template: the text in front of its opening brace, its body, and the text
behind the closing brace. The opening brace is no part of an escape, and the closing one is the
first. -/
structure Site where
  before : Text
  body : Text
  after : Text
  closed : before.Closed
  head_ne : body.head? ≠ some '{'
  close_notMem : '}' ∉ body

namespace Site

variable {s s' : Site} {t lead : Text}

def template (s : Site) : Text := s.before ++ '{' :: (s.body ++ '}' :: s.after)

/-- The placeholder with a further text in front. -/
def behind (lead : Text) (h : lead.Closed) (s : Site) : Site :=
  { s with before := lead ++ s.before, closed := (closed_append_iff h).mpr s.closed }

theorem template_behind (h : lead.Closed) : (s.behind lead h).template = lead ++ s.template := by
  simp [behind, template]

def followedBy (s : Site) (t : Text) : Site := { s with after := t }

/-- Of two placeholders, the first one lies with its braces in front of the second one. -/
theorem before_eq_of_length_lt (h : s.template = s'.template)
    (hlt : s.before.length < s'.before.length) :
    ∃ t, s'.before = (s.followedBy t).template := by
  have hprefix : s.before <+: s'.before :=
    List.prefix_of_prefix_length_le ⟨_, h⟩ ⟨_, rfl⟩ (Nat.le_of_lt hlt)
  obtain ⟨u, hu⟩ := hprefix
  have hclosed : Closed u := (closed_append_iff s.closed).mp (hu ▸ s'.closed)
  have hrest : '{' :: (s.body ++ '}' :: s.after) = u ++ '{' :: (s'.body ++ '}' :: s'.after) := by
    have := h
    simp only [template, ← hu, List.append_assoc] at this
    exact List.append_cancel_left this
  have hne : u ≠ [] := by
    rintro rfl
    simp [← hu] at hlt
  obtain ⟨rest, rfl⟩ := exists_eq_placeholder s.head_ne s.close_notMem hclosed hne hrest
  exact ⟨rest, hu.symm⟩

end Site

open Segment in
/-- What stands behind a closed text keeps its placeholders. -/
theorem mem_ofTokens_append (hs : s.Closed)
    (h : placeholder n body ∈ ofTokens (offset + s.byteLength) (Token.lex t)) :
    placeholder n body ∈ ofTokens offset (Token.lex (s ++ t)) := by
  induction s using scanInduction generalizing offset with
  | nil => simpa using h
  | escape s ih =>
    rw [byteLength_escape, ← Nat.add_assoc] at h
    rw [List.cons_append, List.cons_append, ofTokens_lex_escape]
    exact List.mem_cons_of_mem _ (ih (closed_escape_iff.mp hs) h)
  | placeholder inner s hhead hclose ih =>
    rw [byteLength_placeholder, ← Nat.add_assoc, ← Nat.add_assoc] at h
    rw [List.cons_append, List.append_assoc, List.cons_append,
      ofTokens_lex_placeholder hhead hclose]
    exact List.mem_cons_of_mem _ (ih ((closed_placeholder_iff hhead hclose).mp hs) h)
  | unterminated s hhead hclose => exact absurd hs (not_closed_unterminated hhead hclose)
  | char c s hc ih =>
    rw [byteLength_cons, ← Nat.add_assoc] at h
    have hm := ih ((closed_char_iff hc).mp hs) h
    obtain hl | ⟨u, ss, hu, hl⟩ := ofTokens_lex_char offset (s ++ t) hc
    · rw [List.cons_append, hl]
      exact List.mem_cons_of_mem _ hm
    · rw [hu] at hm
      rw [List.cons_append, hl]
      simpa using hm

/-- A placeholder of a text is one of every text that ends in it behind a closed one. -/
theorem Site.exists_behind (hlead : lead.Closed)
    (h : ∃ s : Site, s.template = t ∧ s.body = body ∧
      n = offset + lead.byteLength + s.before.byteLength + 1) :
    ∃ s : Site, s.template = lead ++ t ∧ s.body = body ∧
      n = offset + s.before.byteLength + 1 := by
  obtain ⟨s, rfl, hbody, rfl⟩ := h
  refine ⟨s.behind lead hlead, template_behind hlead, hbody, ?_⟩
  simp [behind, Nat.add_assoc]

open Segment in
theorem exists_site_of_mem_ofTokens (h : placeholder n body ∈ ofTokens offset (Token.lex t)) :
    ∃ s : Site, s.template = t ∧ s.body = body ∧ n = offset + s.before.byteLength + 1 := by
  induction t using scanInduction generalizing offset with
  | nil => simp [Token.lex, ofTokens] at h
  | escape t ih =>
    have hlead : Closed ['{', '{'] := by decide
    have ht : placeholder n body ∈ ofTokens (offset + 2) (Token.lex t) := by
      rw [ofTokens_lex_escape] at h
      simpa using h
    exact Site.exists_behind hlead (ih ht)
  | placeholder inner t hhead hclose ih =>
    rw [ofTokens_lex_placeholder hhead hclose, List.mem_cons] at h
    obtain h | h := h
    · cases h
      exact ⟨⟨[], body, t, rfl, hhead, hclose⟩, rfl, rfl, rfl⟩
    · have hlead : Closed ('{' :: (inner ++ ['}'])) :=
        (closed_placeholder_iff hhead hclose).mpr rfl
      have hlength : byteLength ('{' :: (inner ++ ['}'])) = inner.byteLength + 2 :=
        byteLength_placeholder
      have hs := ih h
      rw [Nat.add_assoc offset, ← hlength] at hs
      simpa using Site.exists_behind hlead hs
  | unterminated t hhead hclose =>
    rw [ofTokens_lex_unterminated hhead hclose] at h
    simp at h
  | char c t hc ih =>
    have hlead : Closed [c] := (closed_char_iff hc).mpr rfl
    have ht : placeholder n body ∈ ofTokens (offset + c.utf8Size) (Token.lex t) := by
      -- The literal that the character joins is no placeholder, whichever way the scan goes on.
      obtain hl | ⟨u, ss, hu, hl⟩ := ofTokens_lex_char offset t hc
      · rw [hl] at h
        simpa using h
      · rw [hl] at h
        rw [hu]
        simpa using h
    exact Site.exists_behind hlead (ih ht)

open Segment in
/-- The scan of the tokens meets these placeholders and no others. -/
theorem mem_ofTokens_iff : placeholder n body ∈ ofTokens offset (Token.lex t) ↔
    ∃ s : Site, s.template = t ∧ s.body = body ∧ n = offset + s.before.byteLength + 1 := by
  constructor
  · exact exists_site_of_mem_ofTokens
  · rintro ⟨s, rfl, rfl, rfl⟩
    apply mem_ofTokens_append s.closed
    rw [ofTokens_lex_placeholder s.head_ne s.close_notMem]
    exact List.mem_cons_self

end TextTemplate
