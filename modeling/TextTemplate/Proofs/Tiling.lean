import Mathlib.Data.List.Chain
import TextTemplate.Proofs.Scan

/-! The tokens of a template as kinds and spans. They tile the template, no token at a place takes
more than the one that stands there, and no other kinds and spans tile the template without a token
that stops too early. -/
namespace TextTemplate

namespace Text

variable {s t u : Text} {n stop : Nat}

/-- Where a text is cut, the characters in front of the cut take as many bytes as its position
says. -/
theorem eq_append_of_splitAtByte? (h : t.splitAtByte? n = some (s, u)) :
    t = s ++ u ∧ n = s.byteLength := by
  fun_induction splitAtByte? t n generalizing s with
  | case1 t =>
    cases h
    exact ⟨rfl, rfl⟩
  | case2 n => cases h
  | case3 c t n hc ih =>
    obtain ⟨⟨before, after⟩, hsplit, heq⟩ := Option.map_eq_some_iff.mp h
    cases heq
    obtain ⟨rfl, hn⟩ := ih hsplit
    refine ⟨rfl, ?_⟩
    rw [byteLength_cons]
    omega
  | case4 c t n hc => cases h

/-- The slices that start behind a text are the texts that follow it. -/
theorem slice?_behind_eq_some_iff : (s ++ t).slice? ⟨s.byteLength, stop⟩ = some u ↔
    ∃ v, t = u ++ v ∧ stop = s.byteLength + u.byteLength := by
  constructor
  · intro h
    simp only [slice?, splitAtByte?_byteLength] at h
    split at h
    · next hle =>
      obtain ⟨⟨before, after⟩, hsplit, heq⟩ := Option.bind_eq_some_iff.mp
        (show (t.splitAtByte? (stop - s.byteLength)).bind (fun parts => some parts.1) =
          some u from h)
      cases heq
      obtain ⟨rfl, hstop⟩ := eq_append_of_splitAtByte? hsplit
      have hle : s.byteLength ≤ stop := hle
      exact ⟨after, rfl, by simp only; omega⟩
    · cases h
  · rintro ⟨v, rfl, rfl⟩
    exact slice?_append

theorem eq_nil_of_byteLength_eq_zero (h : t.byteLength = 0) : t = [] := by
  cases t with
  | nil => rfl
  | cons c t =>
    have hc := c.utf8Size_pos
    rw [byteLength_cons] at h
    omega

end Text

/-- Spans each of which starts where the one before it stops, from one position to another. -/
def Span.Contiguous (start stop : Nat) : List Span → Prop
  | [] => start = stop
  | span :: spans => span.start = start ∧ Contiguous span.stop stop spans

namespace Token

inductive Kind
  | escapedBrace
  | openBrace
  | closeBrace
  | literal
deriving DecidableEq, Repr

namespace Kind

/-- Whether a token of a kind can cover a text: a brace or a pair of them, or any characters but
braces. -/
def Covers : Kind → Text → Prop
  | escapedBrace, t => t = ['{', '{']
  | openBrace, t => t = ['{']
  | closeBrace, t => t = ['}']
  | literal, t => t ≠ [] ∧ '{' ∉ t ∧ '}' ∉ t

/-- Whether a token of one kind can stop where a token of the other kind starts. An opening brace
takes a second one with it, and a literal all that is no brace. -/
def StopsBefore : Kind → Kind → Prop
  | openBrace, next => next ≠ openBrace ∧ next ≠ escapedBrace
  | literal, next => next ≠ literal
  | _, _ => True

end Kind

def kind : Token → Kind
  | escapedBrace => .escapedBrace
  | openBrace => .openBrace
  | closeBrace => .closeBrace
  | literal _ => .literal

/-- The kinds of tokens with the spans that they cover when the first one starts at an offset. -/
def kindsWithSpans (offset : Nat) (ts : List Token) : List (Kind × Span) :=
  (withSpans offset ts).map fun (token, span) => (token.kind, span)

/-- Kinds and spans that read all of a template: the spans are not empty, cover characters that
their kinds can cover, follow each other from the start of the template to its end, and do not stop
too early. -/
structure IsReading (template : Text) (ts : List (Kind × Span)) : Prop where
  nonempty : ∀ t ∈ ts, t.2.start < t.2.stop
  covers : ∀ t ∈ ts, ∃ text, template.slice? t.2 = some text ∧ t.1.Covers text
  contiguous : Span.Contiguous 0 template.byteLength (ts.map Prod.snd)
  parted : (ts.map Prod.fst).IsChain Kind.StopsBefore

/-- Tokens that cover what their kinds can cover and do not stop too early. -/
structure Munched (ts : List Token) : Prop where
  covers : ∀ token ∈ ts, token.kind.Covers token.lexeme
  parted : (ts.map kind).IsChain Kind.StopsBefore

section

variable {c : Char} {lead s t u rest template text : Text} {k : Kind} {token : Token}
  {ts : List Token} {offset stop : Nat}

theorem Kind.Covers.ne_nil (h : k.Covers text) : text ≠ [] := by
  cases k with
  | escapedBrace | openBrace | closeBrace =>
    rw [show text = _ from h]
    exact List.cons_ne_nil _ _
  | literal => exact h.1

theorem exists_kind_lexeme_eq (h : k.Covers text) :
    ∃ token, kind token = k ∧ token.lexeme = text := by
  cases k with
  | escapedBrace => exact ⟨escapedBrace, rfl, h.symm⟩
  | openBrace => exact ⟨openBrace, rfl, h.symm⟩
  | closeBrace => exact ⟨closeBrace, rfl, h.symm⟩
  | literal => exact ⟨literal text, rfl, rfl⟩

theorem munched_nil : Munched [] := ⟨by simp, by simp⟩

theorem munched_cons_iff : Munched (token :: ts) ↔ token.kind.Covers token.lexeme ∧
    (∀ next ∈ ts.head?, token.kind.StopsBefore next.kind) ∧ Munched ts := by
  have hparted : ((token :: ts).map kind).IsChain Kind.StopsBefore ↔
      (∀ next ∈ ts.head?, token.kind.StopsBefore next.kind) ∧
        (ts.map kind).IsChain Kind.StopsBefore := by
    rw [List.map_cons, List.isChain_cons, List.head?_map]
    simp
  constructor
  · intro h
    have hcovers := List.forall_mem_cons.mp h.covers
    obtain ⟨hnext, hts⟩ := hparted.mp h.parted
    exact ⟨hcovers.1, hnext, hcovers.2, hts⟩
  · rintro ⟨hcovers, hnext, hts⟩
    exact ⟨List.forall_mem_cons.mpr ⟨hcovers, hts.covers⟩, hparted.mpr ⟨hnext, hts.parted⟩⟩

/-- An opening brace takes a second one with it, so it stops in front of anything else. -/
theorem openBrace_stopsBefore_iff (h : Munched ts) :
    (∀ next ∈ ts.head?, Kind.openBrace.StopsBefore next.kind) ↔ (source ts).head? ≠ some '{' := by
  cases ts with
  | nil => simp [source]
  | cons next ts =>
    have hcovers := h.covers next List.mem_cons_self
    cases next with
    | escapedBrace | openBrace | closeBrace => simp [Kind.StopsBefore, kind, source, lexeme]
    | literal u =>
      obtain ⟨d, u, rfl⟩ := List.exists_cons_of_ne_nil hcovers.1
      have hd : d ≠ '{' := fun heq => hcovers.2.1 (by simp [lexeme, heq])
      simp [Kind.StopsBefore, kind, source, lexeme, hd]

/-- One step: a character in front of munched tokens. -/
theorem munched_attach (h : Munched ts) (hc : c = '{' → (source ts).head? ≠ some '{') :
    Munched (attach c ts) := by
  unfold attach
  split
  · next hopen => exact munched_cons_iff.mpr ⟨rfl, (openBrace_stopsBefore_iff h).mpr (hc hopen), h⟩
  · next hopen =>
    split
    · exact munched_cons_iff.mpr ⟨rfl, fun _ _ => trivial, h⟩
    · next hclose =>
      split
      · next u ts =>
        obtain ⟨hu, hnext, hts⟩ := munched_cons_iff.mp h
        refine munched_cons_iff.mpr ⟨⟨List.cons_ne_nil _ _, ?_, ?_⟩, hnext, hts⟩
        · simpa [lexeme] using ⟨fun heq => hopen heq.symm, hu.2.1⟩
        · simpa [lexeme] using ⟨fun heq => hclose heq.symm, hu.2.2⟩
      · next hnot =>
        refine munched_cons_iff.mpr ⟨⟨List.cons_ne_nil _ _, ?_, ?_⟩, ?_, h⟩
        · simpa [lexeme] using fun heq => hopen heq.symm
        · simpa [lexeme] using fun heq => hclose heq.symm
        · intro next hnext hliteral
          obtain ⟨us, rfl⟩ := List.head?_eq_some_iff.mp hnext
          cases next with
          | escapedBrace | openBrace | closeBrace => cases hliteral
          | literal u => exact hnot u us rfl

theorem munched_lex (t : Text) : Munched (lex t) := by
  fun_induction lex t with
  | case1 => exact munched_nil
  | case2 c => exact munched_attach munched_nil (by simp [source])
  | case3 c d t h ih => exact munched_cons_iff.mpr ⟨rfl, fun _ _ => trivial, ih⟩
  | case4 c d t h ih =>
    refine munched_attach ih fun hc => ?_
    rw [source_lex]
    simpa using fun hd => h ⟨hc, hd⟩

/-- A text without braces is one literal with what it stands in front of, or is one of its own. -/
theorem lex_literal_append (hu : Kind.literal.Covers u)
    (hnext : ∀ next ∈ (lex t).head?, Kind.literal.StopsBefore next.kind) :
    lex (u ++ t) = literal u :: lex t := by
  obtain ⟨hne, hopen, hclose⟩ := hu
  induction u with
  | nil => exact absurd rfl hne
  | cons c u ih =>
    have hc : c ≠ '{' := fun heq => hopen (heq ▸ List.mem_cons_self)
    have hc' : c ≠ '}' := fun heq => hclose (heq ▸ List.mem_cons_self)
    rw [List.cons_append, lex_cons_of_ne hc]
    cases u with
    | nil =>
      rw [List.nil_append]
      cases hl : lex t with
      | nil => simp [attach, hc, hc']
      | cons next ts =>
        rw [hl] at hnext
        cases next with
        | escapedBrace | openBrace | closeBrace => simp [attach, hc, hc']
        | literal u => exact absurd rfl (hnext _ rfl)
    | cons d u =>
      rw [ih (List.cons_ne_nil _ _) (fun h => hopen (List.mem_cons_of_mem _ h))
        (fun h => hclose (List.mem_cons_of_mem _ h))]
      simp [attach, hc, hc']

/-- Munched tokens are the tokens of the text that they make up. -/
theorem lex_source (h : Munched ts) : lex (source ts) = ts := by
  induction ts with
  | nil => rfl
  | cons token ts ih =>
    obtain ⟨hcovers, hnext, hts⟩ := munched_cons_iff.mp h
    have hsource : source (token :: ts) = token.lexeme ++ source ts := rfl
    rw [hsource]
    cases token with
    | escapedBrace => rw [lexeme, List.cons_append, List.singleton_append, lex_escape, ih hts]
    | openBrace =>
      rw [lexeme, List.singleton_append, lex_open ((openBrace_stopsBefore_iff hts).mp hnext),
        ih hts]
    | closeBrace => rw [lexeme, List.singleton_append, lex_close, ih hts]
    | literal u =>
      have hlex := lex_literal_append (u := u) hcovers (by rwa [ih hts])
      rw [lexeme, hlex, ih hts]

theorem map_fst_kindsWithSpans : (kindsWithSpans offset ts).map Prod.fst = ts.map kind := by
  induction ts generalizing offset with
  | nil => rfl
  | cons token ts ih => rw [List.map_cons, ← ih]; rfl

theorem contiguous_kindsWithSpans (offset : Nat) (ts : List Token) :
    Span.Contiguous offset (offset + (source ts).byteLength)
      ((kindsWithSpans offset ts).map Prod.snd) := by
  induction ts generalizing offset with
  | nil => rfl
  | cons token ts ih =>
    have hsource : (source (token :: ts)).byteLength =
        token.lexeme.byteLength + (source ts).byteLength :=
      Text.byteLength_append
    rw [hsource, ← Nat.add_assoc]
    exact ⟨rfl, ih _⟩

/-- What stands in front of a token and behind it. -/
theorem exists_of_mem_kindsWithSpans {span : Span} (h : (k, span) ∈ kindsWithSpans offset ts) :
    ∃ before token after, ts = before ++ token :: after ∧ kind token = k ∧
      span = ⟨offset + (source before).byteLength,
        offset + (source before).byteLength + token.lexeme.byteLength⟩ := by
  induction ts generalizing offset with
  | nil => cases h
  | cons token ts ih =>
    obtain heq | hmem := List.mem_cons.mp h
    · cases heq
      exact ⟨[], token, ts, rfl, rfl, rfl⟩
    · obtain ⟨before, token', after, rfl, hkind, hspan⟩ := ih hmem
      refine ⟨token :: before, token', after, rfl, hkind, ?_⟩
      have hsource : (source (token :: before)).byteLength =
        token.lexeme.byteLength + (source before).byteLength := Text.byteLength_append
      rw [hspan, hsource, Nat.add_assoc, Nat.add_assoc, Nat.add_assoc]

/-- Kinds and spans that follow each other from a position to the end of a template are those of
tokens. -/
theorem exists_tokens {ts : List (Kind × Span)} (lead rest : Text)
    (hcontiguous : Span.Contiguous lead.byteLength (lead ++ rest).byteLength (ts.map Prod.snd))
    (hcovers : ∀ t ∈ ts, ∃ text, (lead ++ rest).slice? t.2 = some text ∧ t.1.Covers text) :
    ∃ tokens, ts = kindsWithSpans lead.byteLength tokens ∧ source tokens = rest ∧
      ∀ token ∈ tokens, (kind token).Covers token.lexeme := by
  induction ts generalizing lead rest with
  | nil =>
    have hlength : lead.byteLength = (lead ++ rest).byteLength := hcontiguous
    rw [Text.byteLength_append] at hlength
    have hrest : rest = [] := Text.eq_nil_of_byteLength_eq_zero (by omega)
    exact ⟨[], rfl, hrest.symm, by simp⟩
  | cons t ts ih =>
    obtain ⟨k, start, stop⟩ := t
    obtain ⟨rfl, hnext⟩ := hcontiguous
    obtain ⟨text, hslice, hk⟩ := hcovers _ List.mem_cons_self
    obtain ⟨after, rfl, rfl⟩ := Text.slice?_behind_eq_some_iff.mp hslice
    obtain ⟨token, rfl, rfl⟩ := exists_kind_lexeme_eq hk
    rw [← List.append_assoc] at hcovers hnext
    obtain ⟨tokens, rfl, rfl, htokens⟩ := ih (lead ++ token.lexeme) after
      (by rwa [Text.byteLength_append (s := lead) (t := token.lexeme)])
      (fun t ht => hcovers t (List.mem_cons_of_mem _ ht))
    refine ⟨token :: tokens, ?_, rfl, List.forall_mem_cons.mpr ⟨hk, htokens⟩⟩
    rw [Text.byteLength_append]
    rfl

theorem IsReading.eq_kindsWithSpans {ts : List (Kind × Span)} (h : IsReading template ts) :
    ts = kindsWithSpans 0 (lex template) := by
  obtain ⟨tokens, rfl, rfl, htokens⟩ := exists_tokens [] template h.contiguous h.covers
  have hparted := h.parted
  rw [map_fst_kindsWithSpans] at hparted
  rw [lex_source ⟨htokens, hparted⟩]
  rfl

theorem isReading_lex (template : Text) : IsReading template (kindsWithSpans 0 (lex template)) := by
  have hlex := munched_lex template
  have hcontiguous := contiguous_kindsWithSpans 0 (lex template)
  rw [source_lex, Nat.zero_add] at hcontiguous
  have hcovers : ∀ t ∈ kindsWithSpans 0 (lex template),
      ∃ text, template.slice? t.2 = some text ∧ t.2.stop = t.2.start + text.byteLength ∧
        t.1.Covers text := by
    rintro ⟨k, span⟩ hmem
    obtain ⟨before, token, after, hts, rfl, rfl⟩ := exists_of_mem_kindsWithSpans hmem
    refine ⟨token.lexeme, ?_, rfl, hlex.covers token (by simp [hts])⟩
    have hsource : template = source before ++ (token.lexeme ++ source after) := by
      rw [← source_lex template, hts]
      simp [source]
    rw [hsource, Nat.zero_add]
    exact Text.slice?_append
  refine ⟨?_, ?_, hcontiguous, by rw [map_fst_kindsWithSpans]; exact hlex.parted⟩
  · intro t ht
    obtain ⟨text, -, hstop, htext⟩ := hcovers t ht
    have hne : text.byteLength ≠ 0 := fun h => htext.ne_nil (Text.eq_nil_of_byteLength_eq_zero h)
    omega
  · intro t ht
    obtain ⟨text, hslice, -, htext⟩ := hcovers t ht
    exact ⟨text, hslice, htext⟩

/-- No token could take the character behind a token as well. -/
theorem not_covers_lexeme_append_cons (h : Munched (token :: ts)) (hc : (source ts).head? = some c)
    (k : Kind) (t : Text) : ¬ k.Covers (token.lexeme ++ c :: t) := by
  obtain ⟨hcovers, hnext, hts⟩ := munched_cons_iff.mp h
  intro hk
  cases token with
  | escapedBrace => cases k <;> simp [Kind.Covers, lexeme] at hk
  | closeBrace => cases k <;> simp [Kind.Covers, lexeme] at hk
  | openBrace =>
    have hopen := (openBrace_stopsBefore_iff hts).mp hnext
    rw [hc] at hopen
    cases k with
    | escapedBrace => exact hopen (congrArg some (List.cons.inj (List.cons.inj hk).2).1)
    | openBrace | closeBrace | literal => simp [Kind.Covers, lexeme] at hk
  | literal u =>
    obtain ⟨d, u, rfl⟩ := List.exists_cons_of_ne_nil hcovers.ne_nil
    have hd : d ≠ '{' := fun heq => hcovers.2.1 (heq ▸ List.mem_cons_self)
    have hd' : d ≠ '}' := fun heq => hcovers.2.2 (heq ▸ List.mem_cons_self)
    cases k with
    | escapedBrace => exact hd (List.cons.inj hk).1
    | openBrace => exact hd (List.cons.inj hk).1
    | closeBrace => exact hd' (List.cons.inj hk).1
    | literal =>
      -- What follows a literal is a brace, so the longer text is no literal.
      cases ts with
      | nil => cases hc
      | cons next ts =>
        cases next with
        | escapedBrace | openBrace =>
          obtain rfl : '{' = c := by simpa [source, lexeme] using hc
          exact hk.2.1 (by simp)
        | closeBrace =>
          obtain rfl : '}' = c := by simpa [source, lexeme] using hc
          exact hk.2.2 (by simp)
        | literal v => exact hnext (literal v) rfl rfl

/-- The token at a place takes all that any token could take there. -/
theorem prefix_lexeme_of_covers (h : Munched (token :: ts)) (hk : k.Covers text)
    (hfront : text <+: source (token :: ts)) : text <+: token.lexeme := by
  obtain hle | ⟨v, rfl⟩ :=
    List.prefix_or_prefix_of_prefix hfront (List.prefix_append token.lexeme (source ts))
  · exact hle
  · have hv : v <+: source ts := (List.prefix_append_right_inj token.lexeme).mp hfront
    cases v with
    | nil => simp
    | cons c v =>
      obtain ⟨w, hw⟩ := hv
      exact absurd hk (not_covers_lexeme_append_cons h (by rw [← hw]; rfl) k v)

theorem munched_of_append {before after : List Token} (h : Munched (before ++ after)) :
    Munched after := by
  induction before with
  | nil => exact h
  | cons token before ih => exact ih (munched_cons_iff.mp h).2.2

/-- The tokens of a template are its only reading, and each of them is the longest that any kind of
token could cover from where it starts. -/
theorem isReading_iff_eq_lex (template : Text) :
    (∀ ts, IsReading template ts ↔ ts = kindsWithSpans 0 (lex template)) ∧
      ∀ t ∈ kindsWithSpans 0 (lex template), ∀ (k : Kind) (stop : Nat) (text : Text),
        template.slice? ⟨t.2.start, stop⟩ = some text → k.Covers text → stop ≤ t.2.stop := by
  refine ⟨fun ts => ⟨fun h => h.eq_kindsWithSpans, fun h => h ▸ isReading_lex template⟩, ?_⟩
  rintro ⟨kind, span⟩ hmem k stop text hslice hk
  obtain ⟨before, token, after, hts, -, rfl⟩ := exists_of_mem_kindsWithSpans hmem
  have hmunched : Munched (token :: after) := munched_of_append (hts ▸ munched_lex template)
  have hsource : template = source before ++ source (token :: after) := by
    rw [← source_lex template, hts]
    simp [source]
  rw [hsource, Nat.zero_add] at hslice
  obtain ⟨rest, hrest, rfl⟩ := Text.slice?_behind_eq_some_iff.mp hslice
  obtain ⟨u, hu⟩ := prefix_lexeme_of_covers hmunched hk ⟨rest, hrest.symm⟩
  simp only [← hu, Text.byteLength_append]
  omega

-- Of three opening braces the first two make one token, behind a character of two bytes.
example : kindsWithSpans 0 (lex "é\x7b\x7b\x7b0\x7d\x7d".toList) =
    [(.literal, ⟨0, 2⟩), (.escapedBrace, ⟨2, 4⟩), (.openBrace, ⟨4, 5⟩), (.literal, ⟨5, 6⟩),
      (.closeBrace, ⟨6, 7⟩), (.closeBrace, ⟨7, 8⟩)] := by
  decide

end

end Token

end TextTemplate
