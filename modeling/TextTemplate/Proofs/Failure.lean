import TextTemplate.Proofs.Concatenation
import TextTemplate.Proofs.Placeholder
import TextTemplate.Proofs.Rendering
import TextTemplate.Proofs.Site

/-! When formatting fails, for which placeholder, and where its error points. -/
namespace TextTemplate

open Text

namespace Store

variable {store : Store} {n : Nat} {lead t a : Text} {e : FormatError}

theorem expand_escape_pair : store.expand n ['{', '{'] = .ok ['{'] := by
  rw [expand_escape, expand_nil]
  rfl

theorem expand_single {c : Char} (hc : c ≠ '{') : store.expand n [c] = .ok [c] := by
  rw [expand_char hc, expand_nil]
  rfl

theorem expand_append_of_eq_ok (hs : lead.Closed) (h : store.expand n lead = .ok a) :
    store.expand n (lead ++ t) = (store.expand (n + lead.byteLength) t).map (a ++ ·) := by
  rw [expand_append hs, h]
  cases store.expand (n + lead.byteLength) t <;> rfl

end Store

namespace Site

variable {store : Store} {s s' : Site} {n : Nat} {lead t a : Text} {e : FormatError}

/-- The placeholder is the first of its template to fail, with an error, the template at a byte
offset. -/
def FailsFirst (store : Store) (n : Nat) (e : FormatError) (s : Site) : Prop :=
  (∃ a, store.expand n s.before = .ok a) ∧
    store.contribution (n + s.before.byteLength + 1) s.body = .error e

theorem FailsFirst.expand_eq_error (h : s.FailsFirst store n e) :
    store.expand n s.template = .error e := by
  obtain ⟨⟨a, ha⟩, he⟩ := h
  rw [template, Store.expand_append_of_eq_ok s.closed ha,
    Store.expand_placeholder s.head_ne s.close_notMem, he]
  rfl

theorem FailsFirst.behind (hlead : lead.Closed) (hn : store.expand n lead = .ok a)
    (h : s.FailsFirst store (n + lead.byteLength) e) :
    (s.behind lead hlead).FailsFirst store n e := by
  obtain ⟨⟨b, hb⟩, he⟩ := h
  refine ⟨⟨a ++ b, ?_⟩, ?_⟩
  · rw [Site.behind, Store.expand_append_of_eq_ok hlead hn, hb]
    rfl
  · simpa [Site.behind, Nat.add_assoc] using he

theorem exists_failsFirst_behind (hlead : lead.Closed) (hn : store.expand n lead = .ok a)
    (h : ∃ s : Site, s.template = t ∧ s.FailsFirst store (n + lead.byteLength) e) :
    ∃ s : Site, s.template = lead ++ t ∧ s.FailsFirst store n e := by
  obtain ⟨s, rfl, hs⟩ := h
  exact ⟨s.behind lead hlead, template_behind hlead, hs.behind hlead hn⟩

/-- Every failure is that of a first placeholder to fail. -/
theorem exists_failsFirst (h : store.expand n t = .error e) :
    ∃ s : Site, s.template = t ∧ s.FailsFirst store n e := by
  induction t using scanInduction generalizing n with
  | nil =>
    rw [Store.expand_nil] at h
    cases h
  | escape t ih =>
    have hlead : Closed ['{', '{'] := by decide
    apply exists_failsFirst_behind hlead Store.expand_escape_pair
    rw [Store.expand_escape, map_eq_error_iff] at h
    exact ih h
  | placeholder body t hhead hclose ih =>
    cases hc : store.contribution (n + 1) body with
    | error cause =>
      refine ⟨⟨[], body, t, rfl, hhead, hclose⟩, rfl, ⟨[], Store.expand_nil⟩, ?_⟩
      rw [Store.expand_placeholder hhead hclose, hc] at h
      cases h
      exact hc
    | ok field =>
      have hlead : Closed ('{' :: (body ++ ['}'])) := (closed_placeholder_iff hhead hclose).mpr rfl
      have hfield : store.expand n ('{' :: (body ++ ['}'])) = .ok field := by
        rw [Store.expand_placeholder hhead hclose, hc, Store.expand_nil]
        simp [bind, Except.bind, pure, Except.pure]
      have hrest := exists_failsFirst_behind (t := t) (e := e) hlead hfield
      rw [byteLength_placeholder (t := [])] at hrest
      rw [Store.expand_placeholder hhead hclose, hc] at h
      have h : (store.expand (n + body.byteLength + 2) t).map (field ++ ·) = .error e := h
      simpa using hrest (ih (map_eq_error_iff.mp h))
  | unterminated t hhead hclose =>
    rw [Store.expand_unterminated hhead hclose] at h
    cases h
  | char c t hc ih =>
    have hlead : Closed [c] := (closed_char_iff hc).mpr rfl
    apply exists_failsFirst_behind hlead (Store.expand_single hc)
    rw [Store.expand_char hc, map_eq_error_iff] at h
    exact ih h

/-- The placeholder addresses an argument whose rendering fails on the specification. -/
def FailsWith (store : Store) (spec : Text) (cause : SpecError) (s : Site) : Prop :=
  ∃ p argument, Placeholder.ofBody? s.body = some p ∧
    p.index.bind store.get? = some argument ∧ p.spec = spec ∧
    (argument.rendering spec).failure = some cause

/-- The placeholder addresses an argument whose rendering fails. -/
def Fails (store : Store) (s : Site) : Prop := ∃ spec cause, s.FailsWith store spec cause

theorem failsWith_of_contribution_eq_error (h : store.contribution n s.body = .error e) :
    s.FailsWith store e.spec e.cause := by
  obtain ⟨p, argument, ha, hf, hspec, -⟩ := Store.contribution_eq_error_iff.mp h
  obtain ⟨hp, hi⟩ := Store.addressed?_eq_some_iff.mp ha
  exact ⟨p, argument, hp, hi, hspec.symm, hspec ▸ hf⟩

theorem Fails.exists_contribution_eq_error (h : s.Fails store) (n : Nat) :
    ∃ e, store.contribution n s.body = .error e := by
  obtain ⟨spec, cause, p, argument, hp, hi, rfl, hf⟩ := h
  have ha := Store.addressed?_eq_some_iff.mpr ⟨hp, hi⟩
  exact ⟨⟨(p.specSpan s.body).shift n, p.spec, cause⟩,
    Store.contribution_eq_error_iff.mpr ⟨p, argument, ha, hf, rfl, rfl⟩⟩

theorem Fails.exists_expand_eq_error (h : s.Fails store) (n : Nat) :
    ∃ e, store.expand n s.template = .error e := by
  obtain ⟨e, he⟩ := h.exists_contribution_eq_error (n + s.before.byteLength + 1)
  cases hb : store.expand n s.before with
  | error cause =>
    refine ⟨cause, ?_⟩
    rw [template, Store.expand_append s.closed, hb]
    rfl
  | ok a => exact ⟨e, FailsFirst.expand_eq_error ⟨⟨a, hb⟩, he⟩⟩

/-- No placeholder fails in front of the first one to fail. -/
theorem FailsFirst.length_le (h : s.FailsFirst store n e) (ht : s'.template = s.template)
    (hs' : s'.Fails store) : s.before.length ≤ s'.before.length := by
  by_cases hlt : s'.before.length < s.before.length
  · -- A placeholder further left lies in the text in front of the first one, which does not fail.
    obtain ⟨t, hbefore⟩ := before_eq_of_length_lt ht hlt
    have hfails : (s'.followedBy t).Fails store := hs'
    obtain ⟨cause, hcause⟩ := hfails.exists_expand_eq_error n
    obtain ⟨a, ha⟩ := h.1
    rw [hbefore, hcause] at ha
    cases ha
  · exact Nat.le_of_not_lt hlt

/-- The specification of a failing placeholder ends its body, and the error covers it. -/
theorem exists_lead_of_contribution_eq_error
    (h : store.contribution (s.before.byteLength + 1) s.body = .error e) :
    ∃ lead, lead ++ e.spec = s.before ++ '{' :: s.body ∧
      e.span = ⟨lead.byteLength, lead.byteLength + e.spec.byteLength⟩ := by
  obtain ⟨p, argument, ha, -, hspec, hspan⟩ := Store.contribution_eq_error_iff.mp h
  obtain ⟨lead, hlead⟩ := Placeholder.spec_suffix (Store.addressed?_eq_some_iff.mp ha).1
  have hopen : '{'.utf8Size = 1 := rfl
  have hbody : s.body.byteLength = byteLength lead + p.spec.byteLength := by
    rw [← hlead, byteLength_append]
  refine ⟨s.before ++ '{' :: lead, by simp [← hlead, hspec], ?_⟩
  simp only [hspan, hspec, Span.shift, Placeholder.specSpan, byteLength_append, byteLength_cons,
    Span.mk.injEq]
  omega

/-- The error of a placeholder covers its specification, which ends at the closing brace. -/
theorem span_of_contribution_eq_error
    (h : store.contribution (s.before.byteLength + 1) s.body = .error e) :
    s.template.slice? e.span = some e.spec ∧
      e.span.start + e.spec.byteLength = e.span.stop ∧
      e.span.stop = (s.before ++ '{' :: s.body).byteLength := by
  obtain ⟨lead, hlead, hspan⟩ := exists_lead_of_contribution_eq_error h
  have htemplate : s.template = lead ++ (e.spec ++ '}' :: s.after) := by
    rw [← List.append_assoc, hlead]
    simp [template]
  rw [hspan, htemplate, ← hlead, byteLength_append]
  exact ⟨slice?_append, rfl, rfl⟩

end Site

section

variable {store : Store} {template : Text} {e : FormatError}

theorem exists_failsFirst_of_format_eq_error (h : store.isEmpty = false)
    (he : format store template = .error e) :
    ∃ s : Site, s.template = template ∧ s.FailsFirst store 0 e := by
  rw [format_eq_expand h] at he
  exact Site.exists_failsFirst he

theorem exists_format_eq_error_iff (h : store.isEmpty = false) (template : Text) :
    (∃ e, format store template = .error e) ↔
      ∃ s : Site, s.template = template ∧ s.Fails store := by
  constructor
  · rintro ⟨e, he⟩
    obtain ⟨s, ht, -, hs⟩ := exists_failsFirst_of_format_eq_error h he
    exact ⟨s, ht, e.spec, e.cause, Site.failsWith_of_contribution_eq_error hs⟩
  · rintro ⟨s, rfl, hs⟩
    rw [format_eq_expand h]
    exact hs.exists_expand_eq_error 0

/-- A store without floating-point numbers and arguments with a rule of their own fails on no
template. -/
theorem exists_format_eq_ok (h : store.isEmpty = false)
    (hquiet : ∀ a ∈ store.arguments, a.isBuiltIn = true ∧ a.isFloat = false)
    (template : Text) : ∃ t, format store template = .ok t := by
  cases hf : format store template with
  | ok t => exact ⟨t, rfl⟩
  | error e =>
    obtain ⟨s, -, -, hs⟩ := exists_failsFirst_of_format_eq_error h hf
    obtain ⟨p, argument, -, hi, -, hfail⟩ := Site.failsWith_of_contribution_eq_error hs
    obtain ⟨i, -, hget⟩ := Option.bind_eq_some_iff.mp hi
    obtain ⟨hbuiltIn, hfloat⟩ := hquiet argument (List.mem_of_getElem? hget)
    have hcontra := ((Argument.failure_rendering_eq_some_iff hbuiltIn).mp hfail).1
    rw [hfloat] at hcontra
    cases hcontra

/-- Formatting fails exactly where a placeholder does, with the error of the leftmost such
placeholder whatever follows it. Among the built-in arguments only floating-point numbers fail, and
only on an unreadable precision. -/
theorem format_fails_at_leftmost_site (h : store.isEmpty = false) (template : Text) :
    ((∃ e, format store template = .error e) ↔
      ∃ s : Site, s.template = template ∧ s.Fails store) ∧
    (∀ e, format store template = .error e →
      ∃ s : Site, s.template = template ∧ s.FailsWith store e.spec e.cause ∧
        (∀ s' : Site, s'.template = template → s'.Fails store →
          s.before.length ≤ s'.before.length) ∧
        (∀ after, format store (s.followedBy after).template = .error e) ∧
        template.slice? e.span = some e.spec ∧
        e.span.start + e.spec.byteLength = e.span.stop ∧
        e.span.stop = (s.before ++ '{' :: s.body).byteLength) ∧
    (∀ a : Argument, a.isBuiltIn = true → ∀ spec cause,
      (a.rendering spec).failure = some cause ↔
        a.isFloat = true ∧ spec.head? = some '.' ∧ Precision.ofSpec spec = .error cause) ∧
    ((∀ a ∈ store.arguments, a.isBuiltIn = true ∧ a.isFloat = false) →
      ∃ t, format store template = .ok t) := by
  refine ⟨exists_format_eq_error_iff h template, ?_,
    fun a ha spec cause => Argument.failure_rendering_eq_some_iff ha,
    fun hquiet => exists_format_eq_ok h hquiet template⟩
  intro e he
  obtain ⟨s, rfl, hs⟩ := exists_failsFirst_of_format_eq_error h he
  have hcontribution := hs.2
  rw [Nat.zero_add] at hcontribution
  refine ⟨s, rfl, Site.failsWith_of_contribution_eq_error hcontribution,
    fun s' ht hf => hs.length_le ht hf, ?_, Site.span_of_contribution_eq_error hcontribution⟩
  intro after
  rw [format_eq_expand h]
  exact Site.FailsFirst.expand_eq_error hs

end

theorem format_fails_at_second_of_four_placeholders :
    (Store.mk [.float (.finite false (.zero .double)), .text "é".toList]).isEmpty = false ∧
      ∃ s : Site,
        s.template = "é\x7b\x7b\x7b1:.zf\x7d\x7b0,4:.yf\x7d\x7b0:.zf\x7d\x7b9".toList ∧
        s.FailsWith ⟨[.float (.finite false (.zero .double)), .text "é".toList]⟩ ".yf".toList
          (.notANumber "y".toList) ∧
        (∀ s' : Site,
          s'.template = "é\x7b\x7b\x7b1:.zf\x7d\x7b0,4:.yf\x7d\x7b0:.zf\x7d\x7b9".toList →
          s'.Fails ⟨[.float (.finite false (.zero .double)), .text "é".toList]⟩ →
          s.before.length ≤ s'.before.length) ∧
        (∀ after, format ⟨[.float (.finite false (.zero .double)), .text "é".toList]⟩
            (s.followedBy after).template =
          .error ⟨⟨16, 19⟩, ".yf".toList, .notANumber "y".toList⟩) ∧
        Text.slice? "é\x7b\x7b\x7b1:.zf\x7d\x7b0,4:.yf\x7d\x7b0:.zf\x7d\x7b9".toList ⟨16, 19⟩ =
          some ".yf".toList ∧
        16 + Text.byteLength ".yf".toList = 19 ∧
        19 = (s.before ++ '{' :: s.body).byteLength :=
  ⟨rfl, (format_fails_at_leftmost_site rfl _).2.1
    ⟨⟨16, 19⟩, ".yf".toList, .notANumber "y".toList⟩ rfl⟩

end TextTemplate
