import TextTemplate.Proofs.Closed
import TextTemplate.Proofs.Expansion

/-! Formatting two templates one behind the other. -/
namespace TextTemplate

/-- The error of a template that stands behind a number of further bytes. -/
def FormatError.shift (e : FormatError) (offset : Nat) : FormatError :=
  { e with span := e.span.shift offset }

namespace Store

variable {store : Store} {m n : Nat} {body s t : Text}

theorem contribution_add (store : Store) (m n : Nat) (body : Text) :
    store.contribution (m + n) body = (store.contribution n body).mapError (·.shift m) := by
  cases h : store.addressed? body with
  | none =>
    rw [contribution_of_addressed_eq_none h, contribution_of_addressed_eq_none h]
    rfl
  | some found =>
    obtain ⟨p, argument⟩ := found
    rw [contribution_of_addressed_eq_some h, contribution_of_addressed_eq_some h]
    cases (argument.rendering p.spec).alone p.alignment with
    | ok t => rfl
    | error cause => simp [FormatError.shift, Span.shift, Nat.add_assoc]

/-- A text at a later offset expands to the same, only its errors move along. -/
theorem expand_add (store : Store) (m n : Nat) (t : Text) :
    store.expand (m + n) t = (store.expand n t).mapError (·.shift m) := by
  induction t using Text.scanInduction generalizing n with
  | nil => rw [expand_nil, expand_nil]; rfl
  | escape t ih =>
    rw [expand_escape, expand_escape, Nat.add_assoc, ih]
    cases store.expand (n + 2) t <;> rfl
  | placeholder body t hhead hclose ih =>
    rw [expand_placeholder hhead hclose, expand_placeholder hhead hclose, Nat.add_assoc,
      contribution_add, Nat.add_assoc, Nat.add_assoc, ← Nat.add_assoc n, ih]
    cases store.contribution (n + 1) body with
    | error e => rfl
    | ok field => cases store.expand (n + body.byteLength + 2) t <;> rfl
  | unterminated t hhead hclose =>
    rw [expand_unterminated hhead hclose, expand_unterminated hhead hclose]
    rfl
  | char c t hc ih =>
    rw [expand_char hc, expand_char hc, Nat.add_assoc, ih]
    cases store.expand (n + c.utf8Size) t <;> rfl

/-- A closed text and what stands behind it expand one after the other. -/
theorem expand_append (hs : s.Closed) : store.expand n (s ++ t) = do
    let a ← store.expand n s
    return a ++ (← store.expand (n + s.byteLength) t) := by
  -- A closed text ends behind one of its steps, so it takes the same steps in front of `t`.
  induction s using Text.scanInduction generalizing n with
  | nil =>
    rw [expand_nil, List.nil_append, Text.byteLength_nil, Nat.add_zero]
    cases store.expand n t <;> rfl
  | escape s ih =>
    rw [Text.closed_escape_iff] at hs
    rw [expand_escape, List.cons_append, List.cons_append, expand_escape, ih hs,
      Text.byteLength_escape, Nat.add_assoc]
    cases store.expand (n + 2) s with
    | error e => rfl
    | ok a => cases store.expand (n + (2 + s.byteLength)) t <;> rfl
  | placeholder body s hhead hclose ih =>
    rw [Text.closed_placeholder_iff hhead hclose] at hs
    rw [expand_placeholder hhead hclose, List.cons_append, List.append_assoc, List.cons_append,
      expand_placeholder hhead hclose, ih hs, Text.byteLength_placeholder, ← Nat.add_assoc,
      ← Nat.add_assoc]
    cases store.contribution (n + 1) body with
    | error e => rfl
    | ok field =>
      cases store.expand (n + body.byteLength + 2) s with
      | error e => rfl
      | ok a =>
        cases store.expand (n + body.byteLength + 2 + s.byteLength) t with
        | error e => rfl
        | ok b => simp [bind, Except.bind, pure, Except.pure]
  | unterminated s hhead hclose => exact absurd hs (Text.not_closed_unterminated hhead hclose)
  | char c s hc ih =>
    rw [Text.closed_char_iff hc] at hs
    rw [expand_char hc, List.cons_append, expand_char hc, ih hs, Text.byteLength_cons,
      Nat.add_assoc]
    cases store.expand (n + c.utf8Size) s with
    | error e => rfl
    | ok a => cases store.expand (n + (c.utf8Size + s.byteLength)) t <;> rfl

end Store

/-- Formatting is a homomorphism at closed texts: the results join, the first error wins, and an
error of the second text moves behind the first one. -/
theorem format_append {store : Store} (h : store.isEmpty = false) {s : Text} (hs : s.Closed)
    (t : Text) : format store (s ++ t) =
      match format store s, format store t with
      | .ok a, .ok b => .ok (a ++ b)
      | .error e, _ => .error e
      | .ok _, .error e => .error (e.shift s.byteLength) := by
  rw [format_eq_expand h, format_eq_expand h, format_eq_expand h, Store.expand_append hs,
    Nat.zero_add, ← Nat.add_zero s.byteLength, Store.expand_add, Nat.add_zero]
  cases store.expand 0 s with
  | error e => rfl
  | ok a => cases store.expand 0 t <;> rfl

theorem format_append_escape_then_fault :
    (Store.mk [.float (.finite false (.zero .double)), .text "é".toList]).isEmpty = false ∧
      Text.Closed "é\x7b\x7b\x7b1,3\x7d".toList ∧
      format ⟨[.float (.finite false (.zero .double)), .text "é".toList]⟩
          ("é\x7b\x7b\x7b1,3\x7d".toList ++ "\x7b\x7b\x7b0:.zf\x7d".toList) =
        .error ⟨⟨14, 17⟩, ".zf".toList, .notANumber "z".toList⟩ :=
  ⟨rfl, by decide, (format_append rfl (by decide) _).trans rfl⟩

end TextTemplate
