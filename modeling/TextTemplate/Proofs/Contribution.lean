import TextTemplate.Template.Format

/-! What a placeholder contributes to a text, found on an output of its own. The output that a
template shares among its placeholders shows neither the earlier text nor an earlier alignment to
any of them. -/
namespace TextTemplate

namespace Output

variable {o : Output} {s : Text}

/-- The output with a text in front of all that was written. -/
def behind (s : Text) (o : Output) : Output := { o with reversed := o.reversed ++ s.reverse }

@[simp] theorem text_behind : (o.behind s).text = s ++ o.text := by
  simp [text, behind]

theorem padNext_eq_behind (o : Output) (a : Alignment) :
    o.padNext a = (empty.padNext a).behind o.text := by
  simp [padNext, behind, empty, text]

theorem insert_behind (s : Text) (o : Output) (i : Insertion) :
    (o.behind s).insert i = (o.insert i).behind s := by
  cases i <;> simp [insert, push, literal, behind, padNext, clearPending]

/-- An argument cannot tell what stands in front of its own text. -/
theorem insertAll_behind (s : Text) (o : Output) (is : List Insertion) :
    (o.behind s).insertAll is = (o.insertAll is).behind s := by
  induction is generalizing o with
  | nil => rfl
  | cons i is ih =>
    simp only [insertAll, List.foldl_cons, insert_behind] at ih ⊢
    exact ih (o.insert i)

end Output

namespace Rendering

variable {r : Rendering} {a : Alignment} {e : SpecError}

/-- What a rendering writes into a fresh output with a pending alignment, unless it fails. -/
def alone (r : Rendering) (a : Alignment) : Except SpecError Text :=
  match (Output.empty.padNext a).render r with
  | (written, none) => .ok written.text
  | (_, some e) => .error e

theorem alone_of_failure_eq_none (h : r.failure = none) :
    r.alone a = .ok ((Output.empty.padNext a).insertAll r.insertions).text := by
  simp [alone, Output.render, h]

theorem alone_of_failure_eq_some (h : r.failure = some e) : r.alone a = .error e := by
  simp [alone, Output.render, h]

end Rendering

section

variable {ε δ α : Type} {f : ε → δ}

@[simp] theorem mapError_ok {x : α} : (Except.ok x).mapError f = .ok x := rfl

@[simp] theorem mapError_error {e : ε} :
    (Except.error e : Except ε α).mapError f = .error (f e) := rfl

end

/-- The placeholder that a body denotes and the argument of the store that it addresses. -/
def Store.addressed? (store : Store) (body : Text) : Option (Placeholder × Argument) := do
  let p ← Placeholder.ofBody? body
  let argument ← p.index.bind store.get?
  return (p, argument)

/-- What the placeholder with a body at a byte offset contributes: nothing if it addresses no
argument. -/
def Store.contribution (store : Store) (offset : Nat) (body : Text) : Except FormatError Text :=
  match store.addressed? body with
  | none => .ok []
  | some (p, argument) =>
    ((argument.rendering p.spec).alone p.alignment).mapError fun cause =>
      ⟨(p.specSpan body).shift offset, p.spec, cause⟩

section

variable {store : Store} {offset : Nat} {body t : Text} {p : Placeholder} {argument : Argument}
  {e : FormatError}

theorem Store.addressed?_eq_some_iff : store.addressed? body = some (p, argument) ↔
    Placeholder.ofBody? body = some p ∧ p.index.bind store.get? = some argument := by
  simp only [addressed?, bind, pure, Option.bind_eq_some_iff, Option.some.injEq, Prod.mk.injEq]
  constructor
  · rintro ⟨q, hq, b, hb, rfl, rfl⟩
    exact ⟨hq, hb⟩
  · rintro ⟨hp, ha⟩
    exact ⟨p, hp, argument, ha, rfl, rfl⟩

theorem Output.resolve_of_addressed_eq_none (o : Output) (h : store.addressed? body = none) :
    o.resolve store offset body = (o, none) := by
  unfold Store.addressed? at h
  unfold resolve
  cases hp : Placeholder.ofBody? body with
  | none => rfl
  | some p =>
    cases ha : p.index.bind store.get? with
    | none => simp [ha]
    | some argument => simp [hp, ha] at h

theorem Output.resolve_of_addressed_eq_some (o : Output)
    (h : store.addressed? body = some (p, argument)) :
    o.resolve store offset body =
      (((o.padNext p.alignment).insertAll (argument.rendering p.spec).insertions).clearPending,
        (argument.rendering p.spec).failure.map fun cause =>
          ⟨(p.specSpan body).shift offset, p.spec, cause⟩) := by
  obtain ⟨hp, ha⟩ := Store.addressed?_eq_some_iff.mp h
  simp [resolve, hp, ha, render]

theorem Store.contribution_of_addressed_eq_none (h : store.addressed? body = none) :
    store.contribution offset body = .ok [] := by
  rw [contribution, h]

theorem Store.contribution_of_addressed_eq_some (h : store.addressed? body = some (p, argument)) :
    store.contribution offset body =
      ((argument.rendering p.spec).alone p.alignment).mapError fun cause =>
        ⟨(p.specSpan body).shift offset, p.spec, cause⟩ := by
  rw [contribution, h]

theorem Store.contribution_eq_error_iff : store.contribution offset body = .error e ↔
    ∃ p argument, store.addressed? body = some (p, argument) ∧
      (argument.rendering p.spec).failure = some e.cause ∧
      e.spec = p.spec ∧ e.span = (p.specSpan body).shift offset := by
  constructor
  · intro he
    cases h : store.addressed? body with
    | none =>
      rw [contribution_of_addressed_eq_none h] at he
      cases he
    | some found =>
      obtain ⟨p, argument⟩ := found
      rw [contribution_of_addressed_eq_some h] at he
      cases hf : (argument.rendering p.spec).failure with
      | none =>
        rw [Rendering.alone_of_failure_eq_none hf] at he
        cases he
      | some cause =>
        rw [Rendering.alone_of_failure_eq_some hf] at he
        cases he
        exact ⟨p, argument, rfl, hf, rfl, rfl⟩
  · rintro ⟨p, argument, ha, hf, hspec, hspan⟩
    rw [contribution_of_addressed_eq_some ha, Rendering.alone_of_failure_eq_some hf,
      mapError_error, ← hspec, ← hspan]

theorem Output.resolve_of_contribution_eq_error (o : Output)
    (h : store.contribution offset body = .error e) : (o.resolve store offset body).2 = some e := by
  obtain ⟨p, argument, ha, hf, hspec, hspan⟩ := Store.contribution_eq_error_iff.mp h
  rw [resolve_of_addressed_eq_some o ha, hf, Option.map_some, ← hspec, ← hspan]

/-- A placeholder adds its contribution to whatever was written, whatever was pending. -/
theorem Output.resolve_of_contribution_eq_ok (o : Output)
    (h : store.contribution offset body = .ok t) :
    ∃ written, o.resolve store offset body = (written, none) ∧ written.text = o.text ++ t := by
  cases ha : store.addressed? body with
  | none =>
    rw [Store.contribution_of_addressed_eq_none ha] at h
    cases h
    exact ⟨o, resolve_of_addressed_eq_none o ha, by simp⟩
  | some found =>
    obtain ⟨p, argument⟩ := found
    rw [Store.contribution_of_addressed_eq_some ha] at h
    cases hf : (argument.rendering p.spec).failure with
    | some cause =>
      rw [Rendering.alone_of_failure_eq_some hf] at h
      cases h
    | none =>
      -- The alignment of the placeholder replaces any other, so the output differs from a fresh one
      -- only by the text in front.
      rw [Rendering.alone_of_failure_eq_none hf] at h
      cases h
      rw [resolve_of_addressed_eq_some o ha, hf]
      refine ⟨_, rfl, ?_⟩
      rw [text_clearPending, padNext_eq_behind, insertAll_behind, text_behind]

end

namespace Segment

variable {store : Store} {s : Segment} {ss : List Segment} {t : Text} {e : FormatError}

def contribution (store : Store) : Segment → Except FormatError Text
  | literal t => .ok t
  | placeholder offset body => store.contribution offset body

/-- What segments contribute one after the other, up to the first failure. -/
def contributions (store : Store) : List Segment → Except FormatError Text
  | [] => .ok []
  | s :: ss => do return (← s.contribution store) ++ (← contributions store ss)

theorem contributions_cons_of_eq_error (h : s.contribution store = .error e) :
    contributions store (s :: ss) = .error e := by
  rw [contributions, h]
  rfl

theorem contributions_cons_of_eq_ok (h : s.contribution store = .ok t) :
    contributions store (s :: ss) = (contributions store ss).map (t ++ ·) := by
  rw [contributions, h]
  cases contributions store ss <;> rfl

end Segment

theorem map_append_map {ε : Type} (s t : Text) (x : Except ε Text) :
    (x.map (t ++ ·)).map (s ++ ·) = x.map (s ++ t ++ ·) := by
  cases x <;> simp [Except.map]

theorem map_eq_error_iff {ε α β : Type} {f : α → β} {x : Except ε α} {e : ε} :
    x.map f = .error e ↔ x = .error e := by
  cases x <;> simp [Except.map]

/-- Filling segments into an output appends their contributions. -/
theorem Output.map_text_fill (store : Store) (o : Output) (ss : List Segment) :
    (o.fill store ss).map text = (Segment.contributions store ss).map (o.text ++ ·) := by
  induction ss generalizing o with
  | nil => simp [fill, Segment.contributions, Except.map]
  | cons s ss ih =>
    cases hs : s.contribution store with
    | error e =>
      rw [Segment.contributions_cons_of_eq_error hs]
      cases s with
      | literal t => cases hs
      | placeholder offset body =>
        have hr := o.resolve_of_contribution_eq_error hs
        simp only [fill]
        split
        · next hw => simp [hw] at hr
        · next hw =>
          rw [hw] at hr
          cases hr
          rfl
    | ok t =>
      rw [Segment.contributions_cons_of_eq_ok hs, map_append_map]
      cases s with
      | literal u =>
        cases hs
        rw [fill, ih, text_literal]
      | placeholder offset body =>
        obtain ⟨written, hr, ht⟩ := o.resolve_of_contribution_eq_ok hs
        simp only [fill, hr]
        rw [ih, ht]

theorem format_eq_contributions {store : Store} (h : store.isEmpty = false) (template : Text) :
    format store template = Segment.contributions store (Segment.ofTemplate template) := by
  rw [format, if_neg (by simp [h]), Output.map_text_fill]
  cases Segment.contributions store (Segment.ofTemplate template) <;> rfl

end TextTemplate
