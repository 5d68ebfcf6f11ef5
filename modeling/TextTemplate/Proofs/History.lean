import Mathlib.Data.List.Induction
import TextTemplate.Proofs.Contribution
import TextTemplate.Proofs.Grammar
import TextTemplate.Template.Operation

/-! What a run of operations writes into an output, told from its history alone: the steps that the
operations took, and for each field the alignment that was asked for last and not taken since. -/
namespace TextTemplate

namespace Insertion

variable {i : Insertion} {is js past : List Insertion} {a : Alignment} {t : Text}

/-- Whether a step writes a literal text, which passes by what is pending. -/
def isLiteral : Insertion → Bool
  | literal _ => true
  | _ => false

/-- The alignment that is pending behind a history: the one that its last step other than a literal
text asked for, and none behind a field. -/
def pendingAfter (past : List Insertion) : Alignment :=
  match past.reverse.find? (!·.isLiteral) with
  | some (align a) => a
  | _ => .none

/-- What a step writes behind a history. -/
def contribution (past : List Insertion) : Insertion → Text
  | field t => (pendingAfter past).pad t
  | literal t => t
  | align _ => []

/-- What steps write one after the other behind a history. -/
def contributions (past : List Insertion) : List Insertion → Text
  | [] => []
  | i :: is => i.contribution past ++ contributions (past ++ [i]) is

theorem contributions_append (past is js : List Insertion) :
    contributions past (is ++ js) = contributions past is ++ contributions (past ++ is) js := by
  induction is generalizing past with
  | nil => simp [contributions]
  | cons i is ih => simp [contributions, ih]

@[simp] theorem pendingAfter_nil : pendingAfter [] = .none := rfl

@[simp] theorem pendingAfter_align : pendingAfter (past ++ [align a]) = a := by
  simp [pendingAfter, isLiteral]

@[simp] theorem pendingAfter_field : pendingAfter (past ++ [field t]) = .none := by
  simp [pendingAfter, isLiteral]

@[simp] theorem pendingAfter_literal :
    pendingAfter (past ++ [literal t]) = pendingAfter past := by
  simp [pendingAfter, isLiteral]

/-- An alignment was asked for, and since then only literal texts were written. -/
def Awaits (past : List Insertion) (a : Alignment) : Prop :=
  ∃ before after, past = before ++ align a :: after ∧ ∀ i ∈ after, i.isLiteral = true

/-- What a field becomes behind a history: the spaces that it lacks stand in front of it if a width
for its right side is awaited, and behind it if one for its left side is. Where neither is awaited,
or more spaces than the limit are lacking, it stays as it is. -/
structure Fills (past : List Insertion) (t filled : Text) : Prop where
  unaligned : (∀ n, ¬ Awaits past (.right n) ∧ ¬ Awaits past (.left n)) → filled = t
  right : ∀ n, Awaits past (.right n) → filled =
    if n - t.length ≤ 1048576 then List.replicate (n - t.length) ' ' ++ t else t
  left : ∀ n, Awaits past (.left n) → filled =
    if n - t.length ≤ 1048576 then t ++ List.replicate (n - t.length) ' ' else t

theorem Awaits.pendingAfter_eq (h : Awaits past a) : pendingAfter past = a := by
  obtain ⟨before, after, rfl, hafter⟩ := h
  induction after using List.reverseRecOn with
  | nil => exact pendingAfter_align
  | append_singleton after i ih =>
    have hi : i.isLiteral = true := hafter i (by simp)
    cases i with
    | literal t =>
      rw [← List.cons_append, ← List.append_assoc, pendingAfter_literal]
      exact ih fun i hi => hafter i (List.mem_append_left _ hi)
    | field | align => cases hi

theorem awaits_of_pendingAfter_eq (h : pendingAfter past = a) (ha : a ≠ .none) :
    Awaits past a := by
  induction past using List.reverseRecOn with
  | nil => exact absurd h.symm ha
  | append_singleton past i ih =>
    cases i with
    | field t => exact absurd (h.symm.trans pendingAfter_field) ha
    | align b =>
      rw [pendingAfter_align] at h
      exact ⟨past, [], by rw [h], by simp⟩
    | literal t =>
      rw [pendingAfter_literal] at h
      obtain ⟨before, after, hpast, hafter⟩ := ih h
      refine ⟨before, after ++ [literal t], ?_, ?_⟩
      · rw [hpast, List.append_assoc, List.cons_append]
      · intro i hi
        obtain hi | hi := List.mem_append.mp hi
        · exact hafter i hi
        · obtain rfl := List.mem_singleton.mp hi
          rfl

/-- A field takes the alignment that its history awaits. -/
theorem fills_pad (past : List Insertion) (t : Text) :
    Fills past t ((pendingAfter past).pad t) where
  unaligned h := by
    cases ha : pendingAfter past with
    | none => exact Alignment.pad_none t
    | right n => exact absurd (awaits_of_pendingAfter_eq ha nofun) (h n).1
    | left n => exact absurd (awaits_of_pendingAfter_eq ha nofun) (h n).2
  right n h := by
    rw [h.pendingAfter_eq]
    exact Alignment.pad_right n t
  left n h := by
    rw [h.pendingAfter_eq]
    exact Alignment.pad_left n t

end Insertion

open Insertion

/-- The steps that an operation takes on an output; a placeholder is bounded by its own alignment
and by none, and takes no step if it addresses no argument. -/
def Operation.insertions : Operation → List Insertion
  | .padNext a => [.align a]
  | .clearPending => [.align .none]
  | .push t => [.field t]
  | .literal t => [.literal t]
  | .render argument spec => (argument.rendering spec).insertions
  | .resolve store template span =>
    match (template.slice? span).bind store.addressed? with
    | none => []
    | some (p, argument) =>
      .align p.alignment :: ((argument.rendering p.spec).insertions ++ [.align .none])

def history (operations : List Operation) : List Insertion :=
  operations.flatMap Operation.insertions

theorem history_append (before after : List Operation) :
    history (before ++ after) = history before ++ history after :=
  List.flatMap_append

/-- A placeholder addresses an argument through the index that the grammar has for its body. -/
theorem Store.addressed?_eq_some_iff_bodyGrammar {store : Store} {body : Text} {p : Placeholder}
    {argument : Argument} :
    store.addressed? body = some (p, argument) ↔
      BodyGrammar body p ∧ ∃ i, p.index = some i ∧ store.arguments[i]? = some argument := by
  rw [addressed?_eq_some_iff, Placeholder.ofBody?_eq_some_iff, Option.bind_eq_some_iff]
  rfl

theorem Store.addressed?_eq_none {store : Store} {body : Text}
    (h : ∀ p i, BodyGrammar body p → p.index = some i → store.arguments.length ≤ i) :
    store.addressed? body = none := by
  rw [Option.eq_none_iff_forall_ne_some]
  rintro ⟨p, argument⟩ haddressed
  obtain ⟨hp, i, hi, hargument⟩ := addressed?_eq_some_iff_bodyGrammar.mp haddressed
  have hnone : store.arguments[i]? = none := List.getElem?_eq_none (h p i hp hi)
  rw [hnone] at hargument
  cases hargument

namespace Output

variable {o : Output} {i : Insertion} {past : List Insertion} {store : Store} {template body : Text}
  {span : Span} {p : Placeholder} {argument : Argument}

theorem insertAll_append (o : Output) (is js : List Insertion) :
    o.insertAll (is ++ js) = (o.insertAll is).insertAll js :=
  List.foldl_append

theorem perform_resolve_of_addressed_eq_none (o : Output) (hbody : template.slice? span = some body)
    (h : store.addressed? body = none) : (o.perform (.resolve store template span)).1 = o := by
  simp [perform, hbody, resolve_of_addressed_eq_none o h]

theorem perform_resolve_of_addressed_eq_some (o : Output) (hbody : template.slice? span = some body)
    (h : store.addressed? body = some (p, argument)) :
    (o.perform (.resolve store template span)).1 =
      ((o.padNext p.alignment).insertAll (argument.rendering p.spec).insertions).clearPending := by
  simp [perform, hbody, resolve_of_addressed_eq_some o h]

/-- Every operation is the sequence of its steps. -/
theorem perform_eq_insertAll (o : Output) (operation : Operation) :
    (o.perform operation).1 = o.insertAll operation.insertions := by
  cases operation with
  | padNext | clearPending | push | literal | render => rfl
  | resolve store template span =>
    cases hbody : template.slice? span with
    | none => simp [perform, hbody, Operation.insertions, insertAll]
    | some body =>
      cases h : store.addressed? body with
      | none =>
        rw [perform_resolve_of_addressed_eq_none o hbody h]
        simp [Operation.insertions, hbody, h, insertAll]
      | some found =>
        rw [perform_resolve_of_addressed_eq_some o hbody h]
        simp [Operation.insertions, hbody, h, insertAll, insert, clearPending]

theorem performAll_eq_insertAll (o : Output) (operations : List Operation) :
    o.performAll operations = o.insertAll (history operations) := by
  induction operations generalizing o with
  | nil => rfl
  | cons operation operations ih =>
    rw [performAll, List.foldl_cons, ← performAll, ih, perform_eq_insertAll, ← insertAll_append]
    rfl

/-- The output shows what its history wrote and asks for what its history left pending. -/
structure Follows (o : Output) (past : List Insertion) : Prop where
  text : o.text = contributions [] past
  pending : o.pending = pendingAfter past

theorem follows_empty : empty.Follows [] := ⟨rfl, rfl⟩

theorem Follows.insert (h : o.Follows past) (i : Insertion) :
    (o.insert i).Follows (past ++ [i]) := by
  cases i with
  | field t =>
    exact ⟨by simp [Output.insert, contributions_append, contributions, contribution, h.text,
      h.pending], by simp [Output.insert]⟩
  | literal t =>
    exact ⟨by simp [Output.insert, contributions_append, contributions, contribution, h.text],
      by simp [Output.insert, h.pending]⟩
  | align a =>
    exact ⟨by simp [Output.insert, contributions_append, contributions, contribution, h.text],
      by simp [Output.insert]⟩

theorem Follows.insertAll (h : o.Follows past) (is : List Insertion) :
    (o.insertAll is).Follows (past ++ is) := by
  induction is generalizing o past with
  | nil => simpa [Output.insertAll] using h
  | cons i is ih => simpa [Output.insertAll] using ih (h.insert i)

theorem follows_performAll (operations : List Operation) :
    (empty.performAll operations).Follows (history operations) := by
  rw [performAll_eq_insertAll]
  exact follows_empty.insertAll (history operations)

theorem text_performAll_prefix {before operations : List Operation} (h : before <+: operations) :
    (empty.performAll before).text <+: (empty.performAll operations).text := by
  obtain ⟨after, rfl⟩ := h
  rw [(follows_performAll before).text, (follows_performAll (before ++ after)).text,
    history_append, contributions_append]
  exact List.prefix_append _ _

theorem Follows.pending_eq_none (h : o.Follows past) (hpast : ∀ a, ¬ Awaits past a) :
    o.pending = .none := by
  by_cases hpending : pendingAfter past = .none
  · rw [h.pending, hpending]
  · exact absurd (awaits_of_pendingAfter_eq rfl hpending) (hpast _)

/-- The text of an output grows by what each step of its history contributes. A field is filled up
as the alignment says that was asked for last, if nothing but literal texts came since; a
body without an index of the store does nothing, and one with an argument neither sees nor leaves a
pending alignment. -/
theorem text_and_pending_performAll (operations : List Operation) :
    let o := empty.performAll operations
    let past := history operations
    (o.text = contributions [] past ∧
      ∀ before, before <+: operations → (empty.performAll before).text <+: o.text) ∧
    ((∀ a, Awaits past a → o.pending = a) ∧ ((∀ a, ¬ Awaits past a) → o.pending = .none)) ∧
    (∀ t, (o.perform (.literal t)).1.text = o.text ++ t ∧
      (o.perform (.literal t)).1.pending = o.pending) ∧
    (∀ t, (o.perform (.push t)).1.text = o.text ++ o.pending.pad t ∧
      Fills past t (o.pending.pad t) ∧ (o.perform (.push t)).1.pending = .none) ∧
    (∀ before t, Fills before t ((field t).contribution before)) ∧
    ∀ store template span body, template.slice? span = some body →
      ((∀ p i, BodyGrammar body p → p.index = some i → store.arguments.length ≤ i) →
        (o.perform (.resolve store template span)).1 = o) ∧
      ∀ p i argument, BodyGrammar body p → p.index = some i →
        store.arguments[i]? = some argument →
        let written := (o.perform (.resolve store template span)).1
        written = o.performAll [.padNext p.alignment, .render argument p.spec, .clearPending] ∧
        written.pending = .none ∧
        ∀ a, ((o.padNext a).perform (.resolve store template span)).1 = written := by
  intro o past
  have hfollows : o.Follows past := follows_performAll operations
  refine ⟨⟨hfollows.text, fun before h => text_performAll_prefix h⟩,
    ⟨fun a h => hfollows.pending.trans h.pendingAfter_eq, hfollows.pending_eq_none⟩,
    fun t => ⟨text_literal, pending_literal⟩,
    fun t => ⟨text_push, hfollows.pending ▸ fills_pad past t, pending_push⟩, fills_pad, ?_⟩
  intro store template span body hbody
  refine ⟨fun h => perform_resolve_of_addressed_eq_none o hbody (Store.addressed?_eq_none h), ?_⟩
  intro p i argument hp hi hargument written
  have h : store.addressed? body = some (p, argument) :=
    Store.addressed?_eq_some_iff_bodyGrammar.mpr ⟨hp, i, hi, hargument⟩
  have hwritten : written = _ := perform_resolve_of_addressed_eq_some o hbody h
  refine ⟨hwritten, hwritten ▸ pending_clearPending, fun a => ?_⟩
  rw [hwritten, perform_resolve_of_addressed_eq_some _ hbody h]
  rfl

end Output

end TextTemplate
