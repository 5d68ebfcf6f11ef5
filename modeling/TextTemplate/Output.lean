import TextTemplate.Text

/-! Text that only grows at its end, with an alignment that the next field takes. -/
namespace TextTemplate

/-- The least width of a field and the side on which it is filled up. -/
inductive Alignment
  | none
  | right (width : Nat)
  | left (width : Nat)
deriving DecidableEq, Repr

namespace Alignment

/-- The longest run of spaces that fills up a field. -/
def paddingLimit : Nat := 1048576

/-- Positive widths put the field on the right and negative ones on the left. -/
def ofWidth (width : Int) : Alignment :=
  if 0 < width then right width.natAbs
  else if width < 0 then left width.natAbs
  else none

def width : Alignment → Nat
  | none => 0
  | right n | left n => n

/-- A text filled up with spaces, unless it would take more of them than the limit. -/
def pad (a : Alignment) (t : Text) : Text :=
  let spaces := List.replicate (a.width - t.length) ' '
  if paddingLimit < a.width - t.length then t
  else
    match a with
    | none => t
    | right _ => spaces ++ t
    | left _ => t ++ spaces

@[simp] theorem pad_none (t : Text) : none.pad t = t := by
  simp [pad, width]

theorem pad_right (n : Nat) (t : Text) : (right n).pad t =
    if n - t.length ≤ paddingLimit then List.replicate (n - t.length) ' ' ++ t else t := by
  simp only [pad, width, ← Nat.not_le, ite_not]

theorem pad_left (n : Nat) (t : Text) : (left n).pad t =
    if n - t.length ≤ paddingLimit then t ++ List.replicate (n - t.length) ' ' else t := by
  simp only [pad, width, ← Nat.not_le, ite_not]

end Alignment

/-- The characters written so far, the last one first, and the alignment of the next field. -/
structure Output where
  reversed : Text
  pending : Alignment
deriving DecidableEq, Repr

namespace Output

variable {o : Output} {t : Text} {a : Alignment}

def empty : Output := ⟨[], .none⟩

def text (o : Output) : Text := o.reversed.reverse

def padNext (o : Output) (a : Alignment) : Output := { o with pending := a }

def clearPending (o : Output) : Output := o.padNext .none

/-- Write a text as it is; the pending alignment stays. -/
def literal (o : Output) (t : Text) : Output := { o with reversed := t.reverse ++ o.reversed }

/-- Write a field, which takes the pending alignment. -/
def push (o : Output) (t : Text) : Output := (o.literal (o.pending.pad t)).clearPending

@[simp] theorem text_empty : empty.text = [] := rfl

@[simp] theorem pending_empty : empty.pending = .none := rfl

@[simp] theorem text_padNext : (o.padNext a).text = o.text := rfl

@[simp] theorem pending_padNext : (o.padNext a).pending = a := rfl

@[simp] theorem text_clearPending : o.clearPending.text = o.text := rfl

@[simp] theorem pending_clearPending : o.clearPending.pending = .none := rfl

@[simp] theorem text_literal : (o.literal t).text = o.text ++ t := by
  simp [text, literal]

@[simp] theorem pending_literal : (o.literal t).pending = o.pending := rfl

@[simp] theorem text_push : (o.push t).text = o.text ++ o.pending.pad t := by
  simp [push]

@[simp] theorem pending_push : (o.push t).pending = .none := rfl

end Output

end TextTemplate
