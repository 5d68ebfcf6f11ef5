import TextTemplate.Proofs.Expansion
import TextTemplate.Proofs.Rendering

/-! How the built-in arguments fill their fields. Each writes one field, in front of which or behind
which the spaces go; only the number of a truth value that is written as a word stands outside of
the field. -/
namespace TextTemplate

namespace Alignment

variable {a : Alignment} {t : Text}

/-- The limit is on the spaces and not on the width, so a text of any length moves it. -/
theorem length_pad (a : Alignment) (t : Text) : (a.pad t).length =
    if paddingLimit < a.width - t.length then t.length else max a.width t.length := by
  unfold pad
  simp only
  split
  · rfl
  · cases a with
    | none => simp [width]
    | right n | left n =>
      simp only [List.length_append, List.length_replicate, width]
      omega

/-- A field stays as it is where the text fills it, or where too many spaces would be needed. -/
theorem pad_eq_self_iff : a.pad t = t ↔ a.width ≤ t.length ∨ paddingLimit < a.width - t.length := by
  have hlength := length_pad a t
  constructor
  · intro h
    rw [h] at hlength
    split at hlength
    · next hlimit => exact .inr hlimit
    · exact .inl (by omega)
  · rintro (h | h)
    · have hspaces : a.width - t.length = 0 := by omega
      unfold pad
      rw [hspaces]
      cases a <;> simp
    · simp [pad, h]

end Alignment

namespace Rendering

def asksForWord (spec : Text) : Bool := spec = "boolalpha".toList ∨ spec = "ba".toList

def boolDigit (b : Bool) : Char := if b then '1' else '0'

variable {b : Bool} {spec t rest : Text} {a : Alignment}

theorem failure_eq_none_of_alone_eq_ok {r : Rendering} (h : r.alone a = .ok t) :
    r.failure = none := by
  cases hf : r.failure with
  | none => rfl
  | some e =>
    rw [alone_of_failure_eq_some hf] at h
    cases h

theorem alone_ofFields_singleton (t : Text) (a : Alignment) :
    (ofFields [t]).alone a = .ok (a.pad t) := by
  rw [alone_of_failure_eq_none rfl]
  simp [ofFields, Output.insertAll, Output.insert]

theorem alone_ofFields_pair (t rest : Text) (a : Alignment) :
    (ofFields [t, rest]).alone a = .ok (a.pad t ++ rest) := by
  rw [alone_of_failure_eq_none rfl]
  simp [ofFields, Output.insertAll, Output.insert]

theorem integerText_ofBool_of_asksForWord (h : asksForWord spec = true) (b : Bool) :
    integerText (Integer.ofBool b) spec = [boolDigit b] := by
  simp only [asksForWord, decide_eq_true_eq] at h
  obtain rfl | rfl := h <;> cases b <;> decide

theorem ofBool_of_asksForWord (h : asksForWord spec = true) (b : Bool) :
    ofBool b spec = ofFields [boolWord b, [boolDigit b]] := by
  have hword := h
  simp only [asksForWord, decide_eq_true_eq] at hword
  simp only [ofBool, if_pos hword, integerText_ofBool_of_asksForWord h]

theorem ofBool_of_not_asksForWord (h : asksForWord spec = false) (b : Bool) :
    ofBool b spec = ofFields [integerText (Integer.ofBool b) spec] := by
  simp only [asksForWord, decide_eq_false_iff_not] at h
  simp only [ofBool, if_neg h]

theorem exists_ofFloat_eq {f : FloatFormat} {x : BinaryFloat f}
    (h : (ofFloat x spec).failure = none) :
    ∃ t, ofFloat x spec = ofFields [t] := by
  unfold ofFloat at h ⊢
  split at h
  · exact ⟨_, rfl⟩
  · split at h
    · exact ⟨_, rfl⟩
    · cases h
  · exact ⟨_, rfl⟩

end Rendering

open Rendering

namespace Argument

variable {a : Argument} {b : Bool} {spec u : Text} {alignment : Alignment} {n : Nat}

/-- The truth value that an argument is, however it is held. -/
def truthValue? : Argument → Option Bool
  | bool b | value (.bool b) => some b
  | reference a | boxed a => a.truthValue?
  | _ => none

/-- The truth value that an argument writes as a word under a specification. -/
def spelled? (a : Argument) (spec : Text) : Option Bool :=
  if asksForWord spec then a.truthValue? else none

/-- The part of an argument's own text that its field holds: the word of a truth value that is
written as one, and else all of the text. -/
def fieldText (a : Argument) (spec u : Text) : Text :=
  match a.spelled? spec with
  | some b => boolWord b
  | none => u

/-- What an argument writes behind its field: the digit of a truth value that is written as a
word. -/
def behindField (a : Argument) (spec : Text) : Text :=
  match a.spelled? spec with
  | some b => [boolDigit b]
  | none => []

/-- The rendering is one field, or the word of a truth value in one field and its digit in
another. -/
def IsFieldwise (a : Argument) (spec : Text) : Prop :=
  (a.spelled? spec = none ∧ ∃ t, a.rendering spec = ofFields [t]) ∨
    ∃ b, a.spelled? spec = some b ∧ a.rendering spec = ofFields [boolWord b, [boolDigit b]]

theorem spelled?_eq_none (h : a.truthValue? = none) (spec : Text) : a.spelled? spec = none := by
  rw [spelled?, h, ite_self]

theorem isFieldwise_bool (b : Bool) (spec : Text) : (bool b).IsFieldwise spec := by
  cases hword : asksForWord spec with
  | true => exact .inr ⟨b, if_pos hword, ofBool_of_asksForWord hword b⟩
  | false => exact .inl ⟨if_neg (by simp [hword]), _, ofBool_of_not_asksForWord hword b⟩

theorem isFieldwise_float {f : FloatFormat} {x : BinaryFloat f}
    (hf : ((float x).rendering spec).failure = none) : (float x).IsFieldwise spec :=
  .inl ⟨spelled?_eq_none rfl spec, exists_ofFloat_eq hf⟩

/-- Every branch of a built-in rendering that succeeds inserts one field, and the word of a truth
value a second one. -/
theorem isFieldwise_of_isBuiltIn (h : a.isBuiltIn = true) (hf : (a.rendering spec).failure = none) :
    a.IsFieldwise spec := by
  induction a with
  | bool b => exact isFieldwise_bool b spec
  | integer n => exact .inl ⟨spelled?_eq_none rfl spec, _, rfl⟩
  | float x => exact isFieldwise_float hf
  | text t => exact .inl ⟨spelled?_eq_none rfl spec, _, rfl⟩
  | reference a ih => exact ih h hf
  | boxed a ih => exact ih h hf
  | display item => exact .inl ⟨spelled?_eq_none rfl spec, _, rfl⟩
  | value v =>
    cases v with
    | bool b => exact isFieldwise_bool b spec
    | integer n => exact .inl ⟨spelled?_eq_none rfl spec, _, rfl⟩
    | float x => exact isFieldwise_float hf
    | text t => exact .inl ⟨spelled?_eq_none rfl spec, _, rfl⟩
  | custom rule => cases h

/-- An alignment changes nothing but the field. -/
theorem alone_eq_pad (h : a.isBuiltIn = true) (hu : (a.rendering spec).alone .none = .ok u)
    (alignment : Alignment) : (a.rendering spec).alone alignment =
      .ok (alignment.pad (a.fieldText spec u) ++ a.behindField spec) := by
  have hf : (a.rendering spec).failure = none := failure_eq_none_of_alone_eq_ok hu
  obtain ⟨hspelled, t, ht⟩ | ⟨b, hspelled, hb⟩ := isFieldwise_of_isBuiltIn h hf
  · rw [ht, alone_ofFields_singleton, Alignment.pad_none] at hu
    cases hu
    simp only [ht, alone_ofFields_singleton, fieldText, behindField, hspelled, List.append_nil]
  · simp only [hb, alone_ofFields_pair, fieldText, behindField, hspelled]

theorem eq_fieldText_append (h : a.isBuiltIn = true) (hu : (a.rendering spec).alone .none = .ok u) :
    u = a.fieldText spec u ++ a.behindField spec := by
  have hnone := alone_eq_pad h hu .none
  rw [hu, Alignment.pad_none] at hnone
  exact Except.ok.inj hnone

/-- Within the limit, the spaces that an argument's own text lacks stand in front of it or behind
it. Of a truth value that is written as a word only the word is filled up, and its digit follows the
field. -/
theorem alone_fills_field (h : a.isBuiltIn = true) (hu : (a.rendering spec).alone .none = .ok u)
    (hn : n ≤ 1048576) :
    (a.spelled? spec = none →
      let spaces := List.replicate (n - u.length) ' '
      (a.rendering spec).alone (.right n) = .ok (spaces ++ u) ∧
      (a.rendering spec).alone (.left n) = .ok (u ++ spaces) ∧
      (spaces ++ u).length = max n u.length ∧ (u ++ spaces).length = max n u.length) ∧
    ∀ b, a.spelled? spec = some b →
      let spaces := List.replicate (n - (boolWord b).length) ' '
      u = boolWord b ++ [boolDigit b] ∧
      (a.rendering spec).alone (.right n) = .ok (spaces ++ boolWord b ++ [boolDigit b]) ∧
      (a.rendering spec).alone (.left n) = .ok (boolWord b ++ spaces ++ [boolDigit b]) := by
  have hright := alone_eq_pad h hu (.right n)
  have hleft := alone_eq_pad h hu (.left n)
  have howntext := eq_fieldText_append h hu
  have hlimit : n - (a.fieldText spec u).length ≤ Alignment.paddingLimit :=
    Nat.le_trans (Nat.sub_le _ _) hn
  rw [Alignment.pad_right, if_pos hlimit] at hright
  rw [Alignment.pad_left, if_pos hlimit] at hleft
  constructor
  · intro hspelled spaces
    simp only [fieldText, behindField, hspelled, List.append_nil] at hright hleft
    refine ⟨hright, hleft, ?_, ?_⟩
    · simp only [spaces, List.length_append, List.length_replicate]
      omega
    · simp only [spaces, List.length_append, List.length_replicate]
      omega
  · intro b hspelled spaces
    simp only [fieldText, behindField, hspelled] at hright hleft howntext
    exact ⟨howntext, hright, hleft⟩

theorem alone_fills_field_of_boxed_value :
    (boxed (value (.bool true))).isBuiltIn = true ∧
      ((boxed (value (.bool true))).rendering "ba".toList).alone .none = .ok "true1".toList ∧
      6 ≤ 1048576 ∧ (boxed (value (.bool true))).spelled? "ba".toList = some true ∧
      "true1".toList = boolWord true ++ [boolDigit true] ∧
      ((boxed (value (.bool true))).rendering "ba".toList).alone (.right 6) = .ok "  true1".toList ∧
      ((boxed (value (.bool true))).rendering "ba".toList).alone (.left 6) = .ok "true  1".toList :=
  ⟨rfl, rfl, by decide, rfl, (alone_fills_field rfl rfl (by decide)).2 true rfl⟩

end Argument

section

variable {store : Store} {body body' u : Text} {p : Placeholder} {a : Argument}

/-- The contribution of a placeholder is the one that it would make without its alignment exactly if
the field is full or lacks more spaces than the limit. A width above the limit is not enough for
that: it is ignored only from the limit and the length of the field together on. -/
theorem contribution_eq_unaligned_iff (hbody : store.addressed? body = some (p, a))
    (hbody' : store.addressed? body' = some ({ p with alignment := .none }, a))
    (h : a.isBuiltIn = true) (hu : (a.rendering p.spec).alone .none = .ok u)
    (offset offset' : Nat) :
    store.contribution offset body = store.contribution offset' body' ↔
      p.alignment.width ≤ (a.fieldText p.spec u).length ∨
        1048576 + (a.fieldText p.spec u).length < p.alignment.width := by
  rw [Store.contribution_of_addressed_eq_some hbody, Store.contribution_of_addressed_eq_some hbody',
    Argument.alone_eq_pad h hu p.alignment, Argument.alone_eq_pad h hu .none, Alignment.pad_none,
    mapError_ok, mapError_ok, Except.ok.injEq, List.append_cancel_right_eq,
    Alignment.pad_eq_self_iff, Alignment.paddingLimit]
  omega

/-- A template of one placeholder is formatted to what the placeholder contributes. -/
theorem format_placeholder (h : store.isEmpty = false) (hhead : body.head? ≠ some '{')
    (hclose : '}' ∉ body) : format store ('{' :: (body ++ ['}'])) = store.contribution 1 body := by
  rw [format_eq_expand h, Store.expand_placeholder hhead hclose, Store.expand_nil]
  cases store.contribution (0 + 1) body with
  | error e => rfl
  | ok t => simp [bind, Except.bind, pure, Except.pure]

end

theorem contribution_eq_unaligned_iff_of_seven :
    let store : Store := ⟨[.integer (k := .signed32) ⟨7, by decide, by decide⟩]⟩
    store.addressed? "0,-1048578".toList =
        some (⟨some 0, .left 1048578, []⟩, .integer (k := .signed32) ⟨7, by decide, by decide⟩) ∧
      store.addressed? "0".toList =
        some (⟨some 0, .none, []⟩, .integer (k := .signed32) ⟨7, by decide, by decide⟩) ∧
      (Argument.integer (k := .signed32) ⟨7, by decide, by decide⟩).isBuiltIn = true ∧
      ((Argument.integer (k := .signed32) ⟨7, by decide, by decide⟩).rendering []).alone .none =
        .ok "7".toList ∧
      (store.contribution 1 "0,-1048578".toList = store.contribution 1 "0".toList ↔
        1048578 ≤ "7".toList.length ∨ 1048576 + "7".toList.length < 1048578) := by
  intro store
  have hbody : store.addressed? "0,-1048578".toList =
      some (⟨some 0, .left 1048578, []⟩, .integer (k := .signed32) ⟨7, by decide, by decide⟩) := rfl
  exact ⟨hbody, rfl, rfl, rfl, contribution_eq_unaligned_iff hbody rfl rfl rfl 1 1⟩

/-- One column above the limit, a field of one character is still filled up. -/
theorem format_fills_field_above_limit :
    let store : Store := ⟨[.integer (k := .signed32) ⟨7, by decide, by decide⟩]⟩
    Placeholder.ofBody? "0,1048577".toList = some ⟨some 0, .right 1048577, []⟩ ∧
      Placeholder.ofBody? "0".toList = some ⟨some 0, .none, []⟩ ∧ 1048576 < 1048577 ∧
      format store "\x7b0\x7d".toList = .ok "7".toList ∧
      format store "\x7b0,1048577\x7d".toList ≠ format store "\x7b0\x7d".toList := by
  intro store
  have hunaligned : format store "\x7b0\x7d".toList = .ok "7".toList := rfl
  refine ⟨rfl, rfl, by decide, hunaligned, ?_⟩
  have hbody : store.addressed? "0,1048577".toList =
      some (⟨some 0, .right 1048577, []⟩, .integer (k := .signed32) ⟨7, by decide, by decide⟩) :=
    rfl
  have haligned : format store "\x7b0,1048577\x7d".toList =
      .ok ((Alignment.right 1048577).pad "7".toList ++ []) := by
    have hplaceholder : format store ('{' :: ("0,1048577".toList ++ ['}'])) =
        store.contribution 1 "0,1048577".toList := format_placeholder rfl (by decide) (by decide)
    rw [Store.contribution_of_addressed_eq_some hbody, Argument.alone_eq_pad rfl rfl, mapError_ok]
      at hplaceholder
    exact hplaceholder
  intro heq
  rw [haligned, hunaligned, List.append_nil, Except.ok.injEq, Alignment.pad_eq_self_iff] at heq
  exact absurd heq (by decide)

end TextTemplate
