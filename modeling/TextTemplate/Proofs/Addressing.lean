import Mathlib.Data.List.Forall2
import TextTemplate.Proofs.Contribution
import TextTemplate.Proofs.Site

/-! What a template sees of its store: the arguments at the indices that its placeholders address,
and of each of them only what it does to an output. -/
namespace TextTemplate

namespace Argument

variable {a b : Argument} {spec : Text}

/-- No output tells the arguments apart: the text, the alignment left over and the failure are the
same under every specification. -/
def Alike (a b : Argument) : Prop :=
  ∀ (spec : Text) (o : Output), o.render (a.rendering spec) = o.render (b.rendering spec)

/-- The second argument is the first one with references or boxes put around it, or with the value
of its kind in its place, at any depth and any number of times. -/
inductive Repacked : Argument → Argument → Prop
  | refl (a : Argument) : Repacked a a
  | reference (a : Argument) : Repacked a (.reference a)
  | boxed (a : Argument) : Repacked a (.boxed a)
  | value (v : Value) : Repacked (.ofValue v) (.value v)
  | inReference {a b : Argument} (h : Repacked a b) : Repacked (.reference a) (.reference b)
  | inBox {a b : Argument} (h : Repacked a b) : Repacked (.boxed a) (.boxed b)
  | trans {a b c : Argument} (h : Repacked a b) (h' : Repacked b c) : Repacked a c

theorem Alike.alone_eq (h : Alike a b) (spec : Text) (alignment : Alignment) :
    (a.rendering spec).alone alignment = (b.rendering spec).alone alignment := by
  unfold Rendering.alone
  rw [h spec (Output.empty.padNext alignment)]

theorem Repacked.rendering_eq (h : Repacked a b) (spec : Text) :
    b.rendering spec = a.rendering spec := by
  induction h with
  | refl a => rfl
  | reference a => rfl
  | boxed a => rfl
  | value v => exact rendering_value v spec
  | inReference _ ih => exact ih
  | inBox _ ih => exact ih
  | trans _ _ ih ih' => exact ih'.trans ih

theorem Repacked.alike (h : Repacked a b) : Alike a b := by
  intro spec o
  rw [h.rendering_eq spec]

end Argument

/-- The template has a placeholder with this index. -/
def Text.Addresses (template : Text) (i : Nat) : Prop :=
  ∃ s : Site, s.template = template ∧ (Placeholder.ofBody? s.body).bind Placeholder.index = some i

def Segment.index? : Segment → Option Nat
  | literal _ => none
  | placeholder _ body => (Placeholder.ofBody? body).bind Placeholder.index

/-- The indices of a template are those of the segments that the scan of its tokens meets. -/
theorem Text.addresses_iff {template : Text} {i : Nat} :
    template.Addresses i ↔ i ∈ (Segment.ofTemplate template).filterMap Segment.index? := by
  rw [List.mem_filterMap]
  constructor
  · rintro ⟨s, hs, hi⟩
    exact ⟨_, mem_ofTokens_iff.mpr ⟨s, hs, rfl, rfl⟩, hi⟩
  · rintro ⟨segment, hmem, hi⟩
    cases segment with
    | literal t => cases hi
    | placeholder offset body =>
      obtain ⟨s, hs, rfl, -⟩ := mem_ofTokens_iff.mp hmem
      exact ⟨s, hs, hi⟩

namespace Store

variable {s t : Store} {body : Text} {offset : Nat} {p : Placeholder}

/-- At an index the two stores both have no argument, or arguments that no output tells apart. -/
def AlikeAt (s t : Store) (i : Nat) : Prop := Option.Rel Argument.Alike (s.get? i) (t.get? i)

theorem contribution_eq_of_rel (offset : Nat) (hp : Placeholder.ofBody? body = some p)
    (h : Option.Rel Argument.Alike (p.index.bind s.get?) (p.index.bind t.get?)) :
    s.contribution offset body = t.contribution offset body := by
  unfold contribution addressed?
  rw [hp]
  simp only [Option.bind_eq_bind, Option.bind_some]
  generalize p.index.bind s.get? = found at h ⊢
  generalize p.index.bind t.get? = found' at h ⊢
  cases h with
  | none => rfl
  | some hab =>
    simp only [Option.bind_some, Option.pure_def]
    rw [hab.alone_eq]

theorem contribution_eq_of_alikeAt (offset : Nat) (body : Text)
    (h : ∀ i, (Placeholder.ofBody? body).bind Placeholder.index = some i → s.AlikeAt t i) :
    s.contribution offset body = t.contribution offset body := by
  cases hp : Placeholder.ofBody? body with
  | none =>
    unfold contribution addressed?
    rw [hp]
    rfl
  | some p =>
    apply contribution_eq_of_rel offset hp
    cases hi : p.index with
    | none => exact .none
    | some i => exact h i (by rw [hp]; exact hi)

theorem alikeAt_of_forall₂ (h : List.Forall₂ Argument.Alike s.arguments t.arguments) (i : Nat) :
    s.AlikeAt t i := by
  obtain ⟨arguments⟩ := s
  obtain ⟨arguments'⟩ := t
  unfold AlikeAt get?
  change List.Forall₂ Argument.Alike arguments arguments' at h
  induction h generalizing i with
  | nil => exact .none
  | cons hab _ ih =>
    cases i with
    | zero => exact .some hab
    | succ i => exact ih i

theorem alikeAt_extend {i : Nat} (h : i < s.size) (further : List Argument) :
    (s.extend further).AlikeAt s i := by
  unfold AlikeAt get? extend
  rw [List.getElem?_append_left h, List.getElem?_eq_getElem h]
  exact .some fun _ _ => rfl

end Store

namespace Segment

variable {s t : Store} {segments : List Segment}

theorem contributions_congr
    (h : ∀ segment ∈ segments, segment.contribution s = segment.contribution t) :
    contributions s segments = contributions t segments := by
  induction segments with
  | nil => rfl
  | cons segment segments ih =>
    have hrest := ih fun other hother => h other (List.mem_cons_of_mem _ hother)
    rw [contributions, contributions, h segment List.mem_cons_self, hrest]

end Segment

section

variable {s t : Store} {template : Text}

theorem format_congr (hs : s.isEmpty = false) (ht : t.isEmpty = false)
    (h : ∀ i, template.Addresses i → s.AlikeAt t i) : format s template = format t template := by
  rw [format_eq_contributions hs, format_eq_contributions ht]
  apply Segment.contributions_congr
  intro segment hmem
  cases segment with
  | literal text => rfl
  | placeholder offset body =>
    apply Store.contribution_eq_of_alikeAt
    intro i hi
    exact h i (Text.addresses_iff.mpr (List.mem_filterMap.mpr ⟨_, hmem, hi⟩))

theorem format_eq_of_forall₂_alike (h : List.Forall₂ Argument.Alike s.arguments t.arguments)
    (template : Text) : format s template = format t template := by
  obtain ⟨arguments⟩ := s
  obtain ⟨arguments'⟩ := t
  cases h with
  | nil => rfl
  | cons hab hrest =>
    exact format_congr rfl rfl fun i _ => Store.alikeAt_of_forall₂ (.cons hab hrest) i

/-- A template gives the same text or the same error under two stores without a difference at the
indices that it addresses. So further arguments behind all addressed ones change nothing, and
neither do references, boxes and values that hold what was given plainly. -/
theorem format_sees_addressed_arguments_only (hs : s.isEmpty = false) (template : Text) :
    (∀ t : Store, t.isEmpty = false → (∀ i, template.Addresses i → s.AlikeAt t i) →
      format s template = format t template) ∧
    (∀ further, (∀ i, template.Addresses i → i < s.size) →
      format (s.extend further) template = format s template) ∧
    (∀ t : Store, List.Forall₂ Argument.Repacked s.arguments t.arguments →
      format s template = format t template) := by
  refine ⟨fun t ht h => format_congr hs ht h, ?_, ?_⟩
  · intro further h
    have hextended : (s.extend further).isEmpty = false := by
      simp only [Store.isEmpty, Store.extend, List.isEmpty_eq_false_iff] at hs ⊢
      exact List.append_ne_nil_of_left_ne_nil hs further
    exact format_congr hextended hs fun i hi => Store.alikeAt_extend (h i hi) further
  · intro t h
    exact format_eq_of_forall₂_alike (h.imp fun _ _ hab => hab.alike) template

/-- The first argument may be held by a box. The second one, which only an escape mentions, may be
anything, and no argument has the index seven. -/
theorem format_ignores_argument_behind_escape :
    let zero : Value := .float (.finite false (.zero .double))
    let s : Store := ⟨[.ofValue zero, .text "é".toList]⟩
    let t : Store := ⟨[.boxed (.reference (.value zero)), .bool true, .bool false]⟩
    let template : Text := "\x7b\x7b1\x7d\x7b0,4\x7d\x7b7\x7d\x7b9".toList
    let faulty : Text := "\x7b\x7b5\x7d\x7b0:.yf\x7d".toList
    s.isEmpty = false ∧ t.isEmpty = false ∧ (∀ i, template.Addresses i → s.AlikeAt t i) ∧
      format s template = format t template ∧ format t template = .ok "\x7b1\x7d   0\x7b9".toList ∧
      (∀ i, faulty.Addresses i → i < s.size) ∧
      format (s.extend [.bool true]) faulty = format s faulty ∧
      List.Forall₂ Argument.Repacked s.arguments
        [.boxed (.reference (.value zero)), .reference (.text "é".toList)] ∧
      format s faulty =
        format ⟨[.boxed (.reference (.value zero)), .reference (.text "é".toList)]⟩ faulty := by
  intro zero s t template faulty
  have hzero : Argument.Repacked (.ofValue zero) (.boxed (.reference (.value zero))) :=
    ((Argument.Repacked.value zero).trans (.reference _)).trans (.boxed _)
  have htemplate : ∀ i, template.Addresses i → s.AlikeAt t i := by
    intro i hi
    have hmem : i ∈ [0, 7] := Text.addresses_iff.mp hi
    simp only [List.mem_cons, List.not_mem_nil, or_false] at hmem
    rcases hmem with rfl | rfl
    · exact .some hzero.alike
    · exact .none
  have hfaulty : ∀ i, faulty.Addresses i → i < s.size := by
    intro i hi
    have hmem : i ∈ [0] := Text.addresses_iff.mp hi
    simp only [List.mem_cons, List.not_mem_nil, or_false] at hmem
    subst hmem
    decide
  have hpacked : List.Forall₂ Argument.Repacked s.arguments
      [.boxed (.reference (.value zero)), .reference (.text "é".toList)] :=
    .cons hzero (.cons (.reference _) .nil)
  exact ⟨rfl, rfl, htemplate, (format_sees_addressed_arguments_only rfl template).1 t rfl htemplate,
    by decide +kernel, hfaulty, (format_sees_addressed_arguments_only rfl faulty).2.1 _ hfaulty,
    hpacked, (format_sees_addressed_arguments_only rfl faulty).2.2 _ hpacked⟩

end

end TextTemplate
