import TextTemplate.ArgumentFile
import TextTemplate.Proofs.Addressing
import TextTemplate.Proofs.Toml.Document

/-! Argument files as they are written, and what is read from them: the template and the arguments
that they were written for. -/
namespace TextTemplate.ArgumentFile

open Toml

/-- What a writer of argument files may choose: the order of the lines, the number of spaces behind
a comma, the letters of hexadecimal digits, and whether the last line has a line feed at its end. -/
structure Layout where
  argumentsFirst : Bool
  gap : ℕ
  letters : Numeral.LetterCase
  lastEnds : Bool

def templateLine (l : Layout) (t : Text) : Assignment :=
  ⟨templateKey, quoted l.letters t, .string t⟩

def argumentsLine (l : Layout) (vs : List Value) : Assignment :=
  ⟨argumentsKey, arrayLiteral l.gap l.letters vs, .array (vs.map .ofScalar)⟩

/-- The lines of a file: one for its arguments, and one for its template if there is one. -/
def lines (l : Layout) (template : Option Text) (vs : List Value) : List Assignment :=
  match template with
  | none => [argumentsLine l vs]
  | some t =>
    if l.argumentsFirst then [argumentsLine l vs, templateLine l t]
    else [templateLine l t, argumentsLine l vs]

def print (l : Layout) (template : Option Text) (vs : List Value) : Text :=
  document l.lastEnds (lines l template vs)

variable {template : Option Text} {vs : List Value}

theorem readable_templateLine (l : Layout) (t : Text) : (templateLine l t).Readable := by
  refine ⟨List.cons_ne_nil _ _, List.all_eq_true.mp rfl, ?_⟩
  intro rest hrest
  exact readValue?_literal l.letters (.text t) hrest.endsValue

theorem readable_argumentsLine (l : Layout) (vs : List Value) : (argumentsLine l vs).Readable := by
  refine ⟨List.cons_ne_nil _ _, List.all_eq_true.mp rfl, ?_⟩
  intro rest hrest
  exact readValue?_arrayLiteral l.gap l.letters vs rest

theorem lines_cases (l : Layout) (template : Option Text) (vs : List Value) :
    template = none ∧ lines l template vs = [argumentsLine l vs] ∨
      ∃ t, template = some t ∧ (lines l template vs = [argumentsLine l vs, templateLine l t] ∨
        lines l template vs = [templateLine l t, argumentsLine l vs]) := by
  cases template with
  | none => exact .inl ⟨rfl, rfl⟩
  | some t =>
    refine .inr ⟨t, rfl, ?_⟩
    cases h : l.argumentsFirst <;> simp [lines, h]

theorem lines_ne_nil (l : Layout) (template : Option Text) (vs : List Value) :
    lines l template vs ≠ [] := by
  rcases lines_cases l template vs with ⟨rfl, h⟩ | ⟨t, rfl, h | h⟩ <;> simp [h]

theorem readable_of_mem_lines (l : Layout) (template : Option Text) (vs : List Value) :
    ∀ a ∈ lines l template vs, a.Readable := by
  rcases lines_cases l template vs with ⟨rfl, h⟩ | ⟨t, rfl, h | h⟩ <;>
    simp [h, readable_argumentsLine, readable_templateLine]

theorem nodup_keys_lines (l : Layout) (template : Option Text) (vs : List Value) :
    ((lines l template vs).map Assignment.key).Nodup := by
  have hne : templateKey ≠ argumentsKey := by decide
  rcases lines_cases l template vs with ⟨rfl, h⟩ | ⟨t, rfl, h | h⟩ <;>
    simp [h, templateLine, argumentsLine, hne, hne.symm]

theorem scalar_ofScalar (v : Value) : scalar (.ofScalar v) = .ok v := by
  cases v <;> rfl

theorem mapM_scalar (vs : List Value) : (vs.map Toml.Value.ofScalar).mapM scalar = .ok vs := by
  induction vs with
  | nil => rfl
  | cons v vs ih =>
    rw [List.map_cons, List.mapM_cons, scalar_ofScalar, ih]
    rfl

theorem ofTable_eq_ok {root : Entries}
    (hkeys : (root.all fun e => e.1 = templateKey || e.1 = argumentsKey) = true)
    (htemplate : templateOf root = .ok template) (harguments : argumentsOf root = .ok vs) :
    ofTable root = .ok ⟨template, vs⟩ := by
  rw [ofTable, if_pos hkeys, htemplate, harguments]
  rfl

/-- The order of the lines does not matter. -/
theorem ofTable_lines (l : Layout) (template : Option Text) (vs : List Value) :
    ofTable ((lines l template vs).map fun a => (a.key, a.value)) = .ok ⟨template, vs⟩ := by
  rcases lines_cases l template vs with ⟨rfl, h⟩ | ⟨t, rfl, h | h⟩ <;> rw [h] <;>
    exact ofTable_eq_ok rfl rfl (mapM_scalar vs)

theorem format_ofValues (vs : List Value) (t : Text) :
    format (.ofValues vs) t = format ⟨vs.map .ofValue⟩ t := by
  symm
  apply format_eq_of_forall₂_alike
  induction vs with
  | nil => exact .nil
  | cons v vs ih => exact .cons (Argument.Repacked.value v).alike ih

/-- What is written into an argument file is read from it again: the template, and the arguments in
their order, each of its kind. Infinities and what is not a number are written by their names, all
other numbers exactly. The template then gives the same with the arguments of the file as with the
ones that were written. -/
theorem ofText_print (l : Layout) (template : Option Text) (vs : List Value) :
    ofText (print l template vs) = .ok ⟨template, vs⟩ ∧
      ∀ t ∈ template, format (.ofValues vs) t = format ⟨vs.map .ofValue⟩ t := by
  constructor
  · have htable := Entries.ofDocument?_document l.lastEnds (lines_ne_nil l template vs)
      (readable_of_mem_lines l template vs) (nodup_keys_lines l template vs)
    rw [ofText, print, htable]
    exact ofTable_lines l template vs
  · intro t _
    exact format_ofValues vs t

example : print ⟨true, 1, .upper, true⟩ (some "\"\x1b\\é".toList)
    [.integer ⟨-5, by decide, by decide⟩, .float (.ofBits .double 0xBFB999999999999A),
      .float (.finite true (.zero _)), .text "5".toList, .bool true] =
    ("args = [-5, -0.1000000000000000055511151231257827021181583404541015625, " ++
      "-0.0, \"5\", true]\n" ++
      "template = \"\\\"\\u001B\\\\é\"\n").toList := by
  decide +kernel

end TextTemplate.ArgumentFile
