import TextTemplate.Proofs.Literal
import TextTemplate.Proofs.Overflow
import TextTemplate.Rendering.Numbers
import TextTemplate.Text.Blank
import TextTemplate.Value.Stepwise

/-! The kind of a word is told by its form: truth values by their two words, integers by the grammar
of whole numbers and their range, floating-point numbers by the grammar of literals. Every other
word is a text. -/
namespace TextTemplate.Value

open Rendering

/-- The value that a word has by its form. Integers are the whole numbers in the range of 64
bits; every other literal is the double nearest to it; what has none of the forms is a text as it
stands. -/
inductive Infers : Text → Value → Prop
  | bool (b : Bool) : Infers (boolWord b) (.bool b)
  | integer {word : Text} {n : Integer .signed64} (h : IsWhole word n.value) :
      Infers word (.integer n)
  | float {word : Text} {negative : Bool} {q : ℚ} {x : Double}
      (hwhole : ∀ n : Integer .signed64, ¬IsWhole word n.value) (h : IsLiteral word negative q)
      (hx : x.IsNearest negative q) : Infers word (.float x)
  | text {word : Text} (hbool : ∀ b, word ≠ boolWord b)
      (hwhole : ∀ n : Integer .signed64, ¬IsWhole word n.value)
      (h : ∀ negative q, ¬IsLiteral word negative q) : Infers word (.text word)

variable {word : Text} {v : Value} {n : Integer .signed64} {c : Char}

theorem integerOfWord?_eq_some_iff : integerOfWord? word = some n ↔ IsWhole word n.value := by
  rw [← SignedNumeral.map_value_ofText?_eq_some_iff, integerOfWord?, Option.bind_eq_some_iff,
    Option.map_eq_some_iff]
  refine exists_congr fun k => and_congr_right fun _ => ?_
  rw [Integer.ofInt?_eq_some_iff, eq_comm]

theorem integerOfWord?_eq_none (h : ∀ n : Integer .signed64, ¬IsWhole word n.value) :
    integerOfWord? word = none :=
  Option.eq_none_iff_forall_ne_some.mpr fun n => mt integerOfWord?_eq_some_iff.mp (h n)

theorem ne_boolWord_of_mem {p : Char → Bool} (hc : c ∈ word) (hp : p c = true)
    (h : ∀ b, (boolWord b).any p = false) (b : Bool) : word ≠ boolWord b := by
  rintro rfl
  exact List.any_eq_false.mp (h b) c hc hp

theorem ne_boolWord_of_isLiteral {negative : Bool} {q : ℚ} (h : IsLiteral word negative q) :
    ∀ b, word ≠ boolWord b := by
  obtain ⟨c, hc, hdigit⟩ := h.exists_isDigit
  refine ne_boolWord_of_mem hc hdigit fun b => ?_
  cases b <;> rfl

theorem infer_of_ne_boolWord (h : ∀ b, word ≠ boolWord b) :
    infer word =
      match integerOfWord? word, Decimal.ofText? word with
      | some n, _ => .integer n
      | none, some d => .float d.nearest
      | none, none => .text word := by
  have htrue : word ≠ "true".toList := h true
  have hfalse : word ≠ "false".toList := h false
  exact (if_neg htrue).trans (if_neg hfalse)

/-- Each form is recognized, the forms that are tried before it notwithstanding. -/
theorem infer_eq_of_infers (h : Infers word v) : infer word = v := by
  cases h with
  | bool b => cases b <;> rfl
  | integer hwhole =>
    obtain ⟨negative, q, hliteral⟩ := hwhole.isLiteral
    rw [infer_of_ne_boolWord (ne_boolWord_of_isLiteral hliteral),
      integerOfWord?_eq_some_iff.mpr hwhole]
  | float hwhole hliteral hx =>
    obtain ⟨d, hread, rfl, rfl⟩ := Decimal.exists_ofText?_iff.mpr hliteral
    rw [infer_of_ne_boolWord (ne_boolWord_of_isLiteral hliteral),
      integerOfWord?_eq_none hwhole, hread]
    exact congrArg float (Decimal.nearest_eq_iff.mpr hx)
  | text hbool hwhole hliteral =>
    have hnone : Decimal.ofText? word = none :=
      Option.eq_none_iff_forall_ne_some.mpr fun d hread =>
        hliteral _ _ (Decimal.exists_ofText?_iff.mp ⟨d, hread, rfl, rfl⟩)
    rw [infer_of_ne_boolWord hbool, integerOfWord?_eq_none hwhole, hnone]

theorem exists_infers (word : Text) : ∃ v, Infers word v := by
  by_cases hbool : ∃ b, word = boolWord b
  · obtain ⟨b, rfl⟩ := hbool
    exact ⟨_, .bool b⟩
  · by_cases hwhole : ∃ n : Integer .signed64, IsWhole word n.value
    · obtain ⟨n, hn⟩ := hwhole
      exact ⟨_, .integer hn⟩
    · by_cases hliteral : ∃ negative q, IsLiteral word negative q
      · obtain ⟨negative, q, hliteral⟩ := hliteral
        obtain ⟨d, -, rfl, rfl⟩ := Decimal.exists_ofText?_iff.mpr hliteral
        exact ⟨_, .float (not_exists.mp hwhole) hliteral (Decimal.nearest_eq_iff.mp rfl)⟩
      · exact ⟨_, .text (not_exists.mp hbool) (not_exists.mp hwhole)
          fun negative q h => hliteral ⟨negative, q, h⟩⟩

theorem infer_eq_text (hbool : ∀ b, word ≠ boolWord b)
    (h : ∀ negative q, ¬IsLiteral word negative q) : infer word = .text word := by
  refine infer_eq_of_infers (.text hbool (fun n hwhole => ?_) h)
  obtain ⟨negative, q, hliteral⟩ := hwhole.isLiteral
  exact h negative q hliteral

section Names

theorem toLower_of_isDigit (h : c.isDigit = true) : c.toLower = c := by
  refine dif_neg fun hupper => ?_
  have hlow : 'A'.toNat ≤ c.toNat := UInt32.le_iff_toNat_le.mp hupper.1
  have hhigh : c.toNat < '0'.toNat + 10 := (Numeral.isDigit_iff_toNat.mp h).2
  exact absurd (Nat.lt_of_le_of_lt hlow hhigh) (by decide)

/-- The names of the numbers that are not finite. -/
def specialNames : List Text := ["inf".toList, "infinity".toList, "nan".toList]

theorem isDigit_eq_false_of_mem_name {name : Text} (h : name.map Char.toLower ∈ specialNames)
    (hc : c ∈ name) : c.isDigit = false := by
  have hletters : specialNames.any (fun name => name.any Char.isDigit) = false := rfl
  rw [Bool.eq_false_iff]
  intro hdigit
  have hname := Bool.eq_false_iff.mpr (List.any_eq_false.mp hletters _ h)
  apply List.any_eq_false.mp hname _ (List.mem_map_of_mem hc)
  rw [toLower_of_isDigit hdigit, hdigit]

theorem mem_of_mem_sign_append {sign t : Text} (hsign : sign = [] ∨ sign = ['+'] ∨ sign = ['-'])
    (hc : c ∈ sign ++ t) (hdigit : c.isDigit = true) : c ∈ t := by
  refine (List.mem_append.mp hc).resolve_left fun hmem => ?_
  obtain rfl | rfl | rfl := hsign
  · cases hmem
  · obtain rfl := List.mem_singleton.mp hmem
    cases hdigit
  · obtain rfl := List.mem_singleton.mp hmem
    cases hdigit

/-- The names of the numbers that are not finite are texts, in letters of either case and behind a
sign. -/
theorem infer_specialName {sign name : Text} (hsign : sign = [] ∨ sign = ['+'] ∨ sign = ['-'])
    (hname : name.map Char.toLower ∈ specialNames) :
    infer (sign ++ name) = .text (sign ++ name) := by
  apply infer_eq_text
  · intro b heq
    obtain rfl | rfl | rfl := hsign
    · rw [List.nil_append] at heq
      rw [heq] at hname
      cases b <;> revert hname <;> decide
    · cases b <;> cases heq
    · cases b <;> cases heq
  · intro negative q hliteral
    obtain ⟨c, hc, hdigit⟩ := hliteral.exists_isDigit
    rw [isDigit_eq_false_of_mem_name hname (mem_of_mem_sign_append hsign hc hdigit)] at hdigit
    cases hdigit

theorem ofName?_eq_none {negative : Bool} {name : Text} (hc : c ∈ name)
    (hdigit : c.isDigit = true) :
    (BinaryFloat.ofName? negative name : Option Double) = none := by
  have hname : name.map Char.toLower ∉ specialNames := by
    intro h
    rw [isDigit_eq_false_of_mem_name h hc] at hdigit
    cases hdigit
  simp only [specialNames, List.mem_cons, List.not_mem_nil, or_false, not_or] at hname
  obtain ⟨hinf, hinfinity, hnan⟩ := hname
  simp only [BinaryFloat.ofName?, hinf, hinfinity, hnan, or_self, if_false]

/-- A word with a digit is no name, so it is read as a literal or not at all. -/
theorem ofText?_of_mem (hc : c ∈ word) (hdigit : c.isDigit = true) :
    BinaryFloat.ofText? word = (Decimal.ofText? word).map Decimal.nearest := by
  obtain ⟨sign, hsign, htext, -⟩ := SignedNumeral.exists_sign_append_takeSign word
  rw [htext] at hc
  have hname := mem_of_mem_sign_append hsign hc hdigit
  simp only [BinaryFloat.ofText?, ofName?_eq_none hname hdigit, Option.none_or]

/-- The look for digits keeps the names from the reader of doubles, and no literal. -/
theorem stepwise_eq_infer (word : Text) : stepwise word = infer word := by
  by_cases hbool : ∃ b, word = boolWord b
  · obtain ⟨b, rfl⟩ := hbool
    cases b <;> rfl
  · have hbool := not_exists.mp hbool
    have htrue : word ≠ "true".toList := hbool true
    have hfalse : word ≠ "false".toList := hbool false
    rw [infer_of_ne_boolWord hbool, stepwise, if_neg htrue, if_neg hfalse]
    cases integerOfWord? word with
    | some n => rfl
    | none =>
      by_cases hdigits : word.any Char.isDigit = true
      · obtain ⟨c, hc, hdigit⟩ := List.any_eq_true.mp hdigits
        simp only [if_pos hdigits, ofText?_of_mem hc hdigit]
        cases Decimal.ofText? word <;> rfl
      · have hnone : Decimal.ofText? word = none := by
          rw [Option.eq_none_iff_forall_ne_some]
          intro d hread
          have hliteral := Decimal.exists_ofText?_iff.mp ⟨d, hread, rfl, rfl⟩
          exact hdigits (List.any_eq_true.mpr hliteral.exists_isDigit)
        simp only [if_neg hdigits, hnone]

end Names

/-- Neither literals nor the words of truth values have blanks or underscores. -/
theorem infer_of_mem (hc : c ∈ word) (h : Text.isBlank c = true ∨ c = '_') :
    infer word = .text word := by
  have hforeign : (Text.isBlank c || decide (c = '_')) = true := by simpa using h
  apply infer_eq_text
  · refine ne_boolWord_of_mem hc (p := fun c => Text.isBlank c || decide (c = '_'))
      hforeign fun b => ?_
    cases b <;> rfl
  · intro negative q hliteral
    obtain hdigit | hmark := hliteral.isLiteralChar hc
    · obtain hblank | rfl := h
      · have hbounds := Numeral.isDigit_iff_toNat.mp hdigit
        simp [Text.isBlank, Text.blankRanges] at hblank hbounds
        omega
      · cases hdigit
    · have hmarks :
          ['+', '-', '.', 'e', 'E'].any (fun c => Text.isBlank c || decide (c = '_')) = false := rfl
      exact List.any_eq_false.mp hmarks c hmark hforeign

/-- Every word has the value of its form and no other, whether it is found in single steps or by its
form. The names of the numbers that are not finite have none of the forms, and neither have words
with a blank or an underscore. -/
theorem infer_eq_iff_infers :
    (∀ word, stepwise word = infer word) ∧
    (∀ word v, infer word = v ↔ Infers word v) ∧
    (∀ sign name : Text, sign = [] ∨ sign = ['+'] ∨ sign = ['-'] →
      name.map Char.toLower ∈ specialNames →
      infer (sign ++ name) = .text (sign ++ name)) ∧
    ∀ word : Text, (∃ c ∈ word, Text.isBlank c = true ∨ c = '_') → infer word = .text word := by
  refine ⟨stepwise_eq_infer, ?_, fun _ _ => infer_specialName, ?_⟩
  · intro word v
    constructor
    · rintro rfl
      obtain ⟨v, hv⟩ := exists_infers word
      rw [infer_eq_of_infers hv]
      exact hv
    · exact infer_eq_of_infers
  · rintro word ⟨c, hc, h⟩
    exact infer_of_mem hc h

-- One more than the greatest integer is a literal, and its nearest double is a power of two.
example : infer "9223372036854775808".toList = .float (.ofBits .double 0x43E0000000000000) := by
  decide +kernel

end TextTemplate.Value
