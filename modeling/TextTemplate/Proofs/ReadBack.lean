import TextTemplate.Proofs.Inference
import TextTemplate.Proofs.Scientific

/-! Decimal numerals of integers as words: they are read back as the integers that they were written
for, and beyond the range of integer values as the same doubles that scientific notation starts
from. -/
namespace TextTemplate

open Numeral

variable {k k' : ℤ} {t : Text}

theorem IsWhole.unique (h : IsWhole t k) (h' : IsWhole t k') : k = k' := by
  rw [← SignedNumeral.map_value_ofText?_eq_some_iff] at h h'
  rw [h] at h'
  exact Option.some.inj h'

theorem isWhole_ofInt (k : ℤ) : IsWhole (ofInt k) k := by
  rw [← SignedNumeral.map_value_ofText?_eq_some_iff, SignedNumeral.ofText?_ofInt, Option.map_some,
    SignedNumeral.value_natAbs]

theorem Numeral.isPlain_decimal (n : ℕ) : IsPlain (decimal n) [] n := by
  have h := isPlain_units 0 n
  simpa [fractionDigits, dropTrailing] using h

/-- A decimal numeral is a literal as well, with the sign and the absolute value of its integer. -/
theorem isLiteral_ofInt (k : ℤ) : IsLiteral (ofInt k) (decide (k < 0)) k.natAbs := by
  obtain ⟨d, hread, hnegative, hvalue⟩ := Decimal.exists_ofText?_of_isPlain (decide (k < 0))
    (isPlain_decimal k.natAbs) Decimal.readExponent?_nil
  rw [pointed, if_pos rfl, List.append_nil, List.append_nil] at hread
  rw [zpow_zero, mul_one] at hvalue
  exact Decimal.exists_ofText?_iff.mp ⟨d, hread, hnegative, hvalue⟩

namespace Integer

variable {kind : IntegerKind}

theorem isNearest_toDouble (n : Integer kind) :
    n.toDouble.IsNearest (decide (n.value < 0)) n.value.natAbs := by
  rw [← Ratio.value_ofNat, ← BinaryFloat.nearest_eq_iff, toDouble]

theorem infer_decimal_of_mem (n : Integer kind) {m : Integer .signed64} (h : m.value = n.value) :
    Value.infer n.decimal = .integer m := by
  apply Value.infer_eq_of_infers
  apply Value.Infers.integer
  rw [h]
  exact isWhole_ofInt n.value

/-- Reading a decimal numeral and converting its integer round in the same way. -/
theorem infer_decimal_of_notMem (n : Integer kind)
    (h : ∀ m : Integer .signed64, m.value ≠ n.value) :
    Value.infer n.decimal = .float n.toDouble := by
  apply Value.infer_eq_of_infers
  refine .float (fun m hm => ?_) (isLiteral_ofInt n.value) n.isNearest_toDouble
  exact h m (hm.unique (isWhole_ofInt n.value))

end Integer

namespace Rendering

variable {kind : IntegerKind} {spec : Text}

/-- The specifications that mean something for integers. -/
def integerSpecs : List Text :=
  ["scientific".toList, "sci".toList, "e".toList, "E".toList, "x".toList, "X".toList,
    "b".toList, "o".toList]

theorem integerText_eq_decimal (n : Integer kind) (h : spec ∉ integerSpecs) :
    integerText n spec = n.decimal := by
  simp only [integerSpecs, List.mem_cons, List.not_mem_nil, or_false, not_or] at h
  obtain ⟨hscientific, hsci, he, hE, hx, hX, hb, ho⟩ := h
  simp only [integerText, scientificMark?, hscientific, hsci, he, hE, hx, hX, hb, ho,
    or_self, if_false]

/-- Under every other specification an integer is its one decimal numeral, which is read back: as
the integer itself in the range of 64 bits, and beyond it as the double from which scientific
notation is made, finite and nearest to the integer. -/
theorem rendering_integer_read_back (n : Integer kind) (hspec : spec ∉ integerSpecs) :
    ∃ digits, (∀ s, IsPlain s [] n.value.natAbs ↔ s = digits) ∧
      (Argument.integer n).rendering spec = ofFields [withSign (decide (n.value < 0)) digits] ∧
      (-9223372036854775808 ≤ n.value ∧ n.value < 9223372036854775808 → ∃ m : Integer .signed64,
        m.value = n.value ∧ Value.infer (withSign (decide (n.value < 0)) digits) = .integer m) ∧
      (¬(-9223372036854775808 ≤ n.value ∧ n.value < 9223372036854775808) →
        Value.infer (withSign (decide (n.value < 0)) digits) = .float n.toDouble) ∧
      (∃ m : Magnitude .double,
        n.toDouble = .finite (decide (n.value < 0)) m ∧ m.IsNearest n.value.natAbs) ∧
      ∀ spec mark, scientificMark? spec = some mark →
        (Argument.integer n).rendering spec = ofFields [n.toDouble.scientificText mark] := by
  refine ⟨decimal n.value.natAbs, ?_, ?_, ?_, ?_, n.exists_toDouble_eq,
    fun _ _ => ofInteger_of_scientificMark?⟩
  · intro s
    constructor
    · exact fun h => (h.unique (isPlain_decimal _)).1
    · rintro rfl
      exact isPlain_decimal _
  · rw [Argument.rendering, ofInteger, integerText_eq_decimal n hspec]
    rfl
  · rintro ⟨hlow, hbound⟩
    rw [← IntegerKind.low_signed64] at hlow
    rw [← IntegerKind.bound_signed64] at hbound
    exact ⟨⟨n.value, hlow, hbound⟩, rfl, n.infer_decimal_of_mem rfl⟩
  · intro houtside
    refine n.infer_decimal_of_notMem fun m hm => houtside ?_
    rw [← IntegerKind.low_signed64, ← IntegerKind.bound_signed64, ← hm]
    exact ⟨m.low_le, m.lt_bound⟩

/-- An unsigned integer halfway between two doubles, under a specification that means nothing for
integers. -/
theorem rendering_integer_read_back_halfway :
    let n : Integer ⟨false, .bits64⟩ := ⟨9223372036854776832, by decide, by decide⟩
    "ba".toList ∉ integerSpecs ∧
      (Argument.integer n).rendering "ba".toList = ofFields ["9223372036854776832".toList] ∧
      Value.infer "9223372036854776832".toList = .float n.toDouble := by
  intro n
  have hspec : "ba".toList ∉ integerSpecs := by decide
  obtain ⟨digits, -, hrendering, -, hbeyond, -⟩ := rendering_integer_read_back n hspec
  have htext : (Argument.integer n).rendering "ba".toList =
      ofFields ["9223372036854776832".toList] := by
    decide +kernel
  have hdigits : withSign (decide (n.value < 0)) digits = "9223372036854776832".toList := by
    rw [hrendering] at htext
    simpa only [ofFields, List.map_cons, List.map_nil, Rendering.mk.injEq, List.cons.injEq,
      Insertion.field.injEq, and_true] using htext
  rw [hdigits] at hbeyond
  exact ⟨hspec, htext, hbeyond (by decide)⟩

-- The tie goes to the even significand, both for the conversion and for the literal.
example :
    Integer.toDouble (k := ⟨false, .bits64⟩) ⟨9223372036854776832, by decide, by decide⟩ =
        .ofBits .double 0x43E0000000000000 ∧
      Value.infer "9223372036854776832".toList = .float (.ofBits .double 0x43E0000000000000) := by
  decide +kernel

end Rendering

end TextTemplate
