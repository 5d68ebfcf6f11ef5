import TextTemplate.Proofs.Fixed
import TextTemplate.Proofs.Scientific

/-! Floating-point numbers that are not finite. Every notation writes an infinity with the word that
the plain rendering gives it; what is not a number has another word in fixed notation than in all
others. -/
namespace TextTemplate

namespace BinaryFloat

variable {f : FloatFormat} {x : BinaryFloat f} {word : Text}

/-- The words of the numbers that are not finite. -/
inductive IsSpelled : BinaryFloat f → Text → Prop
  | nan : IsSpelled nan "nan".toList
  | infinity : IsSpelled (infinite false) "inf".toList
  | negativeInfinity : IsSpelled (infinite true) "-inf".toList

theorem IsSpelled.nonFiniteText?_eq (h : x.IsSpelled word) : x.nonFiniteText? = some word := by
  cases h <;> rfl

theorem IsSpelled.generalText_eq (h : x.IsSpelled word) : x.generalText = word := by
  simp only [generalText, h.nonFiniteText?_eq]

/-- No word has an `e` that a capital mark could replace. -/
theorem IsSpelled.scientificText_eq (h : x.IsSpelled word) (mark : Char) :
    x.scientificText mark = word := by
  have hexponent : x.signedExponentText = word := by
    simp only [signedExponentText, h.nonFiniteText?_eq]
  rw [scientificText, hexponent]
  cases h <;> rfl

/-- Fixed notation has a word of its own for what is not a number. -/
theorem IsSpelled.fixedText_eq_iff (h : x.IsSpelled word) (places : ℕ) :
    x.fixedText places = word ↔ x ≠ .nan := by
  cases h with
  | nan => simp [fixedText]
  | infinity | negativeInfinity =>
    refine iff_of_true rfl fun hnan => ?_
    cases hnan

end BinaryFloat

/-- An argument is a floating-point number, however it is held. -/
inductive Argument.IsFloat : {f : FloatFormat} → Argument → BinaryFloat f → Prop
  | float {f : FloatFormat} (x : BinaryFloat f) : IsFloat (.float x) x
  | value (x : Double) : IsFloat (.value (.float x)) x
  | reference {f : FloatFormat} {a : Argument} {x : BinaryFloat f} :
      IsFloat a x → IsFloat (.reference a) x
  | boxed {f : FloatFormat} {a : Argument} {x : BinaryFloat f} : IsFloat a x → IsFloat (.boxed a) x

theorem Argument.IsFloat.rendering_eq {f : FloatFormat} {a : Argument} {x : BinaryFloat f}
    (h : a.IsFloat x) (spec : Text) : a.rendering spec = .ofFloat x spec := by
  induction h with
  | float | value => rfl
  | reference _ ih | boxed _ ih => exact ih

namespace Rendering

variable {f : FloatFormat} {x : BinaryFloat f} {word spec : Text}

/-- Without a point in front, a specification leaves a number that is not finite its word. -/
theorem ofFloat_of_isSpelled (h : x.IsSpelled word) (hpoint : spec.head? ≠ some '.') :
    ofFloat x spec = ofFields [word] := by
  cases hmark : scientificMark? spec with
  | some mark => rw [ofFloat_of_scientificMark? hmark, h.scientificText_eq]
  | none => rw [ofFloat_of_default hmark hpoint, h.generalText_eq]

/-- Behind a point there is a precision, unless the rendering fails. -/
theorem exists_ofFloat_eq_fixedText (hpoint : spec.head? = some '.')
    (h : (ofFloat x spec).failure = none) :
    ∃ places, ofFloat x spec = ofFields [x.fixedText places] := by
  cases hplaces : Precision.ofSpec spec with
  | ok places => exact ⟨places, ofFloat_of_precision x hpoint hplaces⟩
  | error cause =>
    have hfailure : (ofFloat x spec).failure = some cause :=
      failure_ofFloat_eq_some_iff.mpr ⟨hpoint, hplaces⟩
    rw [h] at hfailure
    cases hfailure

/-- Where its rendering succeeds, a number that is not finite is written with the word of its plain
rendering, except that what is not a number is `NaN` under a specification with a point in front. -/
theorem nonFinite_rendering {a : Argument} (ha : a.IsFloat x) (hword : x.IsSpelled word)
    (h : (a.rendering spec).failure = none) :
    a.rendering [] = ofFields [word] ∧ ∃ t, a.rendering spec = ofFields [t] ∧
      (t = word ↔ ¬ (x = .nan ∧ spec.head? = some '.')) ∧
      (x = .nan → spec.head? = some '.' → t = "NaN".toList) := by
  rw [ha.rendering_eq] at h
  rw [ha.rendering_eq, ha.rendering_eq]
  refine ⟨ofFloat_of_isSpelled hword nofun, ?_⟩
  by_cases hpoint : spec.head? = some '.'
  · obtain ⟨places, hplaces⟩ := exists_ofFloat_eq_fixedText hpoint h
    refine ⟨_, hplaces, ?_, ?_⟩
    · rw [hword.fixedText_eq_iff]
      exact ⟨fun hne hnan => hne hnan.1, fun hnot hnan => hnot ⟨hnan, hpoint⟩⟩
    · rintro rfl -
      rfl
  · exact ⟨word, ofFloat_of_isSpelled hword hpoint, iff_of_true rfl fun hnan => hpoint hnan.2,
      fun _ hpoint' => absurd hpoint' hpoint⟩

/-- A negative infinity of 32 bits behind a reference keeps its word under a precision. -/
theorem nonFinite_rendering_negative_infinity :
    let a := Argument.reference (.boxed (.float (f := .single) (.infinite true)))
    a.IsFloat (.infinite true : BinaryFloat .single) ∧
      (.infinite true : BinaryFloat .single).IsSpelled "-inf".toList ∧
      (a.rendering ".3f".toList).failure = none ∧
      a.rendering [] = ofFields ["-inf".toList] ∧ ∃ t, a.rendering ".3f".toList = ofFields [t] ∧
        (t = "-inf".toList ↔
          ¬ ((.infinite true : BinaryFloat .single) = .nan ∧ ".3f".toList.head? = some '.')) ∧
        ((.infinite true : BinaryFloat .single) = .nan → ".3f".toList.head? = some '.' →
          t = "NaN".toList) := by
  intro a
  have ha : a.IsFloat (.infinite true : BinaryFloat .single) := .reference (.boxed (.float _))
  exact ⟨ha, .negativeInfinity, by decide, nonFinite_rendering ha .negativeInfinity (by decide)⟩

/-- What is not a number has one word under a precision and another one without. -/
theorem nan_rendering_differs_under_precision :
    let a := Argument.float (f := .double) .nan
    (a.rendering ".2f".toList).failure = none ∧ a.rendering ".2f".toList = ofFields ["NaN".toList] ∧
      a.rendering [] = ofFields ["nan".toList] ∧ a.rendering ".2f".toList ≠ a.rendering [] := by
  decide

end Rendering

end TextTemplate
