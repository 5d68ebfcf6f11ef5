import TextTemplate.Argument

/-! Which renderings fail, and which are left to general notation. -/
namespace TextTemplate

namespace Rendering

variable {f : FloatFormat} {x : BinaryFloat f} {spec : Text} {cause : SpecError}

theorem scientificMark?_of_point (h : spec.head? = some '.') : scientificMark? spec = none := by
  obtain ⟨t, rfl⟩ := List.head?_eq_some_iff.mp h
  simp [scientificMark?]

/-- Every specification without a meaning asks for general notation, the empty one among them. -/
theorem ofFloat_of_default (hmark : scientificMark? spec = none)
    (hpoint : spec.head? ≠ some '.') : ofFloat x spec = ofFields [x.generalText] := by
  unfold ofFloat
  rw [hmark]
  split
  · next heq => cases heq
  · exact absurd rfl hpoint
  · rfl

/-- A floating-point number fails on nothing but an unreadable precision behind a point. -/
theorem failure_ofFloat_eq_some_iff : (ofFloat x spec).failure = some cause ↔
    spec.head? = some '.' ∧ Precision.ofSpec spec = .error cause := by
  constructor
  · intro h
    unfold ofFloat at h
    split at h
    · cases h
    · split at h
      · cases h
      · next hp =>
        cases h
        exact ⟨rfl, hp⟩
    · cases h
  · rintro ⟨hpoint, hp⟩
    have hmark := scientificMark?_of_point hpoint
    obtain ⟨t, rfl⟩ := List.head?_eq_some_iff.mp hpoint
    simp [ofFloat, hmark, hp, failing]

theorem failure_ofBool {b : Bool} : (ofBool b spec).failure = none := by
  unfold ofBool
  simp only
  split <;> rfl

end Rendering

namespace Argument

variable {a : Argument} {spec : Text} {cause : SpecError}

/-- Whether an argument is a floating-point number, however it is held. -/
def isFloat : Argument → Bool
  | float _ | value (.float _) => true
  | reference a | boxed a => a.isFloat
  | _ => false

/-- Of the built-in arguments, only floating-point numbers fail. -/
theorem failure_rendering_eq_some_iff (h : a.isBuiltIn = true) :
    (a.rendering spec).failure = some cause ↔
      a.isFloat = true ∧ spec.head? = some '.' ∧ Precision.ofSpec spec = .error cause := by
  induction a with
  | bool b => simp [rendering, Rendering.failure_ofBool, isFloat]
  | integer n => simp [rendering, Rendering.ofInteger, Rendering.ofFields, isFloat]
  | float x => simp [rendering, Rendering.failure_ofFloat_eq_some_iff, isFloat]
  | text t => simp [rendering, Rendering.ofFields, isFloat]
  | reference a ih => exact ih h
  | boxed a ih => exact ih h
  | display item => simp [rendering, Rendering.ofFields, isFloat]
  | value v =>
    cases v with
    | bool b => simp [rendering, Rendering.ofValue, Rendering.failure_ofBool, isFloat]
    | integer n =>
      simp [rendering, Rendering.ofValue, Rendering.ofInteger, Rendering.ofFields, isFloat]
    | float x => simp [rendering, Rendering.ofValue, Rendering.failure_ofFloat_eq_some_iff, isFloat]
    | text t => simp [rendering, Rendering.ofValue, Rendering.ofFields, isFloat]
  | custom rule => cases h

end Argument

end TextTemplate
