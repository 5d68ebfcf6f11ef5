import TextTemplate.CommandLine.Options

/-! What a command line can ask for. Its elements change the options by values, switches and words
only, so what these leave holds of every command line that is read; and every record of options that
can be asked for has a command line. -/
namespace TextTemplate.CommandLine

variable {P : Options → Prop} {o o' : Options} {option : ValueOption} {value : Option Text}
  {pending : Option ValueOption} {element name : Text} {elements : List Text} {progress : Progress}

/-- The options that are known at a point of a command line have a property. -/
def Progress.Satisfies (P : Options → Prop) : Progress → Prop
  | .options o _ | .onlyWords o => P o
  | .help => True

/-- A property that options keep when they are given values and switches. -/
structure Kept (P : Options → Prop) : Prop where
  set : ∀ {o o' option value}, P o → o.set? option value = some o' → P o'
  turnOn : ∀ {o o' switch}, P o → o.turnOn? switch = some o' → P o'

theorem Kept.ofOption? (hP : Kept P) (ho : P o)
    (h : Progress.ofOption? o option value = some progress) :
    progress.Satisfies P := by
  cases value with
  | none =>
    cases h
    exact ho
  | some value =>
    obtain ⟨o', hset, rfl⟩ := Option.map_eq_some_iff.mp h
    exact hP.set ho hset

theorem Kept.longEffect? (hP : Kept P) (ho : P o) (h : longEffect? o name value = some progress) :
    progress.Satisfies P := by
  unfold CommandLine.longEffect? at h
  split at h
  · exact hP.ofOption? ho h
  split at h
  · exact hP.ofOption? ho h
  split at h
  · cases h
  split at h
  · obtain ⟨o', hon, rfl⟩ := Option.map_eq_some_iff.mp h
    exact hP.turnOn ho hon
  split at h
  · obtain ⟨o', hon, rfl⟩ := Option.map_eq_some_iff.mp h
    exact hP.turnOn ho hon
  split at h
  · cases h
    trivial
  · cases h

theorem Kept.clusterEffect? {letters : Text} (hP : Kept P) (ho : P o)
    (h : clusterEffect? o letters = some progress) : progress.Satisfies P := by
  fun_induction CommandLine.clusterEffect? o letters with
  | case1 o =>
    cases h
    exact ho
  | case2 o t | case3 o t => exact hP.ofOption? ho h
  | case4 o t ih | case5 o t ih =>
    obtain ⟨o', hon, h⟩ := Option.bind_eq_some_iff.mp h
    exact ih o' (hP.turnOn ho hon) h
  | case6 o t =>
    cases h
    trivial
  | case7 => cases h

/-- An element that is no word leaves what values and switches leave. -/
theorem Kept.effect? (hP : Kept P)
    (hword : Element.ofText element = .word → P (o.addWords [element]))
    (ho : P o) (h : effect? o pending element = some progress) : progress.Satisfies P := by
  unfold CommandLine.effect? at h
  split at h
  · exact hP.ofOption? ho h
  · next hform =>
    cases h
    exact hword hform
  · cases h
  · cases h
    exact ho
  · exact hP.longEffect? ho h
  · exact hP.clusterEffect? ho h

theorem Kept.readFrom? (hP : Kept P) (hwords : ∀ o words, P o → P (o.addWords words)) (ho : P o)
    (h : readFrom? o pending elements = some (.fill o')) : P o' := by
  induction elements generalizing o pending with
  | nil =>
    unfold CommandLine.readFrom? at h
    split at h
    · cases h
    · cases h
      exact ho
  | cons element elements ih =>
    unfold CommandLine.readFrom? at h
    split at h
    · cases h
    · next heffect => exact ih (hP.effect? (fun _ => hwords _ _ ho) ho heffect) h
    · next heffect =>
      cases h
      exact hwords _ _ (hP.effect? (fun _ => hwords _ _ ho) ho heffect)
    · cases h

end TextTemplate.CommandLine
