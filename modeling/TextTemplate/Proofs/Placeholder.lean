import TextTemplate.Template.Placeholder

/-! How placeholder bodies are read. -/
namespace TextTemplate

theorem SignedNumeral.read?_suffix {t rest : Text} {n : SignedNumeral}
    (h : read? t = some (n, rest)) : rest <:+ t := by
  have htake (t : Text) : (takeSign t).2 <:+ t := by
    unfold takeSign
    split
    · exact List.suffix_cons _ _
    · exact List.suffix_cons _ _
    · exact List.suffix_rfl
  unfold read? readUnpadded? at h
  simp only at h
  split at h
  · cases h
  · cases h
    exact ((List.dropWhile_suffix _).trans (htake _)).trans (List.dropWhile_suffix _)

namespace Placeholder

variable {p : Placeholder} {body t : Text}

theorem readAlignment_suffix : (readAlignment t).2 <:+ t := by
  unfold readAlignment
  split
  · split
    · next h => exact (SignedNumeral.read?_suffix h).trans (List.suffix_cons _ _)
    · exact List.suffix_cons _ _
  · exact List.suffix_rfl

theorem readSpec_suffix : readSpec t <:+ t := by
  unfold readSpec
  split
  · exact List.suffix_cons _ _
  · exact List.nil_suffix

theorem spec_suffix (h : ofBody? body = some p) : p.spec <:+ body := by
  obtain ⟨⟨n, rest⟩, hread, rfl⟩ := Option.map_eq_some_iff.mp h
  exact (readSpec_suffix.trans readAlignment_suffix).trans (SignedNumeral.read?_suffix hread)

end Placeholder

end TextTemplate
