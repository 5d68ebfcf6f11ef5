import TextTemplate.Proofs.Toml.Word

/-! The words of integers: whatever the base, a word of their form is an integer or, where that does
not have 64 bits, no value at all. It is not taken for a date or for a number of another kind. -/
namespace TextTemplate.Toml

variable {p : Char → Bool} {c : Char} {n : ℤ} {negative : Bool} {digits t word : Text}

/-- The number of a word that has the form of an integer, however great it is. -/
def wholeNumber? (word : Text) : Option ℤ :=
  match basedNumber? word with
  | some n => some n
  | none =>
    let (negative, t) := SignedNumeral.takeSign word
    (wholeDigits? t).map fun digits => SignedNumeral.value ⟨negative, Numeral.ofDecimal digits⟩

/-- An integer is digits behind a mark of their base, or decimal digits behind an optional sign. -/
inductive WholeForm : Text → Prop
  | based {mark : Char} {base : ℕ} {t digits : Text} (hbase : baseOf? mark = some base)
      (hdigits : ungroup? (isDigitOf base) t = some digits) : WholeForm ('0' :: mark :: t)
  | decimal {word : Text} {negative : Bool} {t digits : Text}
      (hsign : SignedNumeral.takeSign word = (negative, t))
      (hdigits : ungroup? Char.isDigit t = some digits) : WholeForm word

theorem ungroup?_of_wholeDigits? (h : wholeDigits? t = some digits) :
    ungroup? Char.isDigit t = some digits := by
  unfold wholeDigits? at h
  split at h
  · cases h
  · exact h

theorem wholeForm_of_basedNumber? {n : ℕ} (h : basedNumber? word = some n) : WholeForm word := by
  unfold basedNumber? at h
  split at h
  · obtain ⟨base, hbase, hrest⟩ := Option.bind_eq_some_iff.mp h
    obtain ⟨digits, hdigits, -⟩ := Option.bind_eq_some_iff.mp hrest
    exact .based hbase hdigits
  · cases h

theorem wholeForm_of_wholeNumber? (h : wholeNumber? word = some n) : WholeForm word := by
  unfold wholeNumber? at h
  split at h
  · next hbased => exact wholeForm_of_basedNumber? hbased
  · obtain ⟨digits, hdigits, -⟩ := Option.map_eq_some_iff.mp h
    exact .decimal rfl (ungroup?_of_wholeDigits? hdigits)

theorem integerOfWord?_eq_bind (word : Text) :
    integerOfWord? word = (wholeNumber? word).bind (Integer.ofInt? .signed64) := by
  rw [integerOfWord?, wholeNumber?]
  cases basedNumber? word with
  | some n => rw [Option.bind_some]
  | none =>
    cases hdigits : wholeDigits? (SignedNumeral.takeSign word).2 with
    | none => simp only [hdigits, Option.map_none, Option.bind_none]
    | some digits => simp only [hdigits, Option.map_some, Option.bind_some]

section Kinds

theorem baseOf?_cases {mark : Char} {base : ℕ} (h : baseOf? mark = some base) :
    mark = 'x' ∨ mark = 'o' ∨ mark = 'b' := by
  unfold baseOf? at h
  split_ifs at h with hx ho hb
  · exact .inl hx
  · exact .inr (.inl ho)
  · exact .inr (.inr hb)

theorem notMem_of_ungroup? (h : ungroup? p t = some digits) (hc : p c = false)
    (hunderscore : c ≠ '_') : c ∉ t := by
  intro hmem
  rw [ungroup?_eq_none hmem hc hunderscore] at h
  cases h

/-- Only the first character can be a sign. -/
theorem mem_of_mem_drop_takeSign {k : ℕ} (hsign : SignedNumeral.takeSign word = (negative, t))
    (h : c ∈ word.drop (k + 1)) : c ∈ t := by
  unfold SignedNumeral.takeSign at hsign
  split at hsign
  · cases hsign
    exact List.mem_of_mem_drop h
  · cases hsign
    exact List.mem_of_mem_drop h
  · cases hsign
    exact List.mem_of_mem_drop h

theorem WholeForm.notMem_drop (h : WholeForm word) (hc : c ∈ ['-', ':']) (k : ℕ) :
    c ∉ word.drop (k + 1) := by
  have hc : c = '-' ∨ c = ':' := by simpa using hc
  have hdecimal : c.isDigit = false ∧ c ≠ '_' ∧ c ∉ ['0', 'x', 'o', 'b'] := by
    rcases hc with rfl | rfl <;> decide
  have hbased (base : ℕ) : isDigitOf base c = false := by
    rcases hc with rfl | rfl <;> rfl
  cases h with
  | @based mark base t _ hbase hdigits =>
    intro hmem
    rcases List.mem_cons.mp (List.mem_of_mem_drop hmem) with rfl | hmem
    · exact hdecimal.2.2 List.mem_cons_self
    rcases List.mem_cons.mp hmem with rfl | hmem
    · rcases baseOf?_cases hbase with rfl | rfl | rfl <;> simp at hdecimal
    · exact notMem_of_ungroup? hdigits (hbased base) hdecimal.2.1 hmem
  | decimal hsign hdigits =>
    exact fun hmem =>
      notMem_of_ungroup? hdigits hdecimal.1 hdecimal.2.1 (mem_of_mem_drop_takeSign hsign hmem)

theorem WholeForm.isDateTime_eq_false (h : WholeForm word) : isDateTime word = false :=
  Toml.isDateTime_eq_false (h.notMem_drop (by decide) 3) (h.notMem_drop (by decide) 1)

theorem WholeForm.specialOfWord?_eq_none (h : WholeForm word) : specialOfWord? word = none := by
  cases h with
  | based hbase hdigits => rfl
  | @decimal _ negative t digits hsign hdigits =>
    have hinf : t ≠ "inf".toList := by
      rintro rfl
      cases hdigits
    have hnan : t ≠ "nan".toList := by
      rintro rfl
      cases hdigits
    simp only [specialOfWord?, hsign, if_neg hinf, if_neg hnan]

/-- An integer has neither a fraction nor an exponent. -/
theorem WholeForm.decimalOfWord?_eq_none (h : WholeForm word) : decimalOfWord? word = none := by
  cases h with
  | @based mark base t digits hbase hdigits =>
    have hmark : exponentOf? (mark :: t) = none := by
      rcases baseOf?_cases hbase with rfl | rfl | rfl <;> rfl
    rcases baseOf?_cases hbase with rfl | rfl | rfl <;>
      simp [decimalOfWord?, SignedNumeral.takeSign, readFraction?, hmark]
  | @decimal _ negative t digits hsign hdigits =>
    have hall : (t.all fun c => c.isDigit || decide (c = '_')) = true := by
      rw [List.all_eq_true]
      intro c hc
      by_contra hnot
      simp only [Bool.or_eq_true, decide_eq_true_eq, not_or, Bool.not_eq_true] at hnot
      exact notMem_of_ungroup? hdigits hnot.1 hnot.2 hc
    simp [decimalOfWord?, hsign, hall]

theorem WholeForm.floatOfWord?_eq_none (h : WholeForm word) : floatOfWord? word = none := by
  rw [floatOfWord?, h.specialOfWord?_eq_none, h.decimalOfWord?_eq_none]
  rfl

end Kinds

/-- A word of the form of an integer is the integer, if that has 64 bits, and nothing else
otherwise. -/
theorem valueOfWord?_of_wholeNumber? (h : wholeNumber? word = some n) :
    valueOfWord? word = (Integer.ofInt? .signed64 n).map .integer := by
  have hform := wholeForm_of_wholeNumber? h
  have htrue : word ≠ "true".toList := by
    rintro rfl
    cases h
  have hfalse : word ≠ "false".toList := by
    rintro rfl
    cases h
  rw [valueOfWord?, if_neg htrue, if_neg hfalse, hform.isDateTime_eq_false,
    integerOfWord?_eq_bind, h, Option.bind_some, hform.floatOfWord?_eq_none]
  cases Integer.ofInt? .signed64 n <;> rfl

example : valueOfWord? "0xFFFF_FFFF_FFFF_FFFF".toList = none := by decide +kernel

end TextTemplate.Toml
