import TextTemplate.Proofs.Toml.Quoted
import TextTemplate.Proofs.Toml.Word
import TextTemplate.Value

/-! Values and arrays of values as they are written in TOML documents, and how they are read back:
each by its own form, so that no kind of value is taken for another. -/
namespace TextTemplate.Toml

variable {steps : ℕ} {c : Char} {vs : List TextTemplate.Value} {rest word : Text}

/-- A value as it is written in a document. -/
def literal (letters : Numeral.LetterCase) : TextTemplate.Value → Text
  | .bool b => Rendering.boolWord b
  | .integer n => n.decimal
  | .float x => floatWord x
  | .text t => quoted letters t

/-- What a document holds for a value. -/
def Value.ofScalar : TextTemplate.Value → Value
  | .bool b => .boolean b
  | .integer n => .integer n
  | .float x => .float x
  | .text t => .string t

/-- Values with a comma and a number of spaces between any two of them. -/
def literals (gap : ℕ) (letters : Numeral.LetterCase) (vs : List TextTemplate.Value) : Text :=
  (',' :: List.replicate gap ' ').intercalate (vs.map (literal letters))

def arrayLiteral (gap : ℕ) (letters : Numeral.LetterCase) (vs : List TextTemplate.Value) : Text :=
  '[' :: (literals gap letters vs ++ [']'])

/-- What may stand behind a value: nothing, a comma, a closing bracket or a line feed. -/
def EndsValue (rest : Text) : Prop := rest.head? ∈ [none, some ',', some ']', some '\n']

theorem EndsValue.head?_ne (h : EndsValue rest)
    (hc : some c ∉ [none, some ',', some ']', some '\n']) :
    rest.head? ≠ some c := by
  intro heq
  rw [EndsValue, heq] at h
  exact hc h

theorem EndsValue.stopsAt (h : EndsValue rest) : Text.StopsAt isWordChar rest := by
  intro c hc
  rw [EndsValue, hc] at h
  simp only [List.mem_cons, reduceCtorEq, Option.some.injEq, List.not_mem_nil, or_false,
    false_or] at h
  rcases h with rfl | rfl | rfl <;> rfl

section Scalars

/-- Every value but a text is written as a word. -/
theorem literal_cases (letters : Numeral.LetterCase) (v : TextTemplate.Value) :
    (∃ t, v = .text t) ∨
      (∀ c ∈ literal letters v, isWordChar c = true) ∧
        valueOfWord? (literal letters v) = some (.ofScalar v) := by
  cases v with
  | bool b => exact .inr ⟨isWordChar_of_mem_boolWord b, valueOfWord?_boolWord b⟩
  | integer n => exact .inr ⟨isWordChar_of_mem_decimal n, valueOfWord?_decimal n⟩
  | float x => exact .inr ⟨isWordChar_of_mem_floatWord x, valueOfWord?_floatWord x⟩
  | text t => exact .inl ⟨t, rfl⟩

theorem exists_eq_cons_of_valueOfWord? {tv : Value} (hword : ∀ c ∈ word, isWordChar c = true)
    (h : valueOfWord? word = some tv) : ∃ c t, word = c :: t ∧ isWordChar c = true := by
  cases word with
  | nil => cases h
  | cons c t => exact ⟨c, t, rfl, hword c List.mem_cons_self⟩

/-- A value starts with a character of a word or with a quote. -/
theorem exists_literal_eq_cons (letters : Numeral.LetterCase) (v : TextTemplate.Value) :
    ∃ c t, literal letters v = c :: t ∧ (isWordChar c = true ∨ c = '"') := by
  rcases literal_cases letters v with ⟨t, rfl⟩ | ⟨hword, hvalue⟩
  · exact ⟨'"', _, rfl, .inr rfl⟩
  · obtain ⟨c, t, heq, hc⟩ := exists_eq_cons_of_valueOfWord? hword hvalue
    exact ⟨c, t, heq, .inl hc⟩

theorem readValueWithin?_word {tv : Value} (hword : ∀ c ∈ word, isWordChar c = true)
    (hvalue : valueOfWord? word = some tv) (h : EndsValue rest) :
    readValueWithin? (steps + 1) (word ++ rest) = some (tv, rest) := by
  rw [← readWord?_append hword h.stopsAt (h.head?_ne (by decide)) hvalue]
  obtain ⟨c, t, rfl, hc⟩ := exists_eq_cons_of_valueOfWord? hword hvalue
  rw [List.cons_append]
  unfold readValueWithin?
  -- The first character opens no array, no inline table and no string.
  split <;> first | rfl | (next heq => cases heq; cases hc)

/-- A written value is read back as a value of its kind. -/
theorem readValueWithin?_literal (letters : Numeral.LetterCase) (v : TextTemplate.Value) (steps : ℕ)
    (h : EndsValue rest) :
    readValueWithin? (steps + 1) (literal letters v ++ rest) = some (.ofScalar v, rest) := by
  rcases literal_cases letters v with ⟨t, rfl⟩ | ⟨hword, hvalue⟩
  · have hread := readString?_quoted letters t (h.head?_ne (by decide))
    rw [quoted, List.cons_append] at hread
    simp only [literal, quoted, List.cons_append, readValueWithin?, hread]
    rfl
  · exact readValueWithin?_word hword hvalue h

end Scalars

section Arrays

theorem skipFiller_replicate (gap : ℕ) (t : Text) :
    skipFiller (List.replicate gap ' ' ++ t) = skipFiller t := by
  induction gap with
  | zero => rfl
  | succ gap ih =>
    rw [List.replicate_succ, List.cons_append, ← ih]
    rfl

theorem skipFiller_literal_append (letters : Numeral.LetterCase) (v : TextTemplate.Value)
    (t : Text) :
    skipFiller (literal letters v ++ t) = literal letters v ++ t := by
  obtain ⟨c, u, heq, hc⟩ := exists_literal_eq_cons letters v
  have hne {d : Char} (hword : isWordChar d = false) (hquote : d ≠ '"') : c ≠ d := by
    rintro rfl
    rcases hc with hc | hc
    · rw [hword] at hc
      cases hc
    · exact hquote hc
  have hnewline : c ≠ '\n' := hne rfl (by decide)
  have hreturn : c ≠ '\r' := hne rfl (by decide)
  have hspace : c ≠ ' ' := hne rfl (by decide)
  have htab : c ≠ '\t' := hne rfl (by decide)
  have hcomment : c ≠ '#' := hne rfl (by decide)
  simp [heq, skipFiller, skipFillerFrom, isSpace, hnewline, hreturn, hspace, htab, hcomment]

/-- One item of an array is read, and what stands behind it decides how the array goes on. -/
theorem readItemsWithin?_literal_append (letters : Numeral.LetterCase)
    (v : TextTemplate.Value) (steps : ℕ) (h : EndsValue rest) :
    readItemsWithin? (steps + 2) (literal letters v ++ rest) =
      match skipFiller rest with
      | ',' :: rest => do
        let (items, rest) ← readItemsWithin? (steps + 1) (skipFiller rest)
        return (.ofScalar v :: items, rest)
      | ']' :: rest => some ([.ofScalar v], rest)
      | _ => none := by
  have hitem := readValueWithin?_literal letters v steps h
  obtain ⟨c, t, heq, hc⟩ := exists_literal_eq_cons letters v
  rw [heq, List.cons_append] at hitem ⊢
  rw [readItemsWithin?]
  · rw [hitem]
    rfl
  · rintro u hu
    cases hu
    rcases hc with hc | hc <;> cases hc

theorem literals_singleton (gap : ℕ) (letters : Numeral.LetterCase) (v : TextTemplate.Value) :
    literals gap letters [v] = literal letters v :=
  List.intercalate_singleton

theorem literals_cons_cons (gap : ℕ) (letters : Numeral.LetterCase) (v w : TextTemplate.Value) :
    literals gap letters (v :: w :: vs) =
      literal letters v ++ ',' :: (List.replicate gap ' ' ++ literals gap letters (w :: vs)) := by
  simp [literals, List.intercalate_cons_cons]

theorem skipFiller_literals_append (gap : ℕ) (letters : Numeral.LetterCase) (v : TextTemplate.Value)
    (vs : List TextTemplate.Value) (t : Text) :
    skipFiller (literals gap letters (v :: vs) ++ t) = literals gap letters (v :: vs) ++ t := by
  cases vs with
  | nil => rw [literals_singleton, skipFiller_literal_append]
  | cons w vs => rw [literals_cons_cons, List.append_assoc, skipFiller_literal_append]

/-- Written items are read back in their order, whatever stands behind the closing bracket. -/
theorem readItemsWithin?_literals (letters : Numeral.LetterCase) (gap : ℕ) (rest : Text)
    (h : vs.length < steps) :
    readItemsWithin? steps (literals gap letters vs ++ ']' :: rest) =
      some (vs.map .ofScalar, rest) := by
  -- Each item takes one step; its value has the steps that are left for the items behind it.
  induction vs generalizing steps with
  | nil =>
    obtain ⟨steps, rfl⟩ := Nat.exists_eq_add_of_lt h
    rfl
  | cons v vs ih =>
    obtain ⟨steps, rfl⟩ : ∃ k, steps = k + 2 := ⟨steps - 2, by simp at h; omega⟩
    cases vs with
    | nil =>
      rw [literals_singleton]
      exact readItemsWithin?_literal_append letters v steps (by simp [EndsValue])
    | cons w vs =>
      have hrest : readItemsWithin? (steps + 1) (literals gap letters (w :: vs) ++ ']' :: rest) =
          some ((w :: vs).map .ofScalar, rest) := ih (by simp at h ⊢; omega)
      have hends (t : Text) : EndsValue (',' :: t) := by simp [EndsValue]
      have hcomma (t : Text) : skipFiller (',' :: t) = ',' :: t := rfl
      rw [literals_cons_cons, List.append_assoc, List.cons_append, List.append_assoc,
        readItemsWithin?_literal_append letters v steps (hends _), hcomma]
      simp only
      rw [skipFiller_replicate, skipFiller_literals_append, hrest]
      rfl

theorem length_le_length_literals (gap : ℕ) (letters : Numeral.LetterCase)
    (vs : List TextTemplate.Value) :
    vs.length ≤ (literals gap letters vs).length := by
  induction vs with
  | nil => exact Nat.le_refl 0
  | cons v vs ih =>
    obtain ⟨c, t, heq, -⟩ := exists_literal_eq_cons letters v
    cases vs with
    | nil => simp [literals_singleton, heq]
    | cons w vs =>
      simp only [literals_cons_cons, List.length_append, List.length_cons] at ih ⊢
      omega

end Arrays

section Values

theorem readValue?_literal (letters : Numeral.LetterCase) (v : TextTemplate.Value)
    (h : EndsValue rest) :
    readValue? (literal letters v ++ rest) = some (.ofScalar v, rest) :=
  readValueWithin?_literal letters v _ h

/-- A written array is read back: the same values in the same order. -/
theorem readValue?_arrayLiteral (gap : ℕ) (letters : Numeral.LetterCase)
    (vs : List TextTemplate.Value) (rest : Text) :
    readValue? (arrayLiteral gap letters vs ++ rest) = some (.array (vs.map .ofScalar), rest) := by
  have hlength := length_le_length_literals gap letters vs
  have htext : arrayLiteral gap letters vs ++ rest =
      '[' :: (literals gap letters vs ++ ']' :: rest) := by
    simp [arrayLiteral]
  have hfiller : skipFiller (literals gap letters vs ++ ']' :: rest) =
      literals gap letters vs ++ ']' :: rest := by
    cases vs with
    | nil => rfl
    | cons v vs => exact skipFiller_literals_append gap letters v vs _
  rw [htext, readValue?, readValueWithin?, hfiller, readItemsWithin?_literals letters gap rest]
  · rfl
  · simp only [List.length_cons, List.length_append]
    omega

end Values

end TextTemplate.Toml
