import TextTemplate.Argument
import TextTemplate.Proofs.CommandLine
import TextTemplate.Proofs.Inference

/-! Words that start with a minus sign: which of them a command line takes, and which of them are
numbers. It takes the numbers with a digit behind the minus sign and without a sign in the exponent,
and no others. -/
namespace TextTemplate

namespace SignedNumeral

variable {t : Text}

theorem takeSign_of_notMem (hplus : '+' ∉ t) (hminus : '-' ∉ t) : takeSign t = (false, t) := by
  exact takeSign_append (.inl rfl) (fun h => hplus (List.mem_of_mem_head? h))
    fun h => hminus (List.mem_of_mem_head? h)

theorem isSome_ofText?_iff_of_notMem (hplus : '+' ∉ t) (hminus : '-' ∉ t) :
    (ofText? t).isSome = true ↔ t ≠ [] ∧ ∀ c ∈ t, c.isDigit = true := by
  rw [isSome_ofText?_iff, takeSign_of_notMem hplus hminus]

end SignedNumeral

theorem sign_notMem_of_isDigit {t : Text} (h : ∀ c ∈ t, c.isDigit = true) : '+' ∉ t ∧ '-' ∉ t := by
  constructor
  · intro hmem
    cases h _ hmem
  · intro hmem
    cases h _ hmem

namespace Decimal

variable {t : Text}

theorem mem_readFraction_iff {c : Char} (hdigit : c.isDigit = false) (hpoint : c ≠ '.') :
    c ∈ (readFraction t).2 ↔ c ∈ t := by
  obtain ⟨h, -⟩ | ⟨fraction, rest, h, rfl, hfraction⟩ := readFraction_cases t
  · rw [h]
  · have hc : c ∉ fraction := by
      intro hmem
      have hc := hfraction c hmem
      rw [hdigit] at hc
      cases hc
    simp [h, hpoint, hc]

theorem head?_eq_point_of_readFraction (h : (readFraction t).1 ≠ []) : t.head? = some '.' := by
  obtain ⟨heq, -⟩ | ⟨fraction, rest, -, rfl, -⟩ := readFraction_cases t
  · rw [heq] at h
    exact absurd rfl h
  · rfl

/-- The exponent of a number on the command line: none, or a mark with digits behind it. -/
def IsUnsignedExponent : Text → Prop
  | [] => True
  | mark :: digits => (mark = 'e' ∨ mark = 'E') ∧ digits ≠ [] ∧ ∀ c ∈ digits, c.isDigit = true

theorem isUnsignedExponent_iff : IsUnsignedExponent t ↔
    (readExponent? t).isSome = true ∧ '+' ∉ t ∧ '-' ∉ t := by
  cases t with
  | nil => simp [IsUnsignedExponent, readExponent?]
  | cons mark digits =>
    simp only [IsUnsignedExponent, readExponent?]
    constructor
    · rintro ⟨hmark, hne, hdigits⟩
      obtain ⟨hplus, hminus⟩ := sign_notMem_of_isDigit hdigits
      rw [if_pos hmark, Option.isSome_map, SignedNumeral.isSome_ofText?_iff_of_notMem hplus hminus]
      refine ⟨⟨hne, hdigits⟩, ?_, ?_⟩ <;> obtain rfl | rfl := hmark <;> simp [hplus, hminus]
    · rintro ⟨hsome, hplus, hminus⟩
      split at hsome
      · next hmark =>
        rw [Option.isSome_map, SignedNumeral.isSome_ofText?_iff_of_notMem
          (fun h => hplus (List.mem_cons_of_mem _ h))
          fun h => hminus (List.mem_cons_of_mem _ h)] at hsome
        exact ⟨hmark, hsome⟩
      · cases hsome

end Decimal

namespace CommandLine

open Decimal

variable {t : Text}

theorem isUnsignedNumber_iff_parts : isUnsignedNumber t = true ↔
    t.takeWhile Char.isDigit ≠ [] ∧
      IsUnsignedExponent (readFraction (t.dropWhile Char.isDigit)).2 := by
  unfold isUnsignedNumber
  generalize readFraction (t.dropWhile Char.isDigit) = parts
  obtain ⟨fraction, rest⟩ := parts
  cases rest with
  | nil => simp [IsUnsignedExponent]
  | cons mark digits => simp [IsUnsignedExponent, and_assoc]

/-- A numeral on the command line is one that can be read behind a minus sign, that starts with no
point, and that has no further sign. -/
theorem isUnsignedNumber_iff : isUnsignedNumber t = true ↔
    (Decimal.ofText? ('-' :: t)).isSome = true ∧ t.head? ≠ some '.' ∧ '+' ∉ t ∧ '-' ∉ t := by
  have hsplit := List.takeWhile_append_dropWhile (p := Char.isDigit) (l := t)
  have hwhole : ∀ c ∈ t.takeWhile Char.isDigit, c.isDigit = true :=
    fun c hc => List.mem_takeWhile_imp hc
  have hof : (Decimal.ofText? ('-' :: t)).isSome = true ↔
      t.takeWhile Char.isDigit ++ (readFraction (t.dropWhile Char.isDigit)).1 ≠ [] ∧
        (readExponent? (readFraction (t.dropWhile Char.isDigit)).2).isSome = true := by
    unfold Decimal.ofText? SignedNumeral.takeSign
    simp only
    split <;> simp_all
  rw [isUnsignedNumber_iff_parts, isUnsignedExponent_iff, hof]
  generalize t.takeWhile Char.isDigit = whole at hsplit hwhole ⊢
  generalize t.dropWhile Char.isDigit = behind at hsplit ⊢
  subst hsplit
  obtain ⟨hplus, hminus⟩ := sign_notMem_of_isDigit hwhole
  rw [mem_readFraction_iff rfl (by decide), mem_readFraction_iff rfl (by decide), List.mem_append,
    List.mem_append, or_iff_right hplus, or_iff_right hminus]
  -- Without whole digits, digits can only follow a point that starts the numeral.
  cases whole with
  | nil =>
    constructor
    · rintro ⟨hne, -⟩
      exact absurd rfl hne
    · rintro ⟨⟨hne, -⟩, hpoint, -⟩
      exact absurd (head?_eq_point_of_readFraction hne) hpoint
  | cons c whole =>
    have hc : c ≠ '.' := by
      rintro rfl
      cases hwhole _ List.mem_cons_self
    simp [hc]

end CommandLine

namespace Value

def isNumber : Value → Bool
  | integer _ | float _ => true
  | bool _ | text _ => false

variable {word : Text}

theorem isSome_ofText?_of_integerOfWord? (h : (integerOfWord? word).isSome = true) :
    (Decimal.ofText? word).isSome = true := by
  obtain ⟨n, hn⟩ := Option.isSome_iff_exists.mp h
  obtain ⟨negative, q, hliteral⟩ := (integerOfWord?_eq_some_iff.mp hn).isLiteral
  obtain ⟨d, hread, -⟩ := Decimal.exists_ofText?_iff.mpr hliteral
  rw [hread]
  rfl

/-- A word with a minus sign is a number where a decimal literal can be read from it. -/
theorem isNumber_infer_minus {t : Text} :
    (infer ('-' :: t)).isNumber = (Decimal.ofText? ('-' :: t)).isSome := by
  have hinteger := @isSome_ofText?_of_integerOfWord? ('-' :: t)
  unfold infer
  rw [if_neg (by simp), if_neg (by simp)]
  cases hn : integerOfWord? ('-' :: t) with
  | some n =>
    rw [hn] at hinteger
    exact (hinteger rfl).symm
  | none => cases Decimal.ofText? ('-' :: t) <;> rfl

end Value

namespace CommandLine

variable {o o' : Options} {t template element : Text} {pending : Option ValueOption}
  {progress : Progress}

theorem ofText_minus_eq_word_iff (ht : t ≠ []) :
    Element.ofText ('-' :: t) = .word ↔ isUnsignedNumber t = true := by
  cases t with
  | nil => exact absurd rfl ht
  | cons c t =>
    by_cases hc : c = '-'
    · subst hc
      have hnumber : isUnsignedNumber ('-' :: t) = false := rfl
      rw [hnumber]
      cases t <;> simp [Element.ofText]
    · have hform : Element.ofText ('-' :: c :: t) =
          if isUnsignedNumber (c :: t) then .word else .cluster (c :: t) := by
        unfold Element.ofText
        split <;> simp_all
      rw [hform]
      split
      · next h => simp [h]
      · next h => simp [h]

theorem effect?_of_word (h : Element.ofText element = .word) :
    effect? o none element = some (.options (o.addWords [element]) none) := by
  unfold effect?
  rw [h]

theorem kept_words (words : List Text) : Kept fun o => o.words = words := by
  refine ⟨?_, ?_⟩
  · intro o o' option value ho h
    cases option <;> simp only [Options.set?] at h <;> split at h <;> cases h <;> exact ho
  · intro o o' switch ho h
    cases switch <;> simp only [Options.turnOn?] at h <;> split at h <;> cases h <;> exact ho

/-- The last element of a command line adds a word exactly if it has the form of one. -/
theorem exists_words_readFrom?_iff : (∃ o', readFrom? o none [element] = some (.fill o') ∧
    o'.words = o.words ++ [element]) ↔ Element.ofText element = .word := by
  constructor
  · rintro ⟨o', hread, hwords⟩
    by_contra hform
    cases heffect : effect? o none element with
    | none => simp [readFrom?, heffect] at hread
    | some progress =>
      -- What is no word leaves the words as they were, so the one more word came from nowhere.
      have hsame : progress.Satisfies fun o' => o'.words = o.words :=
        (kept_words o.words).effect? (fun hword => absurd hword hform) rfl heffect
      cases progress with
      | options known pending =>
        simp only [readFrom?, heffect] at hread
        split at hread
        · cases hread
        · cases hread
          rw [hsame] at hwords
          simp at hwords
      | onlyWords known =>
        simp only [readFrom?, heffect, Option.some.injEq, Request.fill.injEq] at hread
        subst hread
        have hsame : known.words = o.words := hsame
        simp [Options.addWords, hsame] at hwords
      | help => simp [readFrom?, heffect] at hread
  · intro hform
    refine ⟨o.addWords [element], ?_, rfl⟩
    rw [readFrom?, effect?_of_word hform]
    rfl

/-- A template behind its option is read whole, whatever follows it. -/
theorem read?_template (h : (read? ["-t".toList, template]).isSome = true) (rest : List Text) :
    read? ("-t".toList :: template :: rest) =
      readFrom? ⟨some template, none, false, false, []⟩ none rest := by
  have hoption (rest : List Text) : read? ("-t".toList :: template :: rest) =
      readFrom? .empty (some .template) (template :: rest) := rfl
  have hform : Element.ofText template = .word := by
    by_contra hne
    have hnone : effect? .empty (some .template) template = none := by
      unfold effect?
      split <;> simp_all
    rw [hoption, readFrom?, hnone] at h
    cases h
  have htaken : effect? .empty (some .template) template =
      some (.options ⟨some template, none, false, false, []⟩ none) := by
    unfold effect?
    rw [hform]
    rfl
  rw [hoption, readFrom?, htaken]

/-- Behind a template the command line takes a word with a minus sign exactly if the word is a
number, has no point behind the minus sign and no sign in its exponent; what follows is then read
on. -/
theorem takes_negative_word_iff (h : (read? ["-t".toList, template]).isSome = true) (ht : t ≠ []) :
    ((∃ o, read? ["-t".toList, template, '-' :: t] = some (.fill o) ∧ o.words = ['-' :: t]) ↔
      (Value.infer ('-' :: t)).isNumber = true ∧ t.head? ≠ some '.' ∧ '+' ∉ t ∧ '-' ∉ t) ∧
    ((Value.infer ('-' :: t)).isNumber = true → t.head? ≠ some '.' → '+' ∉ t → '-' ∉ t →
      ∀ rest, read? ("-t".toList :: template :: ('-' :: t) :: rest) =
        readFrom? ⟨some template, none, false, false, ['-' :: t]⟩ none rest) := by
  have hform : Element.ofText ('-' :: t) = .word ↔
      (Value.infer ('-' :: t)).isNumber = true ∧ t.head? ≠ some '.' ∧ '+' ∉ t ∧ '-' ∉ t := by
    rw [ofText_minus_eq_word_iff ht, isUnsignedNumber_iff, Value.isNumber_infer_minus]
  constructor
  · rw [read?_template h, ← hform]
    exact exists_words_readFrom?_iff
  · intro hnumber hpoint hplus hminus rest
    rw [read?_template h, readFrom?, effect?_of_word (hform.mpr ⟨hnumber, hpoint, hplus, hminus⟩)]
    rfl

theorem takes_negative_number_with_exponent :
    (read? ["-t".toList, "\x7b0\x7d".toList]).isSome = true ∧ "5.e007".toList ≠ [] ∧
      ∃ o, read? ["-t".toList, "\x7b0\x7d".toList, "-5.e007".toList] = some (.fill o) ∧
        o.words = ["-5.e007".toList] :=
  ⟨rfl, by decide,
    (takes_negative_word_iff (t := "5.e007".toList) rfl (by decide)).1.mpr (by decide +kernel)⟩

/-- A number whose exponent has a sign is refused, though numbers are written so. -/
theorem refuses_negative_number_with_signed_exponent :
    (Value.infer "-1e-05".toList).isNumber = true ∧
      Rendering.ofValue (Value.infer "-1e-05".toList) [] = .ofFields ["-1e-05".toList] ∧
      read? ["-t".toList, "\x7b0\x7d".toList, "-1e-05".toList] = none :=
  ⟨by decide +kernel, by decide +kernel, rfl⟩

end CommandLine

end TextTemplate
