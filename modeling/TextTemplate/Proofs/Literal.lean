import TextTemplate.Proofs.Fraction
import TextTemplate.Proofs.Grammar

/-! The grammar of whole numbers and of decimal literals, with the numbers that they denote. Texts
are read as literals exactly where the grammar has them. -/
namespace TextTemplate

open Numeral

/-- At most one sign and any digits behind it denote a whole number. -/
inductive IsWhole : Text → ℤ → Prop
  | intro {sign digits : Text} (hsign : sign = [] ∨ sign = ['+'] ∨ sign = ['-']) (hne : digits ≠ [])
      (hdigits : ∀ c ∈ digits, c.isDigit = true) :
      IsWhole (sign ++ digits) (if sign = ['-'] then -(ofDecimal digits : ℤ) else ofDecimal digits)

/-- Digits, or digits with a point in front of them, among them or behind them, denote a rational
number. -/
inductive IsMantissa : Text → ℚ → Prop
  | whole {digits : Text} (hne : digits ≠ []) (hdigits : ∀ c ∈ digits, c.isDigit = true) :
      IsMantissa digits (ofDecimal digits)
  | pointed {whole fraction : Text} (hne : whole ++ fraction ≠ [])
      (hdigits : ∀ c ∈ whole ++ fraction, c.isDigit = true) :
      IsMantissa (whole ++ '.' :: fraction) (ofDecimal (whole ++ fraction) / 10 ^ fraction.length)

/-- The exponent is a whole number behind its mark; without one it is zero. -/
inductive IsExponentPart : Text → ℤ → Prop
  | absent : IsExponentPart [] 0
  | marked {mark : Char} {t : Text} {exponent : ℤ} (hmark : mark = 'e' ∨ mark = 'E')
      (h : IsWhole t exponent) : IsExponentPart (mark :: t) exponent

/-- At most one sign, a mantissa and an exponent are a literal. It denotes a number that is negative
behind a minus sign, also where it is zero, and its absolute value. -/
inductive IsLiteral : Text → Bool → ℚ → Prop
  | intro {sign mantissa exponentPart : Text} {q : ℚ} {exponent : ℤ}
      (hsign : sign = [] ∨ sign = ['+'] ∨ sign = ['-']) (hmantissa : IsMantissa mantissa q)
      (hexponent : IsExponentPart exponentPart exponent) :
      IsLiteral (sign ++ (mantissa ++ exponentPart)) (decide (sign = ['-'])) (q * 10 ^ exponent)

variable {t : Text} {c : Char} {k e : ℤ} {q : ℚ} {negative : Bool}

section Reading

namespace SignedNumeral

theorem isSome_ofText?_iff : (ofText? t).isSome = true ↔
    (takeSign t).2 ≠ [] ∧ ∀ c ∈ (takeSign t).2, c.isDigit = true := by
  constructor
  · intro h
    unfold ofText? readUnpadded? at h
    simp only at h
    split at h
    · next hread =>
      split at hread
      · cases hread
      · next hne =>
        simp only [Option.some.injEq, Prod.mk.injEq] at hread
        refine ⟨?_, List.dropWhile_eq_nil_iff.mp hread.2⟩
        intro hnil
        exact hne (by rw [hnil]; rfl)
    · cases h
  · rintro ⟨hne, hdigits⟩
    rw [ofText?_of_takeSign rfl hne hdigits]
    rfl

/-- Whole numbers are read exactly where the grammar has them. -/
theorem map_value_ofText?_eq_some_iff :
    (SignedNumeral.ofText? t).map value = some k ↔ IsWhole t k := by
  constructor
  · intro h
    obtain ⟨n, hread, rfl⟩ := Option.map_eq_some_iff.mp h
    obtain ⟨hne, hdigits⟩ := isSome_ofText?_iff.mp (Option.isSome_iff_exists.mpr ⟨n, hread⟩)
    obtain ⟨sign, hsign, htext, hnegative⟩ := exists_sign_append_takeSign t
    have hwhole := IsWhole.intro hsign hne hdigits
    have htake : takeSign t = (decide (sign = ['-']), (takeSign t).2) := Prod.ext hnegative rfl
    rw [ofText?_of_takeSign htake hne hdigits, Option.some.injEq] at hread
    rw [← htext] at hwhole
    rw [← hread]
    simpa only [value, decide_eq_true_eq] using hwhole
  · rintro ⟨hsign, hne, hdigits⟩
    have htake :=
      takeSign_append hsign (head?_ne_of_isDigit hdigits rfl) (head?_ne_of_isDigit hdigits rfl)
    rw [ofText?_of_takeSign htake hne hdigits]
    simp [value]

end SignedNumeral

namespace Decimal

theorem readExponent?_eq_some_iff : readExponent? t = some e ↔ IsExponentPart t e := by
  cases t with
  | nil =>
    constructor
    · rintro ⟨⟩
      exact .absent
    · rintro ⟨⟩
      rfl
  | cons mark t =>
    rw [readExponent?]
    split
    · next hmark =>
      rw [SignedNumeral.map_value_ofText?_eq_some_iff]
      constructor
      · intro h
        exact .marked hmark h
      · rintro (- | ⟨-, h⟩)
        exact h
    · next hmark =>
      constructor
      · rintro ⟨⟩
      · rintro (- | ⟨hmark', -⟩)
        exact absurd hmark' hmark

end Decimal

theorem IsMantissa.head?_append_ne {mantissa : Text} (h : IsMantissa mantissa q) (rest : Text)
    (hdigit : c.isDigit = false) (hpoint : c ≠ '.') : (mantissa ++ rest).head? ≠ some c := by
  cases h with
  | whole hne hdigits => exact SignedNumeral.head?_append_ne_of_isDigit hne hdigits hdigit
  | @pointed whole fraction _ hdigits =>
    cases whole with
    | nil => simpa using hpoint.symm
    | cons d ds =>
      have hd : d.isDigit = true := hdigits d (by simp)
      simpa using Text.ne_of_apply hd hdigit

namespace Decimal

/-- A mantissa is read as its digits, and the exponent behind it gives them their place. -/
theorem exists_ofText?_of_isMantissa {mantissa rest : Text} (hmantissa : IsMantissa mantissa q)
    (hsign : SignedNumeral.takeSign t = (negative, mantissa ++ rest))
    (hrest : readExponent? rest = some e) :
    ∃ d, ofText? t = some d ∧ d.negative = negative ∧ d.toRatio.value = q * 10 ^ e := by
  obtain ⟨hends, hpoint⟩ := stopsAt_of_readExponent? hrest
  cases hmantissa with
  | @whole digits hne hdigits =>
    have hread :=
      ofText?_of_parts hsign hdigits hends (readFraction_of_head?_ne hpoint) (by simpa) hrest
    refine ⟨_, hread, rfl, ?_⟩
    simp [value_toRatio]
  | @pointed whole fraction hne hdigits =>
    have hwhole : ∀ c ∈ whole, c.isDigit = true := fun c hc => hdigits c (List.mem_append_left _ hc)
    have hfraction :=
      readFraction_cons_append (fun c hc => hdigits c (List.mem_append_right _ hc)) hends
    rw [List.append_assoc, List.cons_append] at hsign
    have hread := ofText?_of_parts hsign hwhole (Text.stopsAt_cons rfl) hfraction hne hrest
    refine ⟨_, hread, rfl, ?_⟩
    rw [value_toRatio, zpow_sub₀ (by norm_num), zpow_natCast]
    ring

/-- What is read is the mantissa behind the sign, and what is left of the text is the exponent. -/
theorem exists_isMantissa_of_ofText? {d : Decimal} (h : ofText? t = some d) :
    ∃ mantissa rest q e, (SignedNumeral.takeSign t).2 = mantissa ++ rest ∧ IsMantissa mantissa q ∧
      readExponent? rest = some e := by
  simp only [ofText?] at h
  generalize (SignedNumeral.takeSign t).2 = unsigned at h ⊢
  have hsplit : unsigned = unsigned.takeWhile Char.isDigit ++ unsigned.dropWhile Char.isDigit :=
    List.takeWhile_append_dropWhile.symm
  have hwhole : ∀ c ∈ unsigned.takeWhile Char.isDigit, c.isDigit = true :=
    fun c => List.mem_takeWhile_imp
  generalize unsigned.takeWhile Char.isDigit = whole at h hsplit hwhole
  generalize unsigned.dropWhile Char.isDigit = behind at h hsplit
  obtain ⟨hread, -⟩ | ⟨fraction, rest, hread, rfl, hfraction⟩ := readFraction_cases behind
  · simp only [hread, List.append_nil] at h
    split at h
    · cases h
    · next hne =>
      obtain ⟨e, hexponent, -⟩ := Option.map_eq_some_iff.mp h
      exact ⟨_, _, _, e, hsplit, .whole hne hwhole, hexponent⟩
  · simp only [hread] at h
    split at h
    · cases h
    · next hne =>
      obtain ⟨e, hexponent, -⟩ := Option.map_eq_some_iff.mp h
      refine ⟨whole ++ '.' :: fraction, rest, _, e, ?_, .pointed hne ?_, hexponent⟩
      · rw [hsplit, List.append_assoc, List.cons_append]
      · intro c hc
        exact (List.mem_append.mp hc).elim (hwhole c) (hfraction c)

/-- Literals are read exactly where the grammar has them, as the numbers that they denote. -/
theorem exists_ofText?_iff :
    (∃ d, ofText? t = some d ∧ d.negative = negative ∧ d.toRatio.value = q) ↔
    IsLiteral t negative q := by
  constructor
  · rintro ⟨d, hread, rfl, rfl⟩
    obtain ⟨mantissa, rest, q, e, hunsigned, hmantissa, hexponent⟩ :=
      exists_isMantissa_of_ofText? hread
    obtain ⟨sign, hsign, htext, hnegative⟩ := SignedNumeral.exists_sign_append_takeSign t
    have hliteral := IsLiteral.intro hsign hmantissa (readExponent?_eq_some_iff.mp hexponent)
    rw [← hunsigned, ← htext, ← hnegative] at hliteral
    obtain ⟨d', hread', hnegative', hvalue'⟩ :=
      exists_ofText?_of_isMantissa hmantissa (Prod.ext rfl hunsigned) hexponent
    rw [hread, Option.some.injEq] at hread'
    subst hread'
    rw [hnegative', hvalue']
    exact hliteral
  · rintro @⟨sign, mantissa, exponentPart, q, exponent, hsign, hmantissa, hexponent⟩
    have htake := SignedNumeral.takeSign_append hsign
      (hmantissa.head?_append_ne exponentPart rfl (by decide))
      (hmantissa.head?_append_ne exponentPart rfl (by decide))
    exact exists_ofText?_of_isMantissa hmantissa htake (readExponent?_eq_some_iff.mpr hexponent)

end Decimal

end Reading

section Characters

def IsLiteralChar (c : Char) : Prop := c.isDigit = true ∨ c ∈ ['+', '-', '.', 'e', 'E']

theorem IsWhole.isLiteral (h : IsWhole t k) : ∃ negative q, IsLiteral t negative q := by
  obtain ⟨hsign, hne, hdigits⟩ := h
  have hliteral := IsLiteral.intro hsign (.whole hne hdigits) .absent
  rw [List.append_nil] at hliteral
  exact ⟨_, _, hliteral⟩

theorem IsMantissa.exists_isDigit (h : IsMantissa t q) : ∃ c ∈ t, c.isDigit = true := by
  cases h with
  | whole hne hdigits =>
    obtain ⟨c, hc⟩ := List.exists_mem_of_ne_nil _ hne
    exact ⟨c, hc, hdigits c hc⟩
  | pointed hne hdigits =>
    obtain ⟨c, hc⟩ := List.exists_mem_of_ne_nil _ hne
    refine ⟨c, ?_, hdigits c hc⟩
    exact List.mem_append.mpr ((List.mem_append.mp hc).imp_right (List.mem_cons_of_mem _))

theorem IsLiteral.exists_isDigit (h : IsLiteral t negative q) : ∃ c ∈ t, c.isDigit = true := by
  obtain ⟨-, hmantissa, -⟩ := h
  obtain ⟨c, hc, hdigit⟩ := hmantissa.exists_isDigit
  exact ⟨c, List.mem_append_right _ (List.mem_append_left _ hc), hdigit⟩

theorem isLiteralChar_of_mem_sign {sign : Text} (hsign : sign = [] ∨ sign = ['+'] ∨ sign = ['-'])
    (hc : c ∈ sign) : IsLiteralChar c := by
  obtain rfl | rfl | rfl := hsign
  · cases hc
  · obtain rfl := List.mem_singleton.mp hc
    exact .inr (by decide)
  · obtain rfl := List.mem_singleton.mp hc
    exact .inr (by decide)

theorem IsWhole.isLiteralChar (h : IsWhole t k) (hc : c ∈ t) : IsLiteralChar c := by
  obtain ⟨hsign, -, hdigits⟩ := h
  exact (List.mem_append.mp hc).elim (isLiteralChar_of_mem_sign hsign) fun hc => .inl (hdigits c hc)

theorem IsMantissa.isLiteralChar (h : IsMantissa t q) (hc : c ∈ t) : IsLiteralChar c := by
  cases h with
  | whole _ hdigits => exact .inl (hdigits c hc)
  | pointed _ hdigits =>
    obtain hc | hc := List.mem_append.mp hc
    · exact .inl (hdigits c (List.mem_append_left _ hc))
    · obtain rfl | hc := List.mem_cons.mp hc
      · exact .inr (by decide)
      · exact .inl (hdigits c (List.mem_append_right _ hc))

theorem IsExponentPart.isLiteralChar (h : IsExponentPart t e) (hc : c ∈ t) : IsLiteralChar c := by
  cases h with
  | absent => cases hc
  | marked hmark hwhole =>
    obtain rfl | hc := List.mem_cons.mp hc
    · obtain rfl | rfl := hmark <;> exact .inr (by decide)
    · exact hwhole.isLiteralChar hc

theorem IsLiteral.isLiteralChar (h : IsLiteral t negative q) (hc : c ∈ t) : IsLiteralChar c := by
  obtain ⟨hsign, hmantissa, hexponent⟩ := h
  obtain hc | hc := List.mem_append.mp hc
  · exact isLiteralChar_of_mem_sign hsign hc
  · exact (List.mem_append.mp hc).elim hmantissa.isLiteralChar hexponent.isLiteralChar

end Characters

end TextTemplate
