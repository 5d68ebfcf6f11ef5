import TextTemplate.Precision.Stepwise
import TextTemplate.Proofs.Grammar

/-! The precision of a specification: what its field asks for by the number in front of it, and why
no step of the reading cuts a character or leaves the range of its integers. -/
namespace TextTemplate

section Bytes

variable {c : Char} {t : Text}

theorem utf8Size_of_isDigit (h : c.isDigit = true) : c.utf8Size = 1 := by
  have hbounds := Numeral.isDigit_iff_toNat.mp h
  have hzero : '0'.toNat = 48 := rfl
  obtain ⟨hsize, -⟩ | ⟨-, hlong⟩ := Text.utf8EncodeChar_cases c
  · exact hsize
  · omega

theorem byteLength_of_isDigit (h : ∀ c ∈ t, c.isDigit = true) : Text.byteLength t = t.length := by
  induction t with
  | nil => rfl
  | cons c t ih =>
    have hsize : c.utf8Size = 1 := utf8Size_of_isDigit (h c List.mem_cons_self)
    have hrest := ih fun d hd => h d (List.mem_cons_of_mem c hd)
    rw [Text.byteLength_cons, hsize, hrest, List.length_cons, Nat.add_comm]

/-- The byte that a text starts with tells every character of one byte from all others. -/
theorem head?_bytes_eq_iff {d : Char} (hd : d.toNat < 128) :
    (Text.bytes (c :: t)).head?.map UInt8.toNat = some d.toNat ↔ c = d := by
  rw [Text.bytes_cons]
  obtain ⟨-, ⟨b, hbytes, hb⟩, -⟩ | ⟨⟨b, rest, hbytes, hb⟩, hc⟩ := Text.utf8EncodeChar_cases c
  · simp only [hbytes, List.cons_append, List.head?_cons, Option.map_some, Option.some.injEq, hb]
    exact Char.toNat_inj
  · simp only [hbytes, List.cons_append, List.head?_cons, Option.map_some, Option.some.injEq]
    constructor
    · intro h
      omega
    · rintro rfl
      omega

end Bytes

namespace Precision

variable {spec t : Text} {negative : Bool}

section Steps

/-- Digits are counted alike in bytes and in characters: no byte of a longer character is one. -/
theorem length_takeWhile_isDigitByte (t : Text) :
    (t.bytes.takeWhile isDigitByte).length = (t.takeWhile Char.isDigit).length := by
  induction t with
  | nil => rfl
  | cons c t ih =>
    have hbyte {b : UInt8} :
        isDigitByte b = true ↔ '0'.toNat ≤ b.toNat ∧ b.toNat < '0'.toNat + 10 := by
      simp [isDigitByte]
    rw [Text.bytes_cons]
    obtain ⟨-, ⟨b, hbytes, hb⟩, -⟩ | ⟨⟨b, rest, hbytes, hb⟩, hc⟩ := Text.utf8EncodeChar_cases c
    · have hdigit : isDigitByte b = c.isDigit := by
        rw [Bool.eq_iff_iff, hbyte, Numeral.isDigit_iff_toNat, hb]
      rw [hbytes, List.singleton_append, List.takeWhile_cons, List.takeWhile_cons, hdigit]
      split
      · rw [List.length_cons, List.length_cons, ih]
      · rfl
    · have hzero : '0'.toNat = 48 := rfl
      have hfirst : isDigitByte b = false := by
        rw [Bool.eq_false_iff, Ne, hbyte]
        omega
      have hother : c.isDigit = false := by
        rw [Bool.eq_false_iff, Ne, Numeral.isDigit_iff_toNat]
        omega
      rw [hbytes, List.cons_append, List.takeWhile_cons, List.takeWhile_cons, hfirst, hother]
      rfl

theorem upToByte?_takeWhile (t : Text) :
    t.upToByte? (t.bytes.takeWhile isDigitByte).length = some (t.takeWhile Char.isDigit) := by
  have hlength :=
    byteLength_of_isDigit (t := t.takeWhile Char.isDigit) fun c => List.mem_takeWhile_imp
  have hcut := Text.upToByte?_append (s := t.takeWhile Char.isDigit) (t := t.dropWhile Char.isDigit)
  rw [List.takeWhile_append_dropWhile, hlength] at hcut
  rw [length_takeWhile_isDigitByte, hcut]

theorem stepwiseField?_eq_some (spec : Text) : stepwiseField? spec = some (field spec) := by
  rw [stepwiseField?, Text.upToLast?_eq_some]
  cases spec with
  | nil => rfl
  | cons c t =>
    by_cases hsize : c.utf8Size = 1
    · rw [Text.fromByte?_cons hsize, Option.getD_some, field, if_pos hsize]
    · rw [Text.fromByte?_cons_of_ne hsize, Option.getD_none, field, if_neg hsize]
      rfl

theorem stepwiseSign?_eq_some (t : Text) : stepwiseSign? t = some (SignedNumeral.takeSign t) := by
  cases t with
  | nil => rfl
  | cons c t =>
    simp only [stepwiseSign?, head?_bytes_eq_iff (d := '-') (by decide),
      head?_bytes_eq_iff (d := '+') (by decide)]
    by_cases hminus : c = '-'
    · subst hminus
      rw [if_pos rfl, Text.fromByte?_cons rfl]
      rfl
    · by_cases hplus : c = '+'
      · subst hplus
        rw [if_neg hminus, if_pos rfl, Text.fromByte?_cons rfl]
        rfl
      · rw [if_neg hminus, if_neg hplus]
        unfold SignedNumeral.takeSign
        split <;> simp_all

end Steps

section Numbers

/-- What a number asks for: as many places as it says up to the limit, six where it is a negative
number of 32 bits, and nothing that could be had in every other case. -/
def asked (field : Text) (number : Int) : Except SpecError Nat :=
  if 0 ≤ number ∧ number ≤ 65536 then .ok number.toNat
  else if -2147483648 ≤ number ∧ number < 0 then .ok 6
  else .error (.outOfRange field)

/-- What a field asks for by the longest number in front of it. -/
inductive Asks (field : Text) : Except SpecError Nat → Prop
  | withoutNumber (h : ¬ ∃ n : WrittenNumber, n.text <+: field) :
      Asks field (.error (.notANumber field))
  | number {rest : Text} (n : WrittenNumber) (htext : field = n.text ++ rest)
      (hrest : Text.StopsAt Char.isDigit rest) : Asks field (asked field n.value)

theorem ofSpec_of_read? {k : SignedNumeral} {rest : Text}
    (h : SignedNumeral.read? (field spec) = some (k, rest)) :
    ofSpec spec = asked (field spec) k.value := by
  have habs : k.value.natAbs = k.magnitude := by
    unfold SignedNumeral.value
    split <;> omega
  have hlimit : (limit : Int) = 65536 := rfl
  simp only [ofSpec, h, hlimit]
  by_cases hplaces : 0 ≤ k.value ∧ k.value ≤ 65536
  · have hnat : k.value.toNat = k.magnitude := by omega
    rw [asked, if_pos hplaces, if_pos hplaces, hnat]
  · rw [asked, if_neg hplaces, if_neg hplaces]
    by_cases hnarrow : -2147483648 ≤ k.value ∧ k.value < 0
    · rw [if_pos hnarrow, if_pos (by omega)]
      rfl
    · rw [if_neg hnarrow, if_neg (by omega)]

theorem ofSpec_eq_iff {result : Except SpecError Nat} :
    ofSpec spec = result ↔ Asks (field spec) result := by
  constructor
  · rintro rfl
    cases h : SignedNumeral.read? (field spec) with
    | none =>
      have hnone : ofSpec spec = .error (.notANumber (field spec)) := by rw [ofSpec, h]
      rw [hnone]
      exact .withoutNumber (SignedNumeral.read?_eq_none_iff.mp h)
    | some found =>
      obtain ⟨k, rest⟩ := found
      obtain ⟨n, htext, rfl, hrest⟩ := SignedNumeral.exists_text_append_of_read? h
      rw [ofSpec_of_read? h]
      exact .number n htext hrest
  · intro h
    cases h with
    | withoutNumber h =>
      rw [ofSpec, SignedNumeral.read?_eq_none_iff.mpr h]
    | number n htext hrest =>
      have hsome := SignedNumeral.read?_text_append n hrest
      rw [← htext] at hsome
      exact ofSpec_of_read? hsome

/-- The negative of a number that is not itself negative is in range. -/
theorem stepwiseNumber?_eq_some (negative : Bool) {magnitude : Integer .signed64}
    (h : 0 ≤ magnitude.value) :
    ∃ number, stepwiseNumber? negative magnitude = some number ∧
      number.value = SignedNumeral.value ⟨negative, magnitude.value.toNat⟩ := by
  have hlow := IntegerKind.low_signed64
  have hrange := magnitude.lt_bound
  have hbound := IntegerKind.bound_signed64
  have htoNat := Int.toNat_of_nonneg h
  cases negative with
  | true =>
    refine ⟨⟨-magnitude.value, by omega, by omega⟩, dif_pos ⟨by omega, by omega⟩, ?_⟩
    rw [SignedNumeral.value, if_pos rfl, htoNat]
  | false => exact ⟨magnitude, rfl, htoNat.symm⟩

theorem narrowed_eq_asked (field : Text) (number : Integer .signed64) :
    narrowed field number = asked field number.value := by
  have hlow := IntegerKind.low_signed32
  have hbound := IntegerKind.bound_signed32
  by_cases hwide : number.value < -2147483648 ∨ 2147483647 < number.value
  · have hnone : Integer.ofInt? .signed32 number.value = none := dif_neg (by omega)
    rw [narrowed, hnone, asked, if_neg (by omega), if_neg (by omega)]
  · have hsome : Integer.ofInt? .signed32 number.value = some ⟨number.value, by omega, by omega⟩ :=
      dif_pos ⟨by omega, by omega⟩
    have hword : IntegerKind.low ⟨false, .word⟩ = 0 := by decide
    have hwordBound : IntegerKind.bound ⟨false, .word⟩ = 18446744073709551616 := by decide
    by_cases hsign : number.value < 0
    · have hnone : Integer.ofInt? ⟨false, .word⟩ number.value = none := dif_neg (by omega)
      simp only [narrowed, hsome, hnone]
      rw [asked, if_neg (by omega), if_pos (by omega)]
      rfl
    · have hplaces : Integer.ofInt? ⟨false, .word⟩ number.value =
          some ⟨number.value, by omega, by omega⟩ :=
        dif_pos ⟨by omega, by omega⟩
      have hlimit : (limit : Int) = 65536 := rfl
      simp only [narrowed, hsome, hplaces, hlimit]
      by_cases hmany : 65536 < number.value
      · rw [if_pos hmany, asked, if_neg (by omega), if_neg (by omega)]
      · rw [if_neg hmany, asked, if_pos (by omega)]

theorem stepwiseDigits?_eq_some (field : Text) (negative : Bool) (unsigned : Text) :
    stepwiseDigits? field negative unsigned =
      some (if unsigned.takeWhile Char.isDigit = [] then .error (.notANumber field)
        else asked field
          (SignedNumeral.value
            ⟨negative, Numeral.ofDecimal (unsigned.takeWhile Char.isDigit)⟩)) := by
  have hlow := IntegerKind.low_signed64
  have hbound := IntegerKind.bound_signed64
  have hcount : (unsigned.bytes.takeWhile isDigitByte).length = 0 ↔
      unsigned.takeWhile Char.isDigit = [] := by
    rw [length_takeWhile_isDigitByte, List.length_eq_zero_iff]
  unfold stepwiseDigits?
  simp only [hcount, upToByte?_takeWhile]
  by_cases hnil : unsigned.takeWhile Char.isDigit = []
  · rw [if_pos hnil, if_pos hnil]
  · rw [if_neg hnil, if_neg hnil, Option.bind_some]
    generalize Numeral.ofDecimal (unsigned.takeWhile Char.isDigit) = magnitude
    by_cases hfits : (magnitude : Int) < 9223372036854775808
    · have hsome : Integer.ofInt? .signed64 magnitude = some ⟨magnitude, by omega, by omega⟩ :=
        dif_pos ⟨by omega, by omega⟩
      have hnonneg : 0 ≤ (⟨magnitude, by omega, by omega⟩ : Integer .signed64).value :=
        Int.natCast_nonneg magnitude
      obtain ⟨number, hnumber, hvalue⟩ := stepwiseNumber?_eq_some negative hnonneg
      simp only [hsome, hnumber, Option.map_some, narrowed_eq_asked, hvalue, Int.toNat_natCast]
    · have hnone : Integer.ofInt? .signed64 magnitude = none := dif_neg (by omega)
      have hfar : SignedNumeral.value ⟨negative, magnitude⟩ < -2147483648 ∨
          65536 < SignedNumeral.value ⟨negative, magnitude⟩ := by
        cases negative <;> simp only [SignedNumeral.value] <;> omega
      rw [hnone, asked, if_neg (by omega), if_neg (by omega)]

theorem ofSpec_eq_ite (spec : Text) :
    ofSpec spec =
      (let (negative, unsigned) := SignedNumeral.takeSign ((field spec).dropWhile Text.isAsciiBlank)
      if unsigned.takeWhile Char.isDigit = [] then .error (.notANumber (field spec))
      else asked (field spec)
        (SignedNumeral.value ⟨negative, Numeral.ofDecimal (unsigned.takeWhile Char.isDigit)⟩)) := by
  have hread : SignedNumeral.read? (field spec) =
      SignedNumeral.readUnpadded? ((field spec).dropWhile Text.isAsciiBlank) := rfl
  unfold SignedNumeral.readUnpadded? at hread
  generalize SignedNumeral.takeSign ((field spec).dropWhile Text.isAsciiBlank) = signed at hread ⊢
  obtain ⟨negative, unsigned⟩ := signed
  simp only at hread ⊢
  split
  · next hnil =>
    rw [if_pos hnil] at hread
    rw [ofSpec, hread]
  · next hne =>
    rw [if_neg hne] at hread
    exact ofSpec_of_read? hread

theorem stepwise?_eq_some (spec : Text) : stepwise? spec = some (ofSpec spec) := by
  rw [stepwise?, stepwiseField?_eq_some, ofSpec_eq_ite]
  simp only [bind, Option.bind_some, stepwiseSign?_eq_some]
  exact stepwiseDigits?_eq_some _ _ _

end Numbers

/-- The field of a specification lies between its first byte and its last character and is empty
where the first byte is only a part of a character; what it asks for is told by the number in front
of it. The steps that cut texts at byte positions and hold numbers in fixed widths have a result on
every specification. -/
theorem ofSpec_reads_field (spec : Text) :
    field spec = ((spec.splitAtByte? 1).map fun parts => parts.2.dropLast).getD [] ∧
    (∀ result, ofSpec spec = result ↔ Asks (field spec) result) ∧
    stepwise? spec = some (ofSpec spec) := by
  have hfield := stepwiseField?_eq_some spec
  rw [stepwiseField?, Text.upToLast?_eq_some, Option.some.injEq] at hfield
  refine ⟨?_, fun result => ofSpec_eq_iff, stepwise?_eq_some spec⟩
  rw [← hfield, Text.fromByte?]
  cases spec.splitAtByte? 1 <;> rfl

-- Behind a first character of two bytes no field is left, and a minus sign in front of zero asks
-- for zero places.
example : ofSpec "é3f".toList = .error (.notANumber []) ∧ ofSpec ".-0f".toList = .ok 0 := by decide

end Precision

end TextTemplate
