import TextTemplate.Decimal
import TextTemplate.Proofs.Radix
import TextTemplate.Proofs.Rounding
import Mathlib.Data.List.TakeWhile

/-! Decimal numerals with a fraction: the number that they denote, what is left without trailing
zeros, and what a reader of literals gets back. -/
namespace TextTemplate

namespace Numeral

variable {base n places units : ℕ} {c : Char} {ds es : List ℕ} {s t whole fraction : Text}

section Value

theorem foldl_positional (base total : ℕ) (ds : List ℕ) :
    ds.foldl (fun total d => total * base + d) total =
      total * base ^ ds.length + positionalValue base ds := by
  induction ds generalizing total with
  | nil => simp [positionalValue]
  | cons d ds ih =>
    rw [positionalValue, List.foldl_cons, List.foldl_cons, ih, ih (0 * base + d), List.length_cons,
      Nat.pow_succ]
    ring

theorem positionalValue_append : positionalValue base (ds ++ es) =
    positionalValue base ds * base ^ es.length + positionalValue base es := by
  rw [positionalValue, List.foldl_append]
  exact foldl_positional base _ es

theorem ofDecimal_append : ofDecimal (s ++ t) = ofDecimal s * 10 ^ t.length + ofDecimal t := by
  rw [ofDecimal, List.map_append, positionalValue_append, List.length_map]
  rfl

theorem ofDecimal_replicate_zero_append (count : ℕ) (t : Text) :
    ofDecimal (List.replicate count '0' ++ t) = ofDecimal t := by
  rw [ofDecimal, List.map_append, List.map_replicate]
  exact positionalValue_replicate_zero_append count _

theorem ofDecimal_replicate_zero (count : ℕ) : ofDecimal (List.replicate count '0') = 0 := by
  rw [← List.append_nil (List.replicate count '0'), ofDecimal_replicate_zero_append]
  rfl

theorem ofDecimal_zeroFilled (length : ℕ) (t : Text) :
    ofDecimal (zeroFilled length t) = ofDecimal t :=
  ofDecimal_replicate_zero_append _ t

theorem length_inBase_le (hb : 2 ≤ base) (letters : LetterCase) (hplaces : 0 < places)
    (h : n < base ^ places) : (inBase base letters n).length ≤ places := by
  rw [inBase, List.length_map, digits_eq hb]
  split
  · exact hplaces
  · next hn =>
    have hcount : (lowDigits base n).length = digitCount base n := rfl
    rw [List.length_reverse, hcount, digitCount_eq hb hn]
    exact Nat.log_lt_of_lt_pow hn h

theorem isDigit_of_mem_zeroFilled {length : ℕ} (ht : ∀ c ∈ t, c.isDigit = true)
    (h : c ∈ zeroFilled length t) : c.isDigit = true := by
  obtain h | h := List.mem_append.mp h
  · rw [(List.mem_replicate.mp h).2]
    rfl
  · exact ht c h

end Value

section Pointed

/-- Whole digits with a fraction behind a point; without a fraction there is no point. -/
def pointed (whole fraction : Text) : Text :=
  whole ++ if fraction = [] then [] else '.' :: fraction

/-- The digits behind the point of a number of units of the last of `places` places. -/
def fractionDigits (places units : ℕ) : Text :=
  if places = 0 then [] else zeroFilled places (decimal (units % 10 ^ places))

theorem length_fractionDigits (places units : ℕ) :
    (fractionDigits places units).length = places := by
  unfold fractionDigits
  split
  · next h => exact h.symm
  · next h =>
    have hpos : 0 < places := Nat.pos_of_ne_zero h
    exact length_zeroFilled places
      (length_inBase_le (by decide) .lower hpos (Nat.mod_lt _ (Nat.pow_pos (by decide))))

theorem isDigit_of_mem_fractionDigits (h : c ∈ fractionDigits places units) : c.isDigit = true := by
  unfold fractionDigits at h
  split at h
  · cases h
  · exact isDigit_of_mem_zeroFilled (fun _ => isDigit_of_mem_decimal) h

theorem withPlaces_eq_pointed (places units : ℕ) : withPlaces places units =
    pointed (decimal (units / 10 ^ places)) (fractionDigits places units) := by
  unfold withPlaces pointed fractionDigits
  by_cases h : places = 0
  · simp [h]
  · have hne : zeroFilled places (decimal (units % 10 ^ places)) ≠ [] := by
      simp [zeroFilled, decimal_ne_nil]
    simp [h, hne]

/-- The digits on both sides of the point are those of the units. -/
theorem ofDecimal_append_fractionDigits (places units : ℕ) :
    ofDecimal (decimal (units / 10 ^ places) ++ fractionDigits places units) = units := by
  rw [ofDecimal_append, ofDecimal_decimal, length_fractionDigits]
  unfold fractionDigits
  split
  · next h =>
    subst h
    simp [ofDecimal, positionalValue]
  · rw [ofDecimal_zeroFilled, ofDecimal_decimal, Nat.mul_comm, Nat.div_add_mod]

end Pointed

section Trimmed

theorem exists_eq_dropTrailing_append (c : Char) (t : Text) :
    ∃ count, t = dropTrailing c t ++ List.replicate count c := by
  obtain ⟨count, h⟩ : ∃ count, t.reverse.takeWhile (· = c) = List.replicate count c :=
    ⟨_, List.eq_replicate_of_mem fun d hd => by simpa using List.mem_takeWhile_imp hd⟩
  refine ⟨count, ?_⟩
  rw [dropTrailing, ← List.reverse_replicate, ← List.reverse_append, ← h,
    List.takeWhile_append_dropWhile, List.reverse_reverse]

theorem getLast?_dropTrailing_ne (c : Char) (t : Text) : (dropTrailing c t).getLast? ≠ some c := by
  rw [dropTrailing, List.getLast?_reverse]
  intro h
  have hhead := List.head?_dropWhile_not (· = c) t.reverse
  rw [h] at hhead
  simp at hhead

theorem dropTrailing_append (c : Char) (s t : Text) : dropTrailing c (s ++ t) =
    if dropTrailing c t = [] then dropTrailing c s else s ++ dropTrailing c t := by
  unfold dropTrailing
  rw [List.reverse_append, List.dropWhile_append]
  by_cases h : t.reverse.dropWhile (· = c) = []
  · simp [h]
  · simp [h]

theorem dropTrailing_eq_self (h : t.getLast? ≠ some c) : dropTrailing c t = t := by
  obtain ⟨count, heq⟩ := exists_eq_dropTrailing_append c t
  cases count with
  | zero => simpa using heq.symm
  | succ count =>
    rw [heq, List.replicate_succ', ← List.append_assoc, List.getLast?_append] at h
    simp at h

theorem withSign_append (negative : Bool) (s t : Text) :
    withSign negative (s ++ t) = withSign negative s ++ t := by
  cases negative <;> rfl

theorem getLast?_ne_of_isDigit (hne : t ≠ []) (ht : ∀ c ∈ t, c.isDigit = true)
    (hc : c.isDigit = false) : (s ++ t).getLast? ≠ some c := by
  rw [List.getLast?_append_of_ne_nil _ hne]
  intro h
  have hdigit := ht c (List.mem_of_getLast? h)
  rw [hc] at hdigit
  cases hdigit

theorem mem_of_mem_dropTrailing {d : Char} (h : d ∈ dropTrailing c t) : d ∈ t := by
  obtain ⟨count, heq⟩ := exists_eq_dropTrailing_append c t
  rw [heq]
  exact List.mem_append_left _ h

/-- Trimming takes the zeros from the end of a fraction, and the point if they were all of it. -/
theorem trimFraction_pointed (negative : Bool) (hne : whole ≠ [])
    (hwhole : ∀ c ∈ whole, c.isDigit = true) (hfraction : ∀ c ∈ fraction, c.isDigit = true) :
    trimFraction (withSign negative (pointed whole fraction)) =
      withSign negative (pointed whole (dropTrailing '0' fraction)) := by
  have hlast : (withSign negative whole).getLast? ≠ some '.' := by
    cases negative with
    | true => exact getLast?_ne_of_isDigit (s := ['-']) hne hwhole rfl
    | false => exact getLast?_ne_of_isDigit (s := []) hne hwhole rfl
  by_cases hnil : fraction = []
  · subst hnil
    have hpoint : '.' ∉ withSign negative whole := by
      intro hmem
      cases negative with
      | true =>
        obtain h | h := List.mem_cons.mp hmem
        · cases h
        · cases hwhole _ h
      | false => cases hwhole _ hmem
    have hdrop : dropTrailing '0' ([] : Text) = [] := rfl
    rw [hdrop, pointed, if_pos rfl, List.append_nil, trimFraction, if_neg hpoint]
  · have hmem : '.' ∈ withSign negative (pointed whole fraction) := by
      rw [pointed, if_neg hnil, withSign_append]
      exact List.mem_append_right _ List.mem_cons_self
    rw [trimFraction, if_pos hmem, pointed, if_neg hnil, withSign_append, pointed, withSign_append,
      List.append_cons, dropTrailing_append]
    by_cases hzeros : dropTrailing '0' fraction = []
    · -- Nothing but zeros stands behind the point, which then goes as well.
      have hpoint : (withSign negative whole ++ ['.']).getLast? ≠ some '0' := by simp
      have hdrop : dropTrailing '.' ['.'] = [] := rfl
      rw [if_pos hzeros, if_pos hzeros, dropTrailing_eq_self hpoint, dropTrailing_append,
        if_pos hdrop, dropTrailing_eq_self hlast, List.append_nil]
    · have hdigit : ∀ c ∈ dropTrailing '0' fraction, c.isDigit = true :=
        fun c hc => hfraction c (mem_of_mem_dropTrailing hc)
      rw [if_neg hzeros, if_neg hzeros,
        dropTrailing_eq_self (getLast?_ne_of_isDigit hzeros hdigit rfl), ← List.append_cons]

end Trimmed

/-- The whole digits and the fraction of a rational number's plain numeral: no superfluous zero
leads it, and no zero ends its fraction. -/
structure IsPlain (whole fraction : Text) (q : ℚ) : Prop where
  ne_nil : whole ≠ []
  isDigit : ∀ c ∈ whole ++ fraction, c.isDigit = true
  noLeadingZero : NoLeadingZero whole
  getLast?_ne : fraction.getLast? ≠ some '0'
  value : q * 10 ^ fraction.length = ofDecimal (whole ++ fraction)

/-- A number of units of the last of some places has a plain numeral once the trailing zeros are
gone. -/
theorem isPlain_units (places units : ℕ) :
    IsPlain (decimal (units / 10 ^ places)) (dropTrailing '0' (fractionDigits places units))
      (units / 10 ^ places) := by
  refine ⟨decimal_ne_nil _, ?_, noLeadingZero_inBase (by decide) (by decide) .lower _,
    getLast?_dropTrailing_ne _ _, ?_⟩
  · intro c hc
    obtain hc | hc := List.mem_append.mp hc
    · exact isDigit_of_mem_decimal hc
    · exact isDigit_of_mem_fractionDigits (mem_of_mem_dropTrailing hc)
  · obtain ⟨count, heq⟩ := exists_eq_dropTrailing_append '0' (fractionDigits places units)
    have hvalue := ofDecimal_append_fractionDigits places units
    have hlength := length_fractionDigits places units
    rw [heq, ← List.append_assoc, ofDecimal_append, ofDecimal_replicate_zero, List.length_replicate,
      Nat.add_zero] at hvalue
    rw [heq, List.length_append, List.length_replicate] at hlength
    generalize dropTrailing '0' (fractionDigits places units) = fraction at hvalue hlength ⊢
    generalize decimal (units / 10 ^ places) = whole at hvalue ⊢
    have hpow : (10 : ℚ) ^ places = 10 ^ fraction.length * 10 ^ count := by
      rw [← hlength, pow_add]
    rw [hpow, ← hvalue]
    push_cast
    field_simp

/-- The digits of a written exponent: at least two, and more only if the first is not zero. -/
structure IsExponent (digits : Text) (n : ℕ) : Prop where
  two_le_length : 2 ≤ digits.length
  isDigit : ∀ c ∈ digits, c.isDigit = true
  head?_ne : 2 < digits.length → digits.head? ≠ some '0'
  value : ofDecimal digits = n

theorem isExponent_zeroFilled (n : ℕ) : IsExponent (zeroFilled 2 (decimal n)) n := by
  refine ⟨?_, fun c => isDigit_of_mem_zeroFilled fun _ => isDigit_of_mem_decimal, ?_, ?_⟩
  · rw [zeroFilled, List.length_append, List.length_replicate]
    omega
  · intro hlong hzero
    -- A numeral of more than two digits is not filled up.
    have hlength : 2 < (decimal n).length := by
      rw [zeroFilled, List.length_append, List.length_replicate] at hlong
      omega
    have hfilled : zeroFilled 2 (decimal n) = decimal n := by
      rw [zeroFilled, Nat.sub_eq_zero_of_le (by omega), List.replicate_zero, List.nil_append]
    rw [hfilled] at hzero
    have hone := noLeadingZero_inBase (by decide) (by decide) .lower n hzero
    rw [decimal, hone] at hlength
    exact absurd hlength (by decide)
  · rw [ofDecimal_zeroFilled, ofDecimal_decimal]

end Numeral

namespace Decimal

open Numeral

variable {whole fraction rest : Text} {exponent : ℤ} {q : ℚ}

theorem stopsAt_of_readExponent? (h : readExponent? rest = some exponent) :
    Text.StopsAt Char.isDigit rest ∧ rest.head? ≠ some '.' := by
  cases rest with
  | nil => exact ⟨Text.stopsAt_nil, by simp⟩
  | cons mark t =>
    simp only [readExponent?] at h
    split at h
    · next hmark => obtain rfl | rfl := hmark <;> exact ⟨Text.stopsAt_cons rfl, by simp⟩
    · cases h

theorem readFraction_of_head?_ne (h : rest.head? ≠ some '.') : readFraction rest = ([], rest) := by
  unfold readFraction
  split
  · exact absurd rfl h
  · rfl

theorem readFraction_cons_append (hfraction : ∀ c ∈ fraction, c.isDigit = true)
    (h : Text.StopsAt Char.isDigit rest) :
    readFraction ('.' :: (fraction ++ rest)) = (fraction, rest) := by
  rw [readFraction, Text.takeWhile_append hfraction h, Text.dropWhile_append hfraction h]

/-- A fraction starts at a point, and holds digits only. -/
theorem readFraction_cases (t : Text) :
    (readFraction t = ([], t) ∧ t.head? ≠ some '.') ∨
      ∃ fraction rest, readFraction t = (fraction, rest) ∧ t = '.' :: (fraction ++ rest) ∧
        ∀ c ∈ fraction, c.isDigit = true := by
  unfold readFraction
  split
  · next t =>
    refine .inr ⟨_, _, rfl, ?_, fun c hc => List.mem_takeWhile_imp hc⟩
    rw [List.takeWhile_append_dropWhile]
  · next hpoint =>
    refine .inl ⟨rfl, ?_⟩
    intro h
    obtain ⟨u, rfl⟩ := List.head?_eq_some_iff.mp h
    exact hpoint u rfl

/-- A literal is read part by part: its sign, the digits in front of the point, those behind it, its
exponent. -/
theorem ofText?_of_parts {negative : Bool} {t behind : Text}
    (hsign : SignedNumeral.takeSign t = (negative, whole ++ behind))
    (hwhole : ∀ c ∈ whole, c.isDigit = true) (hbehind : Text.StopsAt Char.isDigit behind)
    (hfraction : readFraction behind = (fraction, rest)) (hne : whole ++ fraction ≠ [])
    (hrest : readExponent? rest = some exponent) :
    ofText? t = some ⟨negative, ofDecimal (whole ++ fraction), exponent - fraction.length⟩ := by
  rw [ofText?, hsign]
  simp only [Text.takeWhile_append hwhole hbehind, Text.dropWhile_append hwhole hbehind,
    hfraction, if_neg hne, hrest, Option.map_some]

/-- A written literal is read back: its sign, all of its digits, and the place of the last one. -/
theorem ofText?_pointed (negative : Bool) (hne : whole ≠ [])
    (hdigits : ∀ c ∈ whole ++ fraction, c.isDigit = true)
    (hrest : readExponent? rest = some exponent) :
    ofText? (withSign negative (pointed whole fraction) ++ rest) =
      some ⟨negative, ofDecimal (whole ++ fraction), exponent - fraction.length⟩ := by
  obtain ⟨hends, hpoint⟩ := stopsAt_of_readExponent? hrest
  have hwhole : ∀ c ∈ whole, c.isDigit = true := fun c hc => hdigits c (List.mem_append_left _ hc)
  have hsign := SignedNumeral.takeSign_withSign_append negative hne hwhole
    ((if fraction = [] then [] else '.' :: fraction) ++ rest)
  rw [pointed, withSign_append, List.append_assoc]
  refine ofText?_of_parts hsign hwhole ?_ ?_ (by simp [hne]) hrest
  · split
    · exact hends
    · exact Text.stopsAt_cons rfl
  · split
    · next hnil =>
      rw [hnil]
      exact readFraction_of_head?_ne hpoint
    · exact readFraction_cons_append (fun c hc => hdigits c (List.mem_append_right _ hc)) hends

theorem readExponent?_of_isExponent {digits : Text} (mark : Char) (hmark : mark = 'e' ∨ mark = 'E')
    (h : IsExponent digits exponent.natAbs) :
    readExponent? (mark :: (if exponent < 0 then '-' else '+') :: digits) = some exponent := by
  have hne : digits ≠ [] := by
    rintro rfl
    exact absurd h.two_le_length (by decide)
  have hsign : SignedNumeral.takeSign ((if exponent < 0 then '-' else '+') :: digits) =
      (decide (exponent < 0), digits) := by
    split
    · next h => rw [decide_eq_true h]; rfl
    · next h => rw [decide_eq_false h]; rfl
  rw [readExponent?, if_pos hmark, SignedNumeral.ofText?_of_takeSign hsign hne h.isDigit, h.value,
    Option.map_some, SignedNumeral.value_natAbs]

theorem readExponent?_nil : readExponent? [] = some 0 := rfl

theorem value_toRatio (d : Decimal) : d.toRatio.value = d.significand * 10 ^ d.exponent := by
  rw [Ratio.value, toRatio, Ratio.zpow_ten_eq_div]
  push_cast
  exact mul_div_assoc _ _ _

/-- A plain numeral with an exponent behind it is read as the number times that power of ten. -/
theorem exists_ofText?_of_isPlain (negative : Bool) (h : IsPlain whole fraction q)
    (hrest : readExponent? rest = some exponent) :
    ∃ d, ofText? (withSign negative (pointed whole fraction) ++ rest) = some d ∧
      d.negative = negative ∧ d.toRatio.value = q * 10 ^ exponent := by
  refine ⟨_, ofText?_pointed negative h.ne_nil h.isDigit hrest, rfl, ?_⟩
  have hten : (10 : ℚ) ^ fraction.length ≠ 0 := pow_ne_zero _ (by norm_num)
  rw [value_toRatio, ← h.value, zpow_sub₀ (by norm_num), zpow_natCast]
  field_simp

end Decimal

end TextTemplate
