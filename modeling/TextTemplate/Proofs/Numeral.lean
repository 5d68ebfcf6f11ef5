import TextTemplate.Numeral.Places
import TextTemplate.Numeral.Signed

/-! Numerals denote the numbers that they were written for, and are read back where they end. -/
namespace TextTemplate

namespace Text

variable {p : Char → Bool} {c d : Char} {s t rest : Text}

theorem ne_of_apply (hc : p c = true) (hd : p d = false) : c ≠ d := by
  rintro rfl
  rw [hd] at hc
  cases hc

/-- The text does not go on with a character of a set. -/
def StopsAt (p : Char → Bool) (rest : Text) : Prop := ∀ c, rest.head? = some c → p c = false

theorem stopsAt_nil : StopsAt p [] := by
  rintro c hc
  cases hc

theorem stopsAt_cons (h : p c = false) : StopsAt p (c :: t) := by
  rintro d hd
  cases hd
  exact h

theorem stopsAt_dropWhile (t : Text) : StopsAt p (t.dropWhile p) := by
  intro c hc
  have hhead := List.head?_dropWhile_not p t
  rw [hc] at hhead
  simpa using hhead

theorem takeWhile_append (hs : ∀ c ∈ s, p c = true) (h : StopsAt p rest) :
    (s ++ rest).takeWhile p = s := by
  rw [List.takeWhile_append_of_pos hs]
  cases rest with
  | nil => simp
  | cons c rest => simp [h c rfl]

theorem dropWhile_append (hs : ∀ c ∈ s, p c = true) (h : StopsAt p rest) :
    (s ++ rest).dropWhile p = rest := by
  rw [List.dropWhile_append_of_pos hs]
  cases rest with
  | nil => simp
  | cons c rest => simp [h c rfl]

end Text

namespace Numeral

variable {base n d : Nat} {c : Char} {t : Text}

theorem positionalValue_reverse_lowDigits (hb : 2 ≤ base) (n : Nat) :
    positionalValue base (lowDigits base n).reverse = n := by
  induction n using Nat.strongRecOn with
  | ind n ih =>
    by_cases hn : n = 0
    · subst hn
      simp [lowDigits_zero, positionalValue]
    · have hlt : n / base < n := Nat.div_lt_self (Nat.pos_of_ne_zero hn) hb
      have hhigh := ih (n / base) hlt
      unfold positionalValue at hhigh ⊢
      rw [lowDigits_of_ne_zero hb hn, List.reverse_cons, List.foldl_append, hhigh, List.foldl_cons,
        List.foldl_nil, Nat.mul_comm, Nat.div_add_mod]

theorem positionalValue_digits (hb : 2 ≤ base) (n : Nat) :
    positionalValue base (digits base n) = n := by
  rw [digits_eq hb]
  split
  · next h =>
    subst h
    simp [positionalValue]
  · exact positionalValue_reverse_lowDigits hb n

theorem lt_of_mem_lowDigits (hb : 2 ≤ base) (h : d ∈ lowDigits base n) : d < base := by
  induction n using Nat.strongRecOn with
  | ind n ih =>
    by_cases hn : n = 0
    · subst hn
      simp [lowDigits_zero] at h
    · rw [lowDigits_of_ne_zero hb hn, List.mem_cons] at h
      obtain rfl | h := h
      · exact Nat.mod_lt n (by omega)
      · exact ih (n / base) (Nat.div_lt_self (Nat.pos_of_ne_zero hn) hb) h

theorem lt_of_mem_digits (hb : 2 ≤ base) (h : d ∈ digits base n) : d < base := by
  rw [digits_eq hb] at h
  split at h
  · have hd : d = 0 := by simpa using h
    omega
  · exact lt_of_mem_lowDigits hb (List.mem_reverse.mp h)

theorem digits_ne_nil (hb : 2 ≤ base) (n : Nat) : digits base n ≠ [] := by
  rw [digits_eq hb]
  split
  · simp
  · next h => simp [lowDigits_of_ne_zero hb h]

theorem isDigit_iff_toNat : c.isDigit = true ↔ '0'.toNat ≤ c.toNat ∧ c.toNat < '0'.toNat + 10 := by
  simp only [Char.isDigit, Bool.and_eq_true, decide_eq_true_eq]
  exact and_congr_right fun _ => Nat.lt_succ_iff.symm

theorem isDigit_digitChar (h : d < 10) : (digitChar .lower d).isDigit = true := by
  revert d
  decide

theorem toNat_digitChar_sub (h : d < 10) : (digitChar .lower d).toNat - '0'.toNat = d := by
  revert d
  decide

theorem decimal_ne_nil (n : Nat) : decimal n ≠ [] := by
  simp [decimal, inBase, digits_ne_nil]

theorem isDigit_of_mem_decimal (h : c ∈ decimal n) : c.isDigit = true := by
  obtain ⟨d, hd, rfl⟩ := List.mem_map.mp h
  exact isDigit_digitChar (lt_of_mem_digits (by decide) hd)

theorem ofDecimal_decimal (n : Nat) : ofDecimal (decimal n) = n := by
  have hmap : (decimal n).map (fun c => c.toNat - '0'.toNat) = digits 10 n := by
    rw [decimal, inBase, List.map_map]
    refine (List.map_congr_left fun d hd => ?_).trans (List.map_id _)
    exact toNat_digitChar_sub (lt_of_mem_digits (by decide) hd)
  rw [ofDecimal, hmap, positionalValue_digits (by decide)]

end Numeral

namespace SignedNumeral

variable {n : Nat} {k : Int} {negative : Bool} {s t rest : Text}

theorem value_natAbs (k : Int) : value ⟨decide (k < 0), k.natAbs⟩ = k := by
  by_cases h : k < 0
  · have hvalue : value ⟨decide (k < 0), k.natAbs⟩ = -(k.natAbs : Int) :=
      if_pos (decide_eq_true h)
    omega
  · have hvalue : value ⟨decide (k < 0), k.natAbs⟩ = k.natAbs :=
      if_neg (ne_true_of_eq_false (decide_eq_false h))
    omega

theorem takeWhile_decimal_append (h : Text.StopsAt Char.isDigit rest) :
    (Numeral.decimal n ++ rest).takeWhile Char.isDigit = Numeral.decimal n :=
  Text.takeWhile_append (fun _ => Numeral.isDigit_of_mem_decimal) h

theorem dropWhile_decimal_append (h : Text.StopsAt Char.isDigit rest) :
    (Numeral.decimal n ++ rest).dropWhile Char.isDigit = rest :=
  Text.dropWhile_append (fun _ => Numeral.isDigit_of_mem_decimal) h

theorem not_isAsciiBlank_of_isDigit {c : Char} (h : c.isDigit = true) :
    Text.isAsciiBlank c = false := by
  cases hb : Text.isAsciiBlank c with
  | false => rfl
  | true =>
    simp only [Text.isAsciiBlank, Bool.or_eq_true, decide_eq_true_eq] at hb
    rcases hb with (((rfl | rfl) | rfl) | rfl) | rfl <;> cases h

theorem exists_decimal_eq_cons (n : Nat) :
    ∃ c t, Numeral.decimal n = c :: t ∧ c.isDigit = true := by
  obtain ⟨c, t, h⟩ := List.exists_cons_of_ne_nil (Numeral.decimal_ne_nil n)
  refine ⟨c, t, h, Numeral.isDigit_of_mem_decimal (n := n) ?_⟩
  rw [h]
  exact List.mem_cons_self

/-- The sign in front of a text that starts with no further one is taken. -/
theorem takeSign_append {sign : Text} (hsign : sign = [] ∨ sign = ['+'] ∨ sign = ['-'])
    (hplus : t.head? ≠ some '+') (hminus : t.head? ≠ some '-') :
    takeSign (sign ++ t) = (decide (sign = ['-']), t) := by
  obtain rfl | rfl | rfl := hsign
  · rw [List.nil_append]
    unfold takeSign
    split
    · exact absurd rfl hminus
    · exact absurd rfl hplus
    · rfl
  · rfl
  · rfl

theorem head?_ne_of_isDigit {c : Char} (hs : ∀ c ∈ s, c.isDigit = true)
    (hc : c.isDigit = false) : s.head? ≠ some c := by
  intro h
  rw [hs c (List.mem_of_mem_head? h)] at hc
  cases hc

theorem head?_append_ne_of_isDigit {c : Char} (hne : s ≠ []) (hs : ∀ c ∈ s, c.isDigit = true)
    (hc : c.isDigit = false) : (s ++ rest).head? ≠ some c := by
  rw [List.head?_append, Option.or_of_isSome (List.isSome_head?.mpr hne)]
  exact head?_ne_of_isDigit hs hc

/-- The sign in front of digits is the only one that is taken. -/
theorem takeSign_withSign_append (negative : Bool) (hne : s ≠ []) (hs : ∀ c ∈ s, c.isDigit = true)
    (rest : Text) : takeSign (Numeral.withSign negative s ++ rest) = (negative, s ++ rest) := by
  cases negative with
  | true => rfl
  | false =>
    exact takeSign_append (.inl rfl) (head?_append_ne_of_isDigit hne hs rfl)
      (head?_append_ne_of_isDigit hne hs rfl)

/-- Digits behind an optional sign are read back as far as they go. -/
theorem readUnpadded?_of_takeSign (ht : takeSign t = (negative, s ++ rest)) (hne : s ≠ [])
    (hs : ∀ c ∈ s, c.isDigit = true) (h : Text.StopsAt Char.isDigit rest) :
    readUnpadded? t = some (⟨negative, Numeral.ofDecimal s⟩, rest) := by
  rw [readUnpadded?, ht]
  simp only [Text.takeWhile_append hs h, Text.dropWhile_append hs h]
  rw [if_neg hne]

theorem ofText?_of_takeSign (ht : takeSign t = (negative, s)) (hne : s ≠ [])
    (hs : ∀ c ∈ s, c.isDigit = true) : ofText? t = some ⟨negative, Numeral.ofDecimal s⟩ := by
  rw [← List.append_nil s] at ht
  rw [ofText?, readUnpadded?_of_takeSign ht hne hs Text.stopsAt_nil]

theorem takeSign_ofInt_append (k : Int) (rest : Text) :
    takeSign (Numeral.ofInt k ++ rest) = (decide (k < 0), Numeral.decimal k.natAbs ++ rest) :=
  takeSign_withSign_append _ (Numeral.decimal_ne_nil _)
    (fun _ => Numeral.isDigit_of_mem_decimal) rest

theorem ofText?_ofInt (k : Int) :
    ofText? (Numeral.ofInt k) = some ⟨decide (k < 0), k.natAbs⟩ := by
  have h := takeSign_ofInt_append k []
  rw [List.append_nil, List.append_nil] at h
  rw [ofText?_of_takeSign h (Numeral.decimal_ne_nil _) fun _ => Numeral.isDigit_of_mem_decimal,
    Numeral.ofDecimal_decimal]

end SignedNumeral

end TextTemplate
