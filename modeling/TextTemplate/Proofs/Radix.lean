import TextTemplate.Proofs.Numeral
import TextTemplate.Rendering.Numbers

/-! Numerals of integers in the bases two, eight and sixteen: each denotes the two's complement
pattern of its integer and tells the integers of a kind apart. -/
namespace TextTemplate

namespace Numeral

variable {base n d : Nat} {letters : LetterCase} {alphabet s t : Text} {v w : Int} {ds : List Nat}

/-- The digits of the base two, each at the position of its value. -/
def binaryAlphabet : Text := "01".toList

def octalAlphabet : Text := "01234567".toList

def lowerHexAlphabet : Text := "0123456789abcdef".toList

def upperHexAlphabet : Text := "0123456789ABCDEF".toList

/-- A text of digits of an alphabet denotes a number in the base that the alphabet has digits
for. -/
structure Denotes (alphabet t : Text) (v : Int) : Prop where
  ne_nil : t ≠ []
  mem_alphabet : ∀ c ∈ t, c ∈ alphabet
  value : (positionalValue alphabet.length (t.map alphabet.idxOf) : Int) = v

/-- No zero leads a text that is longer than that zero. -/
def NoLeadingZero (t : Text) : Prop := t.head? = some '0' → t = ['0']

theorem Denotes.unique (hv : Denotes alphabet t v) (hw : Denotes alphabet t w) : v = w :=
  hv.value.symm.trans hw.value

theorem positionalValue_zero_cons : positionalValue base (0 :: ds) = positionalValue base ds := by
  simp [positionalValue]

theorem positionalValue_replicate_zero_append (count : Nat) (ds : List Nat) :
    positionalValue base (List.replicate count 0 ++ ds) = positionalValue base ds := by
  induction count with
  | zero => rfl
  | succ count ih => rw [List.replicate_succ, List.cons_append, positionalValue_zero_cons, ih]

/-- Zeros in front change nothing. -/
theorem Denotes.zeroFilled (length : Nat) (h : Denotes alphabet t v)
    (hzero : alphabet.head? = some '0') : Denotes alphabet (zeroFilled length t) v := by
  obtain ⟨rest, rfl⟩ := List.head?_eq_some_iff.mp hzero
  refine ⟨by simp [Numeral.zeroFilled, h.ne_nil], ?_, ?_⟩
  · intro c hc
    obtain hc | hc := List.mem_append.mp hc
    · rw [(List.mem_replicate.mp hc).2]
      exact List.mem_cons_self
    · exact h.mem_alphabet c hc
  · have hindex : ('0' :: rest).idxOf '0' = 0 := List.idxOf_cons_self
    rw [Numeral.zeroFilled, List.map_append, List.map_replicate, hindex,
      positionalValue_replicate_zero_append]
    exact h.value

/-- An alphabet lists the characters of the digits of a base in order. -/
def Lists (alphabet : Text) (base : Nat) (letters : LetterCase) : Prop :=
  alphabet.length = base ∧
    ∀ d < base, digitChar letters d ∈ alphabet ∧ alphabet.idxOf (digitChar letters d) = d

theorem lists_binaryAlphabet : Lists binaryAlphabet 2 .lower :=
  ⟨rfl, by decide⟩

theorem lists_octalAlphabet : Lists octalAlphabet 8 .lower :=
  ⟨rfl, by decide⟩

theorem lists_lowerHexAlphabet : Lists lowerHexAlphabet 16 .lower :=
  ⟨rfl, by decide⟩

theorem lists_upperHexAlphabet : Lists upperHexAlphabet 16 .upper :=
  ⟨rfl, by decide⟩

theorem denotes_inBase (hb : 2 ≤ base) (h : Lists alphabet base letters) (n : Nat) :
    Denotes alphabet (inBase base letters n) n := by
  obtain ⟨hlength, hdigits⟩ := h
  refine ⟨by simp [inBase, digits_ne_nil hb], ?_, ?_⟩
  · intro c hc
    obtain ⟨d, hd, rfl⟩ := List.mem_map.mp hc
    exact (hdigits d (lt_of_mem_digits hb hd)).1
  · have hindices : (inBase base letters n).map alphabet.idxOf = digits base n := by
      rw [inBase, List.map_map]
      refine (List.map_congr_left fun d hd => ?_).trans (List.map_id _)
      exact (hdigits d (lt_of_mem_digits hb hd)).2
    rw [hindices, hlength, positionalValue_digits hb]

theorem getLast?_lowDigits_ne_zero (hb : 2 ≤ base) (n : Nat) :
    (lowDigits base n).getLast? ≠ some 0 := by
  induction n using Nat.strongRecOn with
  | ind n ih =>
    by_cases hn : n = 0
    · simp [hn, lowDigits_zero]
    · have hlt : n / base < n := Nat.div_lt_self (Nat.pos_of_ne_zero hn) hb
      have hhigh := ih (n / base) hlt
      rw [lowDigits_of_ne_zero hb hn]
      by_cases hq : n / base = 0
      · -- The number is its only digit.
        have hmod : n % base = n := Nat.mod_eq_of_lt ((Nat.div_eq_zero_iff_lt (by omega)).mp hq)
        simp [hq, lowDigits_zero, hmod, hn]
      · rw [lowDigits_of_ne_zero hb hq] at hhigh ⊢
        rw [List.getLast?_cons_cons]
        exact hhigh

theorem head?_digits_ne_zero (hb : 2 ≤ base) (hn : n ≠ 0) : (digits base n).head? ≠ some 0 := by
  rw [digits_eq hb, if_neg hn, List.head?_reverse]
  exact getLast?_lowDigits_ne_zero hb n

/-- The numeral of a number other than zero starts with another digit than zero. -/
theorem exists_inBase_eq_cons (hb : 2 ≤ base) (letters : LetterCase) (hn : n ≠ 0) :
    ∃ d rest, inBase base letters n = digitChar letters d :: rest ∧ d ≠ 0 ∧ d < base := by
  obtain ⟨d, rest, h⟩ := List.exists_cons_of_ne_nil (digits_ne_nil hb n)
  have hd : d ≠ 0 := by
    intro hzero
    apply head?_digits_ne_zero hb hn
    rw [h, hzero, List.head?_cons]
  have hlt : d < base := lt_of_mem_digits hb (h ▸ List.mem_cons_self)
  exact ⟨d, rest.map (digitChar letters), by rw [inBase, h, List.map_cons], hd, hlt⟩

theorem digitChar_ne_zero (letters : LetterCase) (h : d ≠ 0) (hd : d < 16) :
    digitChar letters d ≠ '0' := by
  intro hzero
  have hvalue := digitOf?_digitChar letters hd
  rw [hzero] at hvalue
  exact h (Option.some.inj hvalue).symm

theorem noLeadingZero_inBase (hb : 2 ≤ base) (hbase : base ≤ 16) (letters : LetterCase) (n : Nat) :
    NoLeadingZero (inBase base letters n) := by
  intro h
  by_cases hn : n = 0
  · subst hn
    cases letters <;> rfl
  · obtain ⟨d, rest, heq, hd, hlt⟩ := exists_inBase_eq_cons hb letters hn
    rw [heq, List.head?_cons] at h
    exact absurd (Option.some.inj h) (digitChar_ne_zero letters hd (by omega))

theorem denotes_binaryGroups (hn : n ≠ 0) : Denotes binaryAlphabet (binaryGroups n) n := by
  rw [binaryGroups, if_neg hn]
  exact (denotes_inBase (by decide) lists_binaryAlphabet n).zeroFilled _ rfl

theorem length_zeroFilled (length : Nat) (h : t.length ≤ length) :
    (zeroFilled length t).length = length := by
  rw [zeroFilled, List.length_append, List.length_replicate]
  omega

theorem four_dvd_length_binaryGroups (hn : n ≠ 0) : 4 ∣ (binaryGroups n).length := by
  rw [binaryGroups, if_neg hn, length_zeroFilled _ (by omega)]
  exact Nat.dvd_mul_left 4 _

/-- The first group is not empty: fewer than four zeros stand in front of the first digit. -/
theorem one_mem_take_binaryGroups (hn : n ≠ 0) : '1' ∈ (binaryGroups n).take 4 := by
  obtain ⟨d, rest, heq, hd, hlt⟩ := exists_inBase_eq_cons (Nat.le_refl 2) .lower hn
  have hone : digitChar .lower d = '1' := by
    obtain rfl : d = 1 := by omega
    rfl
  rw [hone] at heq
  rw [binaryGroups, if_neg hn, heq, zeroFilled, List.length_cons, List.take_append,
    List.length_replicate]
  apply List.mem_append_right
  obtain ⟨room, hroom⟩ : ∃ room,
      4 - ((rest.length + 1 + 3) / 4 * 4 - (rest.length + 1)) = room + 1 :=
    ⟨3 - ((rest.length + 1 + 3) / 4 * 4 - (rest.length + 1)), by omega⟩
  rw [hroom, List.take_succ_cons]
  exact List.mem_cons_self

theorem binaryGroups_eq_zero_iff : binaryGroups n = "0b0".toList ↔ n = 0 := by
  constructor
  · intro h
    by_cases hn : n = 0
    · exact hn
    · have hmem := (denotes_binaryGroups hn).mem_alphabet 'b' (by rw [h]; decide)
      exact absurd hmem (by decide)
  · rintro rfl
    rfl

end Numeral

namespace IntegerKind

theorem bound_sub_low (k : IntegerKind) : k.bound - k.low = k.modulus := by
  obtain ⟨signed, width⟩ := k
  cases signed <;> cases width <;> decide

theorem low_nonpos (k : IntegerKind) : k.low ≤ 0 := by
  obtain ⟨signed, width⟩ := k
  cases signed <;> cases width <;> decide

theorem bound_pos (k : IntegerKind) : 0 < k.bound := by
  obtain ⟨signed, width⟩ := k
  cases signed <;> cases width <;> decide

end IntegerKind

namespace Integer

open Numeral

variable {k : IntegerKind} {m n : Integer k} {bits : Nat}

theorem coe_pattern (n : Integer k) (bits : Nat) :
    (n.pattern bits : Int) = n.value % (2 ^ bits : Nat) := by
  have hpos : 0 < 2 ^ bits := Nat.two_pow_pos bits
  exact Int.toNat_of_nonneg (Int.emod_nonneg _ (by omega))

/-- The integers of a kind have different patterns in as many bits as the kind has, or more. -/
theorem eq_of_emod_eq (h : k.width.bits ≤ bits)
    (hmod : m.value % (2 ^ bits : Nat) = n.value % (2 ^ bits : Nat)) : m = n := by
  have hrange : k.bound - k.low ≤ (2 ^ bits : Nat) := by
    rw [IntegerKind.bound_sub_low, IntegerKind.modulus]
    exact Int.ofNat_le.mpr (Nat.pow_le_pow_right (by decide) h)
  have hdvd : ((2 ^ bits : Nat) : Int) ∣ m.value - n.value :=
    Int.dvd_of_emod_eq_zero (Int.emod_eq_emod_iff_emod_sub_eq_zero.mp hmod)
  have hdiff : m.value - n.value = 0 := by
    apply Int.eq_zero_of_dvd_of_natAbs_lt_natAbs hdvd
    have hm := m.low_le
    have hm' := m.lt_bound
    have hn := n.low_le
    have hn' := n.lt_bound
    omega
  have hvalue : m.value = n.value := by omega
  cases m
  cases n
  simp only at hvalue
  subst hvalue
  rfl

theorem width_le_binaryBits (k : IntegerKind) : k.width.bits ≤ binaryBits k := by
  obtain ⟨signed, width⟩ := k
  cases signed <;> cases width <;> decide

theorem pattern_eq_zero_iff (h : k.width.bits ≤ bits) : n.pattern bits = 0 ↔ n.value = 0 := by
  constructor
  · intro hzero
    have hmod := n.coe_pattern bits
    rw [hzero] at hmod
    let zero : Integer k := ⟨0, k.low_nonpos, k.bound_pos⟩
    have heq : n = zero := by
      apply eq_of_emod_eq h
      rw [← hmod]
      simp [zero]
    rw [heq]
  · intro hzero
    simp [pattern, hzero]

theorem pattern_ne_zero (h : n.value ≠ 0) : n.pattern (binaryBits k) ≠ 0 :=
  mt (pattern_eq_zero_iff (width_le_binaryBits k)).mp h

theorem denotes_inBase {base : Nat} {letters : LetterCase} {alphabet : Text} (hb : 2 ≤ base)
    (h : Lists alphabet base letters) (n : Integer k) :
    Denotes alphabet (n.inBase base letters) (n.value % (2 ^ k.width.bits : Nat)) := by
  rw [← n.coe_pattern]
  exact Numeral.denotes_inBase hb h _

theorem denotes_binary (h : n.value ≠ 0) :
    Denotes binaryAlphabet n.binary (n.value % (2 ^ binaryBits k : Nat)) := by
  rw [← n.coe_pattern]
  exact denotes_binaryGroups (pattern_ne_zero h)

theorem binary_eq_zero_iff : n.binary = "0b0".toList ↔ n.value = 0 :=
  binaryGroups_eq_zero_iff.trans (pattern_eq_zero_iff (width_le_binaryBits k))

theorem eq_of_inBase_eq {base : Nat} {letters : LetterCase} {alphabet : Text} (hb : 2 ≤ base)
    (h : Lists alphabet base letters) (heq : m.inBase base letters = n.inBase base letters) :
    m = n := by
  have hn := n.denotes_inBase hb h
  rw [← heq] at hn
  exact eq_of_emod_eq (Nat.le_refl _) ((m.denotes_inBase hb h).unique hn)

theorem eq_of_binary_eq (heq : m.binary = n.binary) : m = n := by
  have hbits := width_le_binaryBits k
  by_cases hm : m.value = 0
  · have hn : n.value = 0 := binary_eq_zero_iff.mp (heq ▸ binary_eq_zero_iff.mpr hm)
    apply eq_of_emod_eq hbits
    rw [hm, hn]
  · have hn : n.value ≠ 0 := fun hn =>
      hm (binary_eq_zero_iff.mp (heq ▸ binary_eq_zero_iff.mpr hn))
    have hdenotes := denotes_binary hn
    rw [← heq] at hdenotes
    exact eq_of_emod_eq hbits ((denotes_binary hm).unique hdenotes)

end Integer

namespace Rendering

open Numeral

/-- The numerals of an integer in the bases sixteen and eight denote its pattern in the width of its
kind; the binary one marks zero and otherwise shows groups of four digits, of 64 bits for the
shorter signed kinds. No two integers of a kind share a numeral. -/
theorem integerText_denotes_pattern (k : IntegerKind) :
    (∀ n : Integer k,
      (Denotes lowerHexAlphabet (integerText n "x".toList) (n.value % (2 ^ k.width.bits : Nat)) ∧
        NoLeadingZero (integerText n "x".toList)) ∧
      (Denotes upperHexAlphabet (integerText n "X".toList) (n.value % (2 ^ k.width.bits : Nat)) ∧
        NoLeadingZero (integerText n "X".toList)) ∧
      (Denotes octalAlphabet (integerText n "o".toList) (n.value % (2 ^ k.width.bits : Nat)) ∧
        NoLeadingZero (integerText n "o".toList)) ∧
      (integerText n "b".toList = "0b0".toList ↔ n.value = 0) ∧
      (n.value ≠ 0 →
        Denotes binaryAlphabet (integerText n "b".toList)
          (n.value % (2 ^ (if k.signed ∧ k.width.bits ≤ 64 then 64 else k.width.bits) : Nat)) ∧
        4 ∣ (integerText n "b".toList).length ∧
        '1' ∈ (integerText n "b".toList).take 4)) ∧
    ∀ spec ∈ ["x".toList, "X".toList, "o".toList, "b".toList], ∀ m n : Integer k,
      integerText m spec = integerText n spec → m = n := by
  constructor
  · intro n
    refine ⟨⟨n.denotes_inBase (by decide) lists_lowerHexAlphabet, ?_⟩,
      ⟨n.denotes_inBase (by decide) lists_upperHexAlphabet, ?_⟩,
      ⟨n.denotes_inBase (by decide) lists_octalAlphabet, ?_⟩, Integer.binary_eq_zero_iff, ?_⟩
    · exact noLeadingZero_inBase (by decide) (by decide) .lower _
    · exact noLeadingZero_inBase (by decide) (by decide) .upper _
    · exact noLeadingZero_inBase (by decide) (by decide) .lower _
    · intro hn
      exact ⟨Integer.denotes_binary hn, four_dvd_length_binaryGroups (Integer.pattern_ne_zero hn),
        one_mem_take_binaryGroups (Integer.pattern_ne_zero hn)⟩
  · intro spec hspec m n h
    simp only [List.mem_cons, List.not_mem_nil, or_false] at hspec
    rcases hspec with rfl | rfl | rfl | rfl
    · exact Integer.eq_of_inBase_eq (by decide) lists_lowerHexAlphabet h
    · exact Integer.eq_of_inBase_eq (by decide) lists_upperHexAlphabet h
    · exact Integer.eq_of_inBase_eq (by decide) lists_octalAlphabet h
    · exact Integer.eq_of_binary_eq h

end Rendering

end TextTemplate
