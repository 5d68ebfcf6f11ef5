import TextTemplate.Proofs.Fraction
import TextTemplate.Toml.Quoted

/-! Basic TOML strings as they are written, with escapes where a character cannot stand for itself,
and how they are read back. -/
namespace TextTemplate.Toml

open Numeral

variable {letters : LetterCase} {multiline : Bool} {c : Char} {t rest : Text}

/-- The characters that no string on one line can hold as they are, and the tabulator. -/
def isControl (c : Char) : Bool := c.toNat < 0x20 || c.toNat = 0x7F

/-- An escape with the four digits of a character. -/
def scalarEscape (letters : LetterCase) (c : Char) : Text :=
  '\\' :: 'u' :: zeroFilled 4 (inBase 16 letters c.toNat)

def escape (letters : LetterCase) (c : Char) : Text :=
  if c = '"' ∨ c = '\\' then ['\\', c]
  else if isControl c then scalarEscape letters c
  else [c]

def quoted (letters : LetterCase) (t : Text) : Text := '"' :: (t.flatMap (escape letters) ++ ['"'])

theorem scalarOf?_toNat (c : Char) : scalarOf? c.toNat = some c := by
  have hvalid : c.toNat.isValidChar := c.valid
  rw [scalarOf?, if_pos hvalid, Char.ofNat_toNat]

theorem readBasicFrom_digits {ds : List ℕ} {value : ℕ} (hne : ds ≠ []) (hds : ∀ d ∈ ds, d < 16)
    (hc : scalarOf? (ds.foldl (fun total d => total * 16 + d) value) = some c) :
    readBasicFrom multiline (.scalar ds.length value) (ds.map (digitChar letters) ++ t) =
      consString c (readBasicFrom multiline .content t) := by
  induction ds generalizing value with
  | nil => exact absurd rfl hne
  | cons d ds ih =>
    have hd := digitOf?_digitChar letters (hds d List.mem_cons_self)
    rw [List.foldl_cons, Nat.mul_comm] at hc
    rw [List.map_cons, List.cons_append, readBasicFrom]
    simp only [hd, List.length_cons]
    by_cases hnil : ds = []
    · subst hnil
      rw [List.foldl_nil] at hc
      simp [hc]
    · have hlong : ¬ds.length + 1 ≤ 1 := by
        have := List.length_pos_iff.mpr hnil
        omega
      rw [if_neg hlong, Nat.add_sub_cancel]
      exact ih hnil (fun e he => hds e (List.mem_cons_of_mem d he)) hc

theorem zeroFilled_inBase (letters : LetterCase) (length n : ℕ) :
    zeroFilled length (inBase 16 letters n) =
      (List.replicate (length - (digits 16 n).length) 0 ++ digits 16 n).map
        (digitChar letters) := by
  have hzero : digitChar letters 0 = '0' := rfl
  rw [List.map_append, List.map_replicate, hzero, zeroFilled, inBase, List.length_map]

/-- Four digits are read back as the character that they were written for. -/
theorem readBasicFrom_scalarEscape (letters : LetterCase) (h : c.toNat < 16 ^ 4) (t : Text) :
    readBasicFrom multiline .content (scalarEscape letters c ++ t) =
      consString c (readBasicFrom multiline .content t) := by
  have hlength := length_zeroFilled 4 (length_inBase_le (by decide) letters (by decide) h)
  rw [zeroFilled_inBase, List.length_map] at hlength
  have hstart : readBasicFrom multiline .content (scalarEscape letters c ++ t) =
      readBasicFrom multiline (.scalar 4 0) (zeroFilled 4 (inBase 16 letters c.toNat) ++ t) := by
    simp [scalarEscape, readBasicFrom, escaped?, scalarDigits?]
  rw [hstart, zeroFilled_inBase]
  generalize hds : List.replicate (4 - (digits 16 c.toNat).length) 0 ++ digits 16 c.toNat =
    ds at hlength
  rw [← hlength]
  apply readBasicFrom_digits
  · rw [← hds]
    simp [digits_ne_nil]
  · intro d hd
    rw [← hds, List.mem_append] at hd
    obtain hd | hd := hd
    · rw [(List.mem_replicate.mp hd).2]
      decide
    · exact lt_of_mem_digits (by decide) hd
  · have hvalue : positionalValue 16 ds = c.toNat := by
      rw [← hds, positionalValue_replicate_zero_append, positionalValue_digits (by decide)]
    rw [positionalValue] at hvalue
    rw [hvalue, scalarOf?_toNat]

/-- A written character is read back, whatever stands behind it. -/
theorem readBasicFrom_escape (letters : LetterCase) (c : Char) (t : Text) :
    readBasicFrom false .content (escape letters c ++ t) =
      consString c (readBasicFrom false .content t) := by
  unfold escape
  split
  · next hc => obtain rfl | rfl := hc <;> rfl
  · next hplain =>
    obtain ⟨hquote, hbackslash⟩ := not_or.mp hplain
    split
    · next hcontrol =>
      refine readBasicFrom_scalarEscape letters ?_ t
      simp only [isControl, Bool.or_eq_true, decide_eq_true_eq] at hcontrol
      omega
    · next hcontrol =>
      have hprintable : isPrintable c = true := by
        simp only [isControl, isPrintable, Bool.or_eq_true, Bool.and_eq_true, decide_eq_true_eq]
          at hcontrol ⊢
        omega
      simp [readBasicFrom, hquote, hbackslash, hprintable]

theorem readBasicFrom_flatMap_escape (letters : LetterCase) (t rest : Text) :
    readBasicFrom false .content (t.flatMap (escape letters) ++ '"' :: rest) = some (t, rest) := by
  induction t with
  | nil => rfl
  | cons c t ih =>
    rw [List.flatMap_cons, List.append_assoc, readBasicFrom_escape, ih]
    rfl

theorem head?_escape_append_ne (letters : LetterCase) (c : Char) (t : Text) :
    (escape letters c ++ t).head? ≠ some '"' := by
  unfold escape
  split
  · simp
  · next hplain =>
    split
    · simp [scalarEscape]
    · simpa using fun hquote => hplain (.inl hquote)

/-- A text is read back from its basic string, which goes as far as its own closing quote. -/
theorem readString?_quoted (letters : LetterCase) (t : Text) (h : rest.head? ≠ some '"') :
    readString? (quoted letters t ++ rest) = some (t, rest) := by
  have hline : readLineString? (quoted letters t ++ rest) = some (t, rest) := by
    rw [quoted, List.cons_append, List.append_assoc]
    exact readBasicFrom_flatMap_escape letters t rest
  rw [← hline]
  unfold readString?
  split
  · next u heq =>
    -- Three quotes would open a string on several lines.
    exfalso
    rw [quoted, List.cons_append, List.cons.injEq] at heq
    cases t with
    | nil =>
      cases heq.2
      exact h rfl
    | cons c t =>
      rw [List.flatMap_cons, List.append_assoc, List.append_assoc] at heq
      apply head?_escape_append_ne letters c
      rw [heq.2]
      rfl
  · next heq => cases heq
  · rfl

end TextTemplate.Toml
