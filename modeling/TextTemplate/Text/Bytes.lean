import TextTemplate.Text

/-! The UTF-8 bytes of texts, and the parts of a text in front of a byte position and behind it. -/
namespace TextTemplate.Text

variable {s t : Text} {c : Char}

/-- The UTF-8 form of a text. -/
def bytes (t : Text) : List UInt8 := t.flatMap String.utf8EncodeChar

/-- The characters in front of a byte position, if it lies between two characters. -/
def upToByte? (t : Text) (position : Nat) : Option Text := (t.splitAtByte? position).map Prod.fst

/-- The characters behind a byte position, if it lies between two characters. -/
def fromByte? (t : Text) (position : Nat) : Option Text := (t.splitAtByte? position).map Prod.snd

/-- The byte positions at which the characters of a text start, the first of them at a given one. -/
def positionsFrom (start : Nat) : Text → List Nat
  | [] => []
  | c :: t => start :: positionsFrom (start + c.utf8Size) t

/-- The characters up to where the last one starts. -/
def upToLast? (t : Text) : Option Text :=
  match (positionsFrom 0 t).getLast? with
  | none => some []
  | some last => t.upToByte? last

@[simp] theorem bytes_nil : bytes [] = [] := rfl

@[simp] theorem bytes_cons : bytes (c :: t) = String.utf8EncodeChar c ++ bytes t := rfl

theorem upToByte?_append : (s ++ t).upToByte? s.byteLength = some s := by
  rw [upToByte?, splitAtByte?_byteLength, Option.map_some]

theorem fromByte?_cons (h : c.utf8Size = 1) : fromByte? (c :: t) 1 = some t := by
  have hsplit := splitAtByte?_byteLength (s := [c]) (t := t)
  rw [byteLength_cons, byteLength_nil, h] at hsplit
  rw [fromByte?, ← List.singleton_append, hsplit, Option.map_some]

theorem fromByte?_cons_of_ne (h : c.utf8Size ≠ 1) : fromByte? (c :: t) 1 = none := by
  have hpos := c.utf8Size_pos
  have hlong : ¬ c.utf8Size ≤ 0 + 1 := by omega
  rw [fromByte?, splitAtByte?, if_neg hlong, Option.map_none]

theorem positionsFrom_append_singleton (start : Nat) (t : Text) (c : Char) :
    positionsFrom start (t ++ [c]) = positionsFrom start t ++ [start + byteLength t] := by
  induction t generalizing start with
  | nil => rfl
  | cons d t ih => simp [positionsFrom, ih, Nat.add_assoc]

/-- What ends where the last character starts is the text without that character. -/
theorem upToLast?_eq_some (t : Text) : t.upToLast? = some t.dropLast := by
  by_cases h : t = []
  · rw [h]
    rfl
  · have hlast : positionsFrom 0 t = positionsFrom 0 t.dropLast ++ [byteLength t.dropLast] := by
      have hconcat := positionsFrom_append_singleton 0 t.dropLast (t.getLast h)
      rwa [List.dropLast_concat_getLast, Nat.zero_add] at hconcat
    have hcut := upToByte?_append (s := t.dropLast) (t := [t.getLast h])
    rw [List.dropLast_concat_getLast] at hcut
    rw [upToLast?, hlast, List.getLast?_concat]
    exact hcut

/-- A character of one byte is that byte, and every other one starts with a byte above all of
those. -/
theorem utf8EncodeChar_cases (c : Char) :
    c.utf8Size = 1 ∧ (∃ b, String.utf8EncodeChar c = [b] ∧ b.toNat = c.toNat) ∧ c.toNat < 128 ∨
      (∃ b rest, String.utf8EncodeChar c = b :: rest ∧ 128 ≤ b.toNat) ∧ 128 ≤ c.toNat := by
  have hsize : c.utf8Size = 1 ↔ c.toNat ≤ 127 := Char.utf8Size_eq_one_iff
  by_cases h : c.toNat ≤ 127
  · left
    refine ⟨hsize.mpr h, ⟨_, String.utf8EncodeChar_eq_singleton (hsize.mpr h), ?_⟩, by omega⟩
    exact Nat.mod_eq_of_lt (Nat.lt_of_le_of_lt h (by decide))
  · right
    refine ⟨?_, by omega⟩
    have hval : ¬ c.val.toNat ≤ 127 := h
    unfold String.utf8EncodeChar
    simp only [if_neg hval]
    split
    · exact ⟨_, _, rfl, by rw [UInt8.toNat_ofNat']; omega⟩
    · split
      · exact ⟨_, _, rfl, by rw [UInt8.toNat_ofNat']; omega⟩
      · exact ⟨_, _, rfl, by rw [UInt8.toNat_ofNat']; omega⟩

end TextTemplate.Text
