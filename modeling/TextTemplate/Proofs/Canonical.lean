import TextTemplate.Proofs.Fraction

/-! Canonical numerals: runs of digits of one length tell numbers apart, so a number has a single
plain numeral and a single written exponent. -/
namespace TextTemplate.Numeral

variable {n : ℕ} {c d : Char} {s t whole fraction : Text} {q : ℚ}

/-- A number falls into a multiple of a unit and a rest below it in one way. -/
theorem eq_and_eq_of_mul_add_eq {unit a b x y : ℕ} (hx : x < unit) (hy : y < unit)
    (h : a * unit + x = b * unit + y) : a = b ∧ x = y := by
  have hunit : 0 < unit := Nat.zero_lt_of_lt hx
  have hdiv := congrArg (· / unit) h
  simp only [Nat.mul_comm _ unit, Nat.mul_add_div hunit, Nat.div_eq_of_lt hx, Nat.div_eq_of_lt hy,
    Nat.add_zero] at hdiv
  subst hdiv
  exact ⟨rfl, Nat.add_left_cancel h⟩

theorem eq_of_digit_eq (hc : c.isDigit = true) (hd : d.isDigit = true)
    (h : c.toNat - '0'.toNat = d.toNat - '0'.toNat) : c = d := by
  have hc := isDigit_iff_toNat.mp hc
  have hd := isDigit_iff_toNat.mp hd
  exact Char.toNat_inj.mp (by omega)

theorem ofDecimal_cons (c : Char) (t : Text) :
    ofDecimal (c :: t) = (c.toNat - '0'.toNat) * 10 ^ t.length + ofDecimal t := by
  rw [← List.singleton_append, ofDecimal_append]
  simp [ofDecimal, positionalValue]

theorem ofDecimal_lt (ht : ∀ c ∈ t, c.isDigit = true) : ofDecimal t < 10 ^ t.length := by
  induction t with
  | nil => exact Nat.one_pos
  | cons c t ih =>
    have hc := isDigit_iff_toNat.mp (ht c List.mem_cons_self)
    have hrest := ih fun d hd => ht d (List.mem_cons_of_mem c hd)
    rw [ofDecimal_cons, List.length_cons, Nat.pow_succ]
    calc (c.toNat - '0'.toNat) * 10 ^ t.length + ofDecimal t
        < (c.toNat - '0'.toNat) * 10 ^ t.length + 10 ^ t.length := by omega
      _ = (c.toNat - '0'.toNat + 1) * 10 ^ t.length := by ring
      _ ≤ 10 * 10 ^ t.length := Nat.mul_le_mul_right _ (by omega)
      _ = 10 ^ t.length * 10 := Nat.mul_comm _ _

theorem eq_of_ofDecimal_eq (hs : ∀ c ∈ s, c.isDigit = true) (ht : ∀ c ∈ t, c.isDigit = true)
    (hlength : s.length = t.length) (h : ofDecimal s = ofDecimal t) : s = t := by
  induction s generalizing t with
  | nil => exact (List.length_eq_zero_iff.mp hlength.symm).symm
  | cons c s ih =>
    obtain ⟨d, t, rfl⟩ := List.exists_cons_of_length_eq_add_one hlength.symm
    have hlength : s.length = t.length := Nat.succ.inj hlength
    have hsrest : ∀ c ∈ s, c.isDigit = true := fun c hc => hs c (List.mem_cons_of_mem _ hc)
    have htrest : ∀ c ∈ t, c.isDigit = true := fun c hc => ht c (List.mem_cons_of_mem _ hc)
    rw [ofDecimal_cons, ofDecimal_cons, hlength] at h
    obtain ⟨hhead, hrest⟩ :=
      eq_and_eq_of_mul_add_eq (hlength ▸ ofDecimal_lt hsrest) (ofDecimal_lt htrest) h
    rw [eq_of_digit_eq (hs c List.mem_cons_self) (ht d List.mem_cons_self) hhead,
      ih hsrest htrest hlength hrest]

/-- A run of digits that is longer than another and starts with no zero denotes a greater number. -/
theorem length_le_of_ofDecimal_eq (hs : ∀ c ∈ s, c.isDigit = true) (ht : ∀ c ∈ t, c.isDigit = true)
    (hhead : s.length < t.length → t.head? ≠ some '0') (h : ofDecimal s = ofDecimal t) :
    t.length ≤ s.length := by
  by_contra hlt
  have hlt : s.length < t.length := Nat.lt_of_not_le hlt
  obtain ⟨d, u, rfl⟩ := List.exists_cons_of_length_pos (Nat.zero_lt_of_lt hlt)
  have hd : d.isDigit = true := ht d List.mem_cons_self
  have hnonzero : d.toNat - '0'.toNat ≠ 0 := by
    intro hzero
    have heq : d = '0' := eq_of_digit_eq hd rfl hzero
    exact hhead hlt (by rw [heq, List.head?_cons])
  have hlow : 10 ^ u.length ≤ ofDecimal (d :: u) := by
    rw [ofDecimal_cons]
    calc 10 ^ u.length = 1 * 10 ^ u.length := (Nat.one_mul _).symm
      _ ≤ (d.toNat - '0'.toNat) * 10 ^ u.length :=
        Nat.mul_le_mul_right _ (Nat.pos_of_ne_zero hnonzero)
      _ ≤ (d.toNat - '0'.toNat) * 10 ^ u.length + ofDecimal u := Nat.le_add_right _ _
  have hhigh : ofDecimal s < 10 ^ s.length := ofDecimal_lt hs
  have hpow : 10 ^ s.length ≤ 10 ^ u.length :=
    Nat.pow_le_pow_right (by decide) (Nat.le_of_lt_succ hlt)
  omega

theorem IsExponent.unique (hs : IsExponent s n) (ht : IsExponent t n) : s = t := by
  have hvalue : ofDecimal s = ofDecimal t := hs.value.trans ht.value.symm
  have hle := length_le_of_ofDecimal_eq hs.isDigit ht.isDigit
    (fun hlt => ht.head?_ne (lt_of_le_of_lt hs.two_le_length hlt)) hvalue
  have hge := length_le_of_ofDecimal_eq ht.isDigit hs.isDigit
    (fun hlt => hs.head?_ne (lt_of_le_of_lt ht.two_le_length hlt)) hvalue.symm
  exact eq_of_ofDecimal_eq hs.isDigit ht.isDigit (Nat.le_antisymm hge hle) hvalue

/-- Two runs of digits without a superfluous zero in front that denote the same number are the
same. -/
theorem eq_of_noLeadingZero (hs : ∀ c ∈ s, c.isDigit = true) (ht : ∀ c ∈ t, c.isDigit = true)
    (hsne : s ≠ []) (htne : t ≠ []) (hszero : NoLeadingZero s) (htzero : NoLeadingZero t)
    (h : ofDecimal s = ofDecimal t) : s = t := by
  have hhead {s t : Text} (hsne : s ≠ []) (htzero : NoLeadingZero t) (hlt : s.length < t.length) :
      t.head? ≠ some '0' := by
    intro hzero
    have hpos : 0 < s.length := List.length_pos_iff.mpr hsne
    rw [htzero hzero, List.length_singleton] at hlt
    omega
  have hle := length_le_of_ofDecimal_eq hs ht (hhead hsne htzero) h
  have hge := length_le_of_ofDecimal_eq ht hs (hhead htne hszero) h.symm
  exact eq_of_ofDecimal_eq hs ht (Nat.le_antisymm hge hle) h

/-- The value of the last digit is what the number leaves in tens. -/
theorem ofDecimal_append_singleton (t : Text) (c : Char) :
    ofDecimal (t ++ [c]) = ofDecimal t * 10 + (c.toNat - '0'.toNat) := by
  rw [ofDecimal_append]
  simp [ofDecimal, positionalValue]

/-- A longer fraction would end in a zero. -/
theorem IsPlain.length_fraction_le {whole' fraction' : Text} (h : IsPlain whole fraction q)
    (h' : IsPlain whole' fraction' q) : fraction'.length ≤ fraction.length := by
  by_contra hlt
  obtain ⟨gap, hgap⟩ : ∃ gap, fraction'.length = fraction.length + (gap + 1) :=
    ⟨fraction'.length - fraction.length - 1, by omega⟩
  have hvalue : ofDecimal (whole' ++ fraction') =
      ofDecimal (whole ++ fraction) * 10 ^ (gap + 1) := by
    have hcast : (ofDecimal (whole' ++ fraction') : ℚ) =
        ofDecimal (whole ++ fraction) * 10 ^ (gap + 1) := by
      rw [← h'.value, ← h.value, hgap, pow_add, mul_assoc]
    exact_mod_cast hcast
  obtain rfl | ⟨u, c, rfl⟩ := List.eq_nil_or_concat fraction'
  · exact absurd hgap (by simp)
  have hc : c.isDigit = true := h'.isDigit c (by simp)
  have hne : c ≠ '0' := by
    rintro rfl
    exact h'.getLast?_ne (by simp)
  have hbounds := isDigit_iff_toNat.mp hc
  rw [List.concat_eq_append, ← List.append_assoc, ofDecimal_append_singleton, Nat.pow_succ,
    ← Nat.mul_assoc] at hvalue
  exact hne (eq_of_digit_eq hc rfl (by omega))

/-- The digits on both sides of a point are told by the number that they make up and by how many of
them stand behind it. -/
theorem eq_and_eq_of_ofDecimal_append_eq {whole' fraction' : Text}
    (hdigits : ∀ c ∈ whole ++ fraction, c.isDigit = true)
    (hdigits' : ∀ c ∈ whole' ++ fraction', c.isDigit = true) (hne : whole ≠ []) (hne' : whole' ≠ [])
    (hzero : NoLeadingZero whole) (hzero' : NoLeadingZero whole')
    (hlength : fraction.length = fraction'.length)
    (hvalue : ofDecimal (whole ++ fraction) = ofDecimal (whole' ++ fraction')) :
    whole = whole' ∧ fraction = fraction' := by
  have hfraction : ∀ c ∈ fraction, c.isDigit = true :=
    fun c hc => hdigits c (List.mem_append_right _ hc)
  have hfraction' : ∀ c ∈ fraction', c.isDigit = true :=
    fun c hc => hdigits' c (List.mem_append_right _ hc)
  rw [ofDecimal_append, ofDecimal_append, hlength] at hvalue
  obtain ⟨hwhole, hrest⟩ :=
    eq_and_eq_of_mul_add_eq (hlength ▸ ofDecimal_lt hfraction) (ofDecimal_lt hfraction') hvalue
  constructor
  · exact eq_of_noLeadingZero (fun c hc => hdigits c (List.mem_append_left _ hc))
      (fun c hc => hdigits' c (List.mem_append_left _ hc)) hne hne' hzero hzero' hwhole
  · exact eq_of_ofDecimal_eq hfraction hfraction' hlength hrest

/-- A number has one plain numeral. -/
theorem IsPlain.unique {whole' fraction' : Text} (h : IsPlain whole fraction q)
    (h' : IsPlain whole' fraction' q) : whole = whole' ∧ fraction = fraction' := by
  have hlength : fraction.length = fraction'.length :=
    Nat.le_antisymm (h'.length_fraction_le h) (h.length_fraction_le h')
  have hvalue : ofDecimal (whole ++ fraction) = ofDecimal (whole' ++ fraction') := by
    have hcast : (ofDecimal (whole ++ fraction) : ℚ) = ofDecimal (whole' ++ fraction') := by
      rw [← h.value, ← h'.value, hlength]
    exact_mod_cast hcast
  exact eq_and_eq_of_ofDecimal_append_eq h.isDigit h'.isDigit h.ne_nil h'.ne_nil h.noLeadingZero
    h'.noLeadingZero hlength hvalue

end TextTemplate.Numeral
