import TextTemplate.Proofs.Overflow
import TextTemplate.Rendering.Numbers
import TextTemplate.Toml.Value

/-! The words of TOML truth values and numbers as they are written, and how they are read back: none
of them looks like a date or a time, an integer has no point, and the other numbers have one. -/
namespace TextTemplate.Toml

open Numeral

variable {p : Char → Bool} {n count : ℕ} {negative : Bool} {c : Char} {set : List Char}
variable {t u word rest digits whole fraction : Text}

section DateTime

theorem skipOneOf?_eq_none (h : ∀ c ∈ set, c ∉ t) : skipOneOf? set t = none := by
  cases t with
  | nil => rfl
  | cons c t =>
    have hc : c ∉ set := fun hmem => h c hmem List.mem_cons_self
    rw [skipOneOf?, if_neg hc]

theorem eq_drop_of_readDigits? (h : readDigits? count t = some (n, u)) : u = t.drop count := by
  simp only [readDigits?] at h
  split at h
  · cases h
    rfl
  · cases h

/-- A date has a hyphen behind its four first digits. -/
theorem skipDate?_eq_none (h : '-' ∉ t.drop 4) : skipDate? t = none := by
  unfold skipDate?
  cases hyear : readDigits? 4 t with
  | none => rfl
  | some year =>
    obtain ⟨year, u⟩ := year
    have hnone : skipOneOf? ['-'] u = none := by
      apply skipOneOf?_eq_none
      simpa [eq_drop_of_readDigits? hyear] using h
    simp [hnone]

/-- A time has a colon behind its two first digits. -/
theorem skipTime?_eq_none (h : ':' ∉ t.drop 2) : skipTime? t = none := by
  unfold skipTime?
  cases hhour : readDigits? 2 t with
  | none => rfl
  | some hour =>
    obtain ⟨hour, u⟩ := hour
    have hnone : skipOneOf? [':'] u = none := by
      apply skipOneOf?_eq_none
      simpa [eq_drop_of_readDigits? hhour] using h
    simp [hnone]

theorem isDateTime_eq_false (hdate : '-' ∉ t.drop 4) (htime : ':' ∉ t.drop 2) :
    isDateTime t = false := by
  simp [isDateTime, isDate, skipDate?_eq_none hdate, skipTime?_eq_none htime]

end DateTime

section Digits

theorem ungroup?_eq_some (hne : t ≠ []) (ht : ∀ c ∈ t, c.isDigit = true) :
    ungroup? Char.isDigit t = some t := by
  induction t with
  | nil => exact absurd rfl hne
  | cons c t ih =>
    have hc : c.isDigit = true := ht c List.mem_cons_self
    cases t with
    | nil => simp [ungroup?, hc]
    | cons d t =>
      have hrest := ih (List.cons_ne_nil d t) fun e he => ht e (List.mem_cons_of_mem c he)
      have hd : d ≠ '_' := by
        rintro rfl
        cases ht '_' (List.mem_cons_of_mem c List.mem_cons_self)
      simp [ungroup?, hc, hd, hrest]

/-- Groups of digits hold nothing but digits and underscores. -/
theorem ungroup?_eq_none (hmem : c ∈ t) (hc : p c = false) (hunderscore : c ≠ '_') :
    ungroup? p t = none := by
  fun_induction ungroup? p t with
  | case1 => rfl
  | case2 d hd => exact absurd (List.mem_singleton.mp hmem) (Text.ne_of_apply hd hc).symm
  | case3 d hd => rfl
  | case4 d t hd ih =>
    have hne : c ≠ d := (Text.ne_of_apply hd hc).symm
    have hrest : c ∈ t := by simpa [hne, hunderscore] using hmem
    rw [ih hrest, Option.map_none]
  | case5 d e t hd he ih =>
    have hne : c ≠ d := (Text.ne_of_apply hd hc).symm
    rw [ih ((List.mem_cons.mp hmem).resolve_left hne), Option.map_none]
  | case6 => rfl

theorem wholeDigits?_eq_some (hne : t ≠ []) (ht : ∀ c ∈ t, c.isDigit = true)
    (hzero : NoLeadingZero t) :
    wholeDigits? t = some t := by
  rw [wholeDigits?, ungroup?_eq_some hne ht]
  split
  · next heq =>
    rw [Option.some.injEq] at heq
    subst heq
    cases hzero rfl
  · rfl

end Digits

section Numerals

/-- The characters of written numbers behind their sign. -/
def isNumeralChar (c : Char) : Bool := c.isDigit || c = '.'

theorem mem_withSign (h : c ∈ withSign negative t) : c = '-' ∨ c ∈ t := by
  cases negative with
  | true => exact List.mem_cons.mp h
  | false => exact .inr h

theorem notMem_withSign (ht : ∀ c ∈ t, isNumeralChar c = true) (hminus : c ≠ '-')
    (hc : isNumeralChar c = false) : c ∉ withSign negative t := by
  intro hmem
  have hchar := ht c ((mem_withSign hmem).resolve_left hminus)
  rw [hc] at hchar
  cases hchar

theorem isNumeralChar_of_mem_drop (ht : ∀ c ∈ t, isNumeralChar c = true)
    (h : c ∈ (withSign negative t).drop (n + 1)) : isNumeralChar c = true := by
  cases negative with
  | true => exact ht c (List.mem_of_mem_drop h)
  | false => exact ht c (List.mem_of_mem_drop h)

theorem isDateTime_withSign (ht : ∀ c ∈ t, isNumeralChar c = true) :
    isDateTime (withSign negative t) = false := by
  apply isDateTime_eq_false
  · intro hmem
    cases isNumeralChar_of_mem_drop ht hmem
  · intro hmem
    cases isNumeralChar_of_mem_drop ht hmem

theorem valueOfWord?_withSign (ht : ∀ c ∈ t, isNumeralChar c = true) :
    valueOfWord? (withSign negative t) =
      match integerOfWord? (withSign negative t), floatOfWord? (withSign negative t) with
      | some n, _ => some (.integer n)
      | none, some x => some (.float x)
      | none, none => none := by
  have hletter : 'e' ∉ withSign negative t := notMem_withSign ht (by decide) rfl
  have htrue : withSign negative t ≠ "true".toList := by
    intro heq
    rw [heq] at hletter
    exact hletter (by decide)
  have hfalse : withSign negative t ≠ "false".toList := by
    intro heq
    rw [heq] at hletter
    exact hletter (by decide)
  rw [valueOfWord?, if_neg htrue, if_neg hfalse, isDateTime_withSign ht]
  rfl

theorem baseOf?_eq_none (hc : isNumeralChar c = true) : baseOf? c = none := by
  unfold baseOf?
  split_ifs with hx ho hb
  · subst hx
    cases hc
  · subst ho
    cases hc
  · subst hb
    cases hc
  · rfl

theorem basedNumber?_withSign (ht : ∀ c ∈ t, isNumeralChar c = true) :
    basedNumber? (withSign negative t) = none := by
  generalize hword : withSign negative t = word
  unfold basedNumber?
  split
  · next mark t =>
    have hmark : isNumeralChar mark = true := by
      apply isNumeralChar_of_mem_drop (n := 0) ht
      rw [hword]
      exact List.mem_cons_self
    rw [baseOf?_eq_none hmark]
    rfl
  · rfl

theorem takeSign_withSign (hne : digits ≠ []) (hdigits : ∀ c ∈ digits, c.isDigit = true)
    (t : Text) :
    SignedNumeral.takeSign (withSign negative (digits ++ t)) = (negative, digits ++ t) := by
  rw [withSign_append]
  exact SignedNumeral.takeSign_withSign_append negative hne hdigits t

/-- An integer is read back from its decimal numeral. -/
theorem valueOfWord?_decimal (n : Integer .signed64) :
    valueOfWord? n.decimal = some (.integer n) := by
  have hchars : ∀ c ∈ Numeral.decimal n.value.natAbs, isNumeralChar c = true := by
    intro c hc
    simp [isNumeralChar, isDigit_of_mem_decimal hc]
  have hbased : basedNumber? (ofInt n.value) = none := basedNumber?_withSign hchars
  have hsign := SignedNumeral.takeSign_ofInt_append n.value []
  rw [List.append_nil, List.append_nil] at hsign
  have hwhole :=
    wholeDigits?_eq_some (decimal_ne_nil n.value.natAbs) (fun _ => isDigit_of_mem_decimal)
    (noLeadingZero_inBase (by decide) (by decide) .lower _)
  have hinteger : integerOfWord? (ofInt n.value) = some n := by
    simp only [integerOfWord?, hbased, hsign, hwhole, Option.bind_some, ofDecimal_decimal,
      SignedNumeral.value_natAbs, Integer.ofInt?_eq_some_iff]
  rw [ofInt] at hinteger
  rw [Integer.decimal, ofInt, valueOfWord?_withSign hchars, hinteger]

theorem decimalOfWord?_pointed (hwhole : whole ≠ []) (hfraction : fraction ≠ [])
    (hdigits : ∀ c ∈ whole ++ fraction, c.isDigit = true) (hzero : NoLeadingZero whole) :
    decimalOfWord? (withSign negative (whole ++ '.' :: fraction)) =
      some ⟨negative, ofDecimal (whole ++ fraction), 0 - fraction.length⟩ := by
  have hwholeDigits : ∀ c ∈ whole, c.isDigit = true :=
    fun c hc => hdigits c (List.mem_append_left _ hc)
  have hfractionDigits : ∀ c ∈ fraction, c.isDigit = true :=
    fun c hc => hdigits c (List.mem_append_right _ hc)
  have hgroup {t : Text} (ht : ∀ c ∈ t, c.isDigit = true) :
      ∀ c ∈ t, (c.isDigit || decide (c = '_')) = true := by
    intro c hc
    simp [ht c hc]
  have hstop : Text.StopsAt (fun c => c.isDigit || decide (c = '_')) ('.' :: fraction) :=
    Text.stopsAt_cons rfl
  have hread : readDigitGroups? fraction = some (fraction, []) := by
    have htake := List.takeWhile_eq_self_iff.mpr (hgroup hfractionDigits)
    have hdrop := List.dropWhile_eq_nil_iff.mpr (hgroup hfractionDigits)
    simp only [readDigitGroups?, htake, hdrop, ungroup?_eq_some hfraction hfractionDigits,
      Option.map_some]
  have hpoint : (whole ++ '.' :: fraction).all (fun c => c.isDigit || decide (c = '_')) =
      false := by
    simp
  simp [decimalOfWord?, takeSign_withSign hwhole hwholeDigits,
    Text.takeWhile_append (hgroup hwholeDigits) hstop,
    Text.dropWhile_append (hgroup hwholeDigits) hstop,
    wholeDigits?_eq_some hwhole hwholeDigits hzero, readFraction?, hread, exponentOf?, hpoint]

theorem integerOfWord?_eq_none (hbased : basedNumber? word = none)
    (hsign : SignedNumeral.takeSign word = (negative, t)) (hpoint : '.' ∈ t) :
    integerOfWord? word = none := by
  have hnone : wholeDigits? t = none := by
    rw [wholeDigits?, ungroup?_eq_none hpoint rfl (by decide)]
  simp only [integerOfWord?, hbased, hsign, hnone, Option.bind_none]

theorem specialOfWord?_eq_none (hsign : SignedNumeral.takeSign word = (negative, t))
    (hpoint : '.' ∈ t) : specialOfWord? word = none := by
  have hinf : t ≠ "inf".toList := ne_of_mem_of_not_mem' hpoint (by decide)
  have hnan : t ≠ "nan".toList := ne_of_mem_of_not_mem' hpoint (by decide)
  simp only [specialOfWord?, hsign, if_neg hinf, if_neg hnan]

theorem floatOfWord?_eq_some {d : Decimal} {m : Magnitude .double}
    (hspecial : specialOfWord? word = none)
    (hdecimal : decimalOfWord? word = some d) (hnearest : d.nearest = .finite negative m) :
    floatOfWord? word = some (.finite negative m) := by
  have hfinite : d.nearest ≠ .infinite false := by
    rw [hnearest]
    intro h
    cases h
  rw [floatOfWord?, hspecial, hdecimal, Option.bind_some, if_neg hfinite, hnearest]

theorem isNumeralChar_of_mem_expansion (m : Magnitude .double) :
    ∀ c ∈ m.expansion, isNumeralChar c = true := by
  have hdigits := m.isDigit_of_mem_expansion
  intro c hc
  rw [Magnitude.expansion, List.append_cons, List.append_assoc] at hc
  simp only [List.mem_append, List.mem_cons, List.not_mem_nil, or_false] at hc
  rcases hc with hc | rfl | hc
  · simp [isNumeralChar, hdigits c (List.mem_append_left _ hc)]
  · rfl
  · simp [isNumeralChar, hdigits c (List.mem_append_right _ hc)]

/-- A floating-point number is read back from its exact expansion, zero with its sign. -/
theorem valueOfWord?_expansion (negative : Bool) (m : Magnitude .double) :
    valueOfWord? (withSign negative m.expansion) = some (.float (.finite negative m)) := by
  have hwhole := m.isPlain_expansion.ne_nil
  have hdigits := m.isDigit_of_mem_expansion
  have hchars := isNumeralChar_of_mem_expansion m
  have hpoint : '.' ∈ m.expansion := List.mem_append_right _ List.mem_cons_self
  have hsign : SignedNumeral.takeSign (withSign negative m.expansion) = (negative, m.expansion) :=
    takeSign_withSign hwhole (fun c hc => hdigits c (List.mem_append_left _ hc)) _
  have hdecimal : decimalOfWord? (withSign negative m.expansion) =
      some ⟨negative, ofDecimal (m.wholeDigits ++ m.fraction), 0 - m.fraction.length⟩ :=
    decimalOfWord?_pointed hwhole m.fraction_ne_nil hdigits m.isPlain_expansion.noLeadingZero
  have hfloat : floatOfWord? (withSign negative m.expansion) = some (.finite negative m) :=
    floatOfWord?_eq_some (specialOfWord?_eq_none hsign hpoint) hdecimal
      (Decimal.nearest_eq_finite (Decimal.value_toRatio_expansion negative m))
  rw [valueOfWord?_withSign hchars,
    integerOfWord?_eq_none (basedNumber?_withSign hchars) hsign hpoint, hfloat]

end Numerals

section Words

/-- A floating-point number as a word: an exact expansion, or the name of what has none. -/
def floatWord : Double → Text
  | .nan => "nan".toList
  | .infinite negative => withSign negative "inf".toList
  | .finite negative m => withSign negative m.expansion

theorem valueOfWord?_floatWord (x : Double) : valueOfWord? (floatWord x) = some (.float x) := by
  cases x with
  | nan => rfl
  | infinite negative => cases negative <;> rfl
  | finite negative m => exact valueOfWord?_expansion negative m

theorem valueOfWord?_boolWord (b : Bool) :
    valueOfWord? (Rendering.boolWord b) = some (.boolean b) := by
  cases b <;> rfl

theorem isWordChar_of_isNumeralChar (h : isNumeralChar c = true) : isWordChar c = true := by
  simp only [isNumeralChar, Bool.or_eq_true, decide_eq_true_eq] at h
  rcases h with h | rfl
  · simp [isWordChar, Char.isAlphanum, h]
  · rfl

theorem isWordChar_of_mem_withSign (ht : ∀ c ∈ t, isNumeralChar c = true) :
    ∀ c ∈ withSign negative t, isWordChar c = true := by
  intro c hc
  rcases mem_withSign hc with rfl | hc
  · rfl
  · exact isWordChar_of_isNumeralChar (ht c hc)

theorem isWordChar_of_mem_decimal (n : Integer .signed64) :
    ∀ c ∈ n.decimal, isWordChar c = true := by
  apply isWordChar_of_mem_withSign
  intro c hc
  simp [isNumeralChar, isDigit_of_mem_decimal hc]

theorem isWordChar_of_mem_floatWord (x : Double) : ∀ c ∈ floatWord x, isWordChar c = true := by
  cases x with
  | nan => exact List.all_eq_true.mp rfl
  | infinite negative => cases negative <;> exact List.all_eq_true.mp rfl
  | finite negative m => exact isWordChar_of_mem_withSign (isNumeralChar_of_mem_expansion m)

theorem isWordChar_of_mem_boolWord (b : Bool) :
    ∀ c ∈ Rendering.boolWord b, isWordChar c = true := by
  cases b <;> exact List.all_eq_true.mp rfl

/-- A word is read as far as it goes; a space behind it would bring a date together with its
time. -/
theorem readWord?_append {v : Value} (hword : ∀ c ∈ word, isWordChar c = true)
    (hrest : Text.StopsAt isWordChar rest) (hspace : rest.head? ≠ some ' ')
    (h : valueOfWord? word = some v) :
    readWord? (word ++ rest) = some (v, rest) := by
  simp [readWord?, Text.takeWhile_append hword hrest, Text.dropWhile_append hword hrest, hspace, h]

end Words

end TextTemplate.Toml
