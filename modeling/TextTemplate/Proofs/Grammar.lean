import Mathlib.Data.List.TakeWhile
import TextTemplate.Proofs.Numeral
import TextTemplate.Proofs.Placeholder

/-! The grammar of placeholder bodies: a number, a second one behind a comma, and the specification
behind a colon. Bodies are read exactly as the grammar has them. -/
namespace TextTemplate

/-- A number as it stands in a text: blanks, at most one sign, and digits. -/
structure WrittenNumber where
  blanks : Text
  sign : Text
  digits : Text
  isAsciiBlank : ∀ c ∈ blanks, Text.isAsciiBlank c = true
  sign_cases : sign = [] ∨ sign = ['+'] ∨ sign = ['-']
  ne_nil : digits ≠ []
  isDigit : ∀ c ∈ digits, c.isDigit = true

namespace WrittenNumber

def text (n : WrittenNumber) : Text := n.blanks ++ (n.sign ++ n.digits)

def negative (n : WrittenNumber) : Bool := n.sign = ['-']

def magnitude (n : WrittenNumber) : Nat := Numeral.ofDecimal n.digits

/-- The whole number that is denoted; a minus sign in front of zeros changes nothing. -/
def value (n : WrittenNumber) : Int := SignedNumeral.value ⟨n.negative, n.magnitude⟩

/-- The index that a number denotes: one of 64 bits, and zero alone may have a minus sign. -/
def index? (n : WrittenNumber) : Option Nat :=
  if n.magnitude < 18446744073709551616 ∧ (n.negative = true → n.magnitude = 0)
  then some n.magnitude
  else none

/-- The alignment that a number denotes: its sign tells the side, and zero asks for none. The width
is held within the range of signed numbers of 64 bits. -/
def alignment (n : WrittenNumber) : Alignment :=
  if n.magnitude = 0 then .none
  else if n.negative then .left (min n.magnitude 9223372036854775808)
  else .right (min n.magnitude 9223372036854775807)

end WrittenNumber

namespace SignedNumeral

variable {t rest : Text} {k : SignedNumeral}

theorem exists_sign_append_takeSign (t : Text) :
    ∃ sign : Text, (sign = [] ∨ sign = ['+'] ∨ sign = ['-']) ∧ t = sign ++ (takeSign t).2 ∧
      (takeSign t).1 = decide (sign = ['-']) := by
  unfold takeSign
  split
  · exact ⟨['-'], by simp⟩
  · exact ⟨['+'], by simp⟩
  · exact ⟨[], by simp⟩

theorem takeSign_sign_append (n : WrittenNumber) (rest : Text) :
    takeSign (n.sign ++ (n.digits ++ rest)) = (n.negative, n.digits ++ rest) :=
  takeSign_append n.sign_cases (head?_append_ne_of_isDigit n.ne_nil n.isDigit rfl)
    (head?_append_ne_of_isDigit n.ne_nil n.isDigit rfl)

theorem stopsAt_sign_append (n : WrittenNumber) (rest : Text) :
    Text.StopsAt Text.isAsciiBlank (n.sign ++ (n.digits ++ rest)) := by
  obtain ⟨d, ds, hdigits⟩ := List.exists_cons_of_ne_nil n.ne_nil
  have hd : d.isDigit = true := n.isDigit d (hdigits ▸ List.mem_cons_self)
  obtain hsign | hsign | hsign := n.sign_cases
  · rw [hsign, hdigits]
    exact Text.stopsAt_cons (not_isAsciiBlank_of_isDigit hd)
  · rw [hsign]
    exact Text.stopsAt_cons rfl
  · rw [hsign]
    exact Text.stopsAt_cons rfl

/-- A number is read as far as its digits go. -/
theorem read?_text_append (n : WrittenNumber) (h : Text.StopsAt Char.isDigit rest) :
    read? (n.text ++ rest) = some (⟨n.negative, n.magnitude⟩, rest) := by
  rw [WrittenNumber.text, List.append_assoc, List.append_assoc, read?,
    Text.dropWhile_append n.isAsciiBlank (stopsAt_sign_append n rest)]
  exact readUnpadded?_of_takeSign (takeSign_sign_append n rest) n.ne_nil n.isDigit h

/-- What is read is a number up to the end of its digits. -/
theorem exists_text_append_of_read? (h : read? t = some (k, rest)) :
    ∃ n : WrittenNumber, t = n.text ++ rest ∧ k = ⟨n.negative, n.magnitude⟩ ∧
      Text.StopsAt Char.isDigit rest := by
  unfold read? readUnpadded? at h
  simp only at h
  split at h
  · cases h
  · next hne =>
    cases h
    obtain ⟨sign, hsign, htext, hnegative⟩ :=
      exists_sign_append_takeSign (t.dropWhile Text.isAsciiBlank)
    refine ⟨⟨t.takeWhile Text.isAsciiBlank, sign, _, fun c => List.mem_takeWhile_imp, hsign, hne,
      fun c => List.mem_takeWhile_imp⟩, ?_, ?_, Text.stopsAt_dropWhile _⟩
    · rw [WrittenNumber.text, List.append_assoc, List.append_assoc, List.takeWhile_append_dropWhile,
        ← htext, List.takeWhile_append_dropWhile]
    · rw [hnegative]
      rfl

/-- A number is read off exactly the texts that start with one; its digits are all that follow. -/
theorem exists_read?_iff :
    (∃ k rest, read? t = some (k, rest)) ↔ ∃ n : WrittenNumber, n.text <+: t := by
  constructor
  · rintro ⟨k, rest, h⟩
    obtain ⟨n, rfl, -, -⟩ := exists_text_append_of_read? h
    exact ⟨n, List.prefix_append _ _⟩
  · rintro ⟨n, u, rfl⟩
    -- The digits behind the number belong to a longer one.
    have hdigits : ∀ c ∈ n.digits ++ u.takeWhile Char.isDigit, c.isDigit = true := by
      intro c hc
      obtain hc | hc := List.mem_append.mp hc
      · exact n.isDigit c hc
      · exact List.mem_takeWhile_imp hc
    let longest : WrittenNumber :=
      ⟨n.blanks, n.sign, n.digits ++ u.takeWhile Char.isDigit, n.isAsciiBlank, n.sign_cases,
        by simp [n.ne_nil], hdigits⟩
    have htext : n.text ++ u = longest.text ++ u.dropWhile Char.isDigit := by
      simp [longest, WrittenNumber.text, List.takeWhile_append_dropWhile]
    rw [htext]
    exact ⟨_, _, read?_text_append longest (Text.stopsAt_dropWhile u)⟩

theorem read?_eq_none_iff : read? t = none ↔ ¬∃ n : WrittenNumber, n.text <+: t := by
  rw [← exists_read?_iff, Option.eq_none_iff_forall_ne_some, Prod.forall, not_exists]
  exact forall_congr' fun k => not_exists.symm

end SignedNumeral

open SignedNumeral

/-- The alignment that stands in front of a rest: none without a comma, none for a comma without a
number behind it, and else that of the longest number behind the comma. -/
inductive AlignmentPart : Text → Alignment → Text → Prop
  | absent {rest : Text} (h : rest.head? ≠ some ',') : AlignmentPart rest .none rest
  | withoutNumber {rest : Text} (h : ¬ ∃ n : WrittenNumber, n.text <+: rest) :
      AlignmentPart (',' :: rest) .none rest
  | number {rest : Text} (n : WrittenNumber) (h : Text.StopsAt Char.isDigit rest) :
      AlignmentPart (',' :: (n.text ++ rest)) n.alignment rest

/-- The specification of what is left of a body: all of it behind a colon, and nothing without
one. -/
inductive SpecPart : Text → Text → Prop
  | absent {rest : Text} (h : rest.head? ≠ some ':') : SpecPart rest []
  | present (spec : Text) : SpecPart (':' :: spec) spec

/-- The longest number in front is the index, then come the alignment and the specification. -/
inductive BodyGrammar : Text → Placeholder → Prop
  | intro {rest behind spec : Text} {a : Alignment} (n : WrittenNumber)
      (hrest : Text.StopsAt Char.isDigit rest) (halignment : AlignmentPart rest a behind)
      (hspec : SpecPart behind spec) :
      BodyGrammar (n.text ++ rest) ⟨n.index?, a, spec⟩

namespace Alignment

theorem ofWidth_natCast (k : Nat) : ofWidth k = if k = 0 then .none else .right k := by
  by_cases hk : k = 0
  · simp [ofWidth, hk]
  · simp [ofWidth, hk, Nat.pos_of_ne_zero hk]

theorem ofWidth_neg_natCast (k : Nat) : ofWidth (-k) = if k = 0 then .none else .left k := by
  by_cases hk : k = 0
  · simp [ofWidth, hk]
  · rw [ofWidth, if_neg (by omega), if_pos (by omega), if_neg hk, Int.natAbs_neg,
      Int.natAbs_natCast]

end Alignment

namespace Placeholder

variable {a : Alignment} {p : Placeholder} {body t rest spec : Text}

theorem indexOf?_eq_index? (n : WrittenNumber) : indexOf? ⟨n.negative, n.magnitude⟩ = n.index? := by
  have hsign : 0 ≤ SignedNumeral.value ⟨n.negative, n.magnitude⟩ ↔
      (n.negative = true → n.magnitude = 0) := by
    cases hn : n.negative <;> simp [SignedNumeral.value]
  simp only [indexOf?, WrittenNumber.index?, hsign]
  rfl

/-- Widths beyond the range of 64 bits are read as the outermost ones on their side. -/
theorem alignmentOf_eq_alignment (n : WrittenNumber) :
    alignmentOf ⟨n.negative, n.magnitude⟩ = n.alignment := by
  unfold WrittenNumber.alignment
  generalize n.magnitude = m
  cases n.negative with
  | false =>
    have hwidth : alignmentOf ⟨false, m⟩ = .ofWidth (min m 9223372036854775807 : Nat) := by
      simp only [alignmentOf, SignedNumeral.value, widthLimit, Bool.false_eq_true, if_false]
      congr 1
      omega
    have hzero : min m 9223372036854775807 = 0 ↔ m = 0 := by omega
    simp only [hwidth, Alignment.ofWidth_natCast, hzero]
    rfl
  | true =>
    have hwidth : alignmentOf ⟨true, m⟩ = .ofWidth (-(min m 9223372036854775808 : Nat)) := by
      simp only [alignmentOf, SignedNumeral.value, widthLimit, if_true]
      congr 1
      omega
    have hzero : min m 9223372036854775808 = 0 ↔ m = 0 := by omega
    simp only [hwidth, Alignment.ofWidth_neg_natCast, hzero]
    rfl

theorem readAlignment_of_head?_ne (h : t.head? ≠ some ',') : readAlignment t = (.none, t) := by
  unfold readAlignment
  split
  · exact absurd rfl h
  · rfl

theorem readSpec_of_head?_ne (h : t.head? ≠ some ':') : readSpec t = [] := by
  unfold readSpec
  split
  · exact absurd rfl h
  · rfl

theorem readAlignment_eq_iff : readAlignment t = (a, rest) ↔ AlignmentPart t a rest := by
  constructor
  · intro h
    by_cases hcomma : t.head? = some ','
    · obtain ⟨u, rfl⟩ := List.head?_eq_some_iff.mp hcomma
      rw [readAlignment] at h
      split at h
      · next k behind hread =>
        cases h
        obtain ⟨n, rfl, rfl, hends⟩ := exists_text_append_of_read? hread
        rw [alignmentOf_eq_alignment]
        exact .number n hends
      · next hread =>
        cases h
        exact .withoutNumber (read?_eq_none_iff.mp hread)
    · rw [readAlignment_of_head?_ne hcomma] at h
      cases h
      exact .absent hcomma
  · intro h
    cases h with
    | absent h => exact readAlignment_of_head?_ne h
    | withoutNumber h =>
      simp only [readAlignment, read?_eq_none_iff.mpr h]
    | number n h =>
      simp only [readAlignment, read?_text_append n h, alignmentOf_eq_alignment]

theorem readSpec_eq_iff : readSpec t = spec ↔ SpecPart t spec := by
  constructor
  · rintro rfl
    by_cases hcolon : t.head? = some ':'
    · obtain ⟨u, rfl⟩ := List.head?_eq_some_iff.mp hcolon
      exact .present u
    · rw [readSpec_of_head?_ne hcolon]
      exact .absent hcolon
  · intro h
    cases h with
    | absent h => exact readSpec_of_head?_ne h
    | present => rfl

/-- The parts of the grammar are what the readers of the parts find. -/
theorem ofBody?_eq_some_iff : ofBody? body = some p ↔ BodyGrammar body p := by
  constructor
  · intro h
    obtain ⟨⟨k, rest⟩, hread, rfl⟩ := Option.map_eq_some_iff.mp h
    obtain ⟨n, rfl, rfl, hends⟩ := exists_text_append_of_read? hread
    simp only [indexOf?_eq_index?]
    exact .intro n hends (readAlignment_eq_iff.mp rfl) (readSpec_eq_iff.mp rfl)
  · intro h
    cases h with
    | intro n hends halignment hspec =>
      rw [ofBody?, read?_text_append n hends, Option.map_some]
      simp only [indexOf?_eq_index?, readAlignment_eq_iff.mpr halignment, readSpec_eq_iff.mpr hspec]

theorem exists_ofBody?_iff :
    (∃ p, ofBody? body = some p) ↔ ∃ n : WrittenNumber, n.text <+: body := by
  rw [← exists_read?_iff]
  constructor
  · rintro ⟨p, h⟩
    obtain ⟨⟨k, rest⟩, hread, -⟩ := Option.map_eq_some_iff.mp h
    exact ⟨k, rest, hread⟩
  · rintro ⟨k, rest, hread⟩
    rw [ofBody?, hread]
    exact ⟨_, rfl⟩

/-- The span of a specification cuts it out of its body, at the end of which it lies. -/
theorem slice?_specSpan (h : p.spec <:+ body) : body.slice? (p.specSpan body) = some p.spec := by
  obtain ⟨lead, rfl⟩ := h
  have hspan : p.specSpan (lead ++ p.spec) =
      ⟨Text.byteLength lead, Text.byteLength lead + p.spec.byteLength⟩ := by
    rw [specSpan, Text.byteLength_append, Nat.add_sub_cancel]
  have hslice := Text.slice?_append (s := lead) (t := p.spec) (u := [])
  rw [List.append_nil] at hslice
  rw [hspan]
  exact hslice

/-- Exactly the bodies that start with a number are placeholders, each is the one that the grammar
has for it, and its span covers its specification up to the end of the body. -/
theorem ofBody?_follows_grammar (body : Text) :
    ((∃ p, ofBody? body = some p) ↔ ∃ n : WrittenNumber, n.text <+: body) ∧
    (∀ p, ofBody? body = some p ↔ BodyGrammar body p) ∧
    ∀ p, ofBody? body = some p →
      body.slice? (p.specSpan body) = some p.spec ∧
      (p.specSpan body).stop = body.byteLength ∧
      (p.spec = [] → p.specSpan body = ⟨body.byteLength, body.byteLength⟩) := by
  refine ⟨exists_ofBody?_iff, fun p => ofBody?_eq_some_iff, ?_⟩
  intro p h
  refine ⟨slice?_specSpan (spec_suffix h), rfl, ?_⟩
  intro hempty
  rw [specSpan, hempty]
  rfl

-- A half-read number behind the comma is given back, so no colon follows the comma here.
example : ofBody? "0, -:x".toList = some ⟨some 0, .none, []⟩ := by decide

end Placeholder

end TextTemplate
