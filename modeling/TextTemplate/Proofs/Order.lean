import TextTemplate.Proofs.Fixed
import TextTemplate.Proofs.Monotone
import TextTemplate.Proofs.ReadBack

/-! The texts of numbers denote numbers in the same order: no notation puts one before another that
it exceeds, although each rounds, and neighbours may be written in different ways. -/
namespace TextTemplate

open Numeral

variable {negative negative' : Bool} {a b a' b' p q : ℚ} {t : Text}

/-- A rational number with its sign; zero may have either one. -/
def signed (negative : Bool) (a : ℚ) : ℚ := if negative then -a else a

theorem signed_natAbs (k : ℤ) : signed (decide (k < 0)) k.natAbs = k := by
  rw [Nat.cast_natAbs]
  by_cases h : k < 0
  · rw [signed, decide_eq_true h, if_pos rfl, abs_of_neg h, Int.cast_neg, neg_neg]
  · rw [signed, decide_eq_false h, if_neg Bool.false_ne_true, abs_of_nonneg (not_lt.mp h)]

/-- Absolute values that keep their order, and zeros that stay zero, keep the order of signed
numbers. -/
theorem signed_le_signed (ha : 0 ≤ a) (hb : 0 ≤ b) (ha' : 0 ≤ a') (hb' : 0 ≤ b')
    (hzero : a = 0 → a' = 0) (hzero' : b = 0 → b' = 0) (hab : a ≤ b → a' ≤ b')
    (hba : b ≤ a → b' ≤ a')
    (h : signed negative a ≤ signed negative' b) : signed negative a' ≤ signed negative' b' := by
  cases negative with
  | false =>
    cases negative' with
    | false => exact hab h
    | true =>
      -- Only two zeros are in this order.
      have h : a ≤ -b := h
      have ha0 : a = 0 := by linarith
      have hb0 : b = 0 := by linarith
      show a' ≤ -b'
      rw [hzero ha0, hzero' hb0, neg_zero]
  | true =>
    cases negative' with
    | false =>
      show -a' ≤ b'
      linarith
    | true => exact neg_le_neg (hba (neg_le_neg_iff.mp h))

/-- A literal denotes one number. -/
theorem IsLiteral.unique (h : IsLiteral t negative a) (h' : IsLiteral t negative' a') :
    negative = negative' ∧ a = a' := by
  obtain ⟨d, hread, rfl, rfl⟩ := Decimal.exists_ofText?_iff.mpr h
  obtain ⟨d', hread', rfl, rfl⟩ := Decimal.exists_ofText?_iff.mpr h'
  obtain rfl : d = d' := Option.some.inj (hread.symm.trans hread')
  exact ⟨rfl, rfl⟩

/-- Nothing but zero is nearest to zero. -/
theorem Magnitude.IsNearest.value_eq_zero {f : FloatFormat} {m : Magnitude f} (h : m.IsNearest 0) :
    m.toRatio.value = 0 := by
  have hzero : (zero f).toRatio.value = 0 := Ratio.value_eq_zero_iff.mpr (Nat.zero_mul _)
  have hle := h.abs_sub_le (zero f)
  rw [hzero, zero_sub, zero_sub, neg_zero, abs_zero, abs_neg] at hle
  exact abs_eq_zero.mp (le_antisymm hle (abs_nonneg _))

/-- A way of rounding absolute values that neither reorders them nor makes anything of nothing. -/
structure IsOrderly (round : ℚ → ℚ) : Prop where
  zero : round 0 = 0
  mono : ∀ p q, 0 ≤ p → p ≤ q → round p ≤ round q

namespace IsOrderly

variable {round : ℚ → ℚ}

theorem nonneg (h : IsOrderly round) (hq : 0 ≤ q) : 0 ≤ round q :=
  h.zero ▸ h.mono 0 q le_rfl hq

theorem signed_le_signed (h : IsOrderly round) (ha : 0 ≤ a) (hb : 0 ≤ b)
    (hle : signed negative a ≤ signed negative' b) :
    signed negative (round a) ≤ signed negative' (round b) := by
  apply TextTemplate.signed_le_signed ha hb (h.nonneg ha) (h.nonneg hb) _ _ (h.mono a b ha)
    (h.mono b a hb) hle
  · rintro rfl
    exact h.zero
  · rintro rfl
    exact h.zero

theorem significantly {count : ℕ} (hcount : 0 < count) : IsOrderly (significantly count) :=
  ⟨significantly_zero count, fun _ _ hp h => significantly_mono hcount hp h⟩

/-- Rounding to a number of places. -/
theorem toPlaces (places : ℕ) : IsOrderly fun q => nearestEven (q * 10 ^ places) / 10 ^ places := by
  refine ⟨?_, fun p q _ h => ?_⟩
  · simp [nearestEven_zero]
  · have hten : (0 : ℚ) < 10 ^ places := by positivity
    have hround := nearestEven_mono (mul_le_mul_of_nonneg_right h hten.le)
    apply div_le_div_of_nonneg_right _ hten.le
    exact_mod_cast hround

end IsOrderly

namespace Rendering

variable {r s : Rendering} {f g : FloatFormat} {kind kind' : IntegerKind} {spec : Text}

/-- The rendering is one text that denotes a rational number. -/
def Shows (r : Rendering) (q : ℚ) : Prop :=
  ∃ t negative a, r = ofFields [t] ∧ IsLiteral t negative a ∧ q = signed negative a

theorem Shows.unique (h : r.Shows p) (h' : r.Shows q) : p = q := by
  obtain ⟨t, negative, a, rfl, hliteral, rfl⟩ := h
  obtain ⟨t', negative', a', htext, hliteral', rfl⟩ := h'
  obtain rfl : t = t' := by simpa [ofFields] using htext
  obtain ⟨rfl, rfl⟩ := hliteral.unique hliteral'
  rfl

/-- Each of two renderings denotes a number, and the first number does not exceed the second one. -/
def InOrder (r s : Rendering) : Prop :=
  (∃ p, r.Shows p) ∧ (∃ q, s.Shows q) ∧ ∀ p q, r.Shows p → s.Shows q → p ≤ q

theorem InOrder.of_shows (hr : r.Shows p) (hs : s.Shows q) (h : p ≤ q) : r.InOrder s := by
  refine ⟨⟨p, hr⟩, ⟨q, hs⟩, ?_⟩
  intro p' q' hr' hs'
  rw [hr'.unique hr, hs'.unique hs]
  exact h

theorem shows_of_ofText? (hread : ∃ d, Decimal.ofText? t = some d ∧ d.negative = negative ∧
    d.toRatio.value = a) : (ofFields [t]).Shows (signed negative a) :=
  ⟨t, negative, a, rfl, Decimal.exists_ofText?_iff.mp hread, rfl⟩

theorem mark_of_scientificMark? {mark : Char} (h : scientificMark? spec = some mark) :
    mark = 'e' ∨ mark = 'E' := by
  unfold scientificMark? at h
  split at h
  · exact .inl (Option.some.inj h).symm
  · split at h
    · exact .inr (Option.some.inj h).symm
    · cases h

theorem shows_scientificText {mark : Char} (hmark : mark = 'e' ∨ mark = 'E') (negative : Bool)
    (m : Magnitude f) : (ofFields [(BinaryFloat.finite negative m).scientificText mark]).Shows
      (signed negative (significantly 7 m.toRatio.value)) := by
  apply shows_of_ofText?
  rw [BinaryFloat.scientificText_finite, ← withSign_append]
  exact (isScientific_significant m.toRatio).exists_ofText? negative hmark

theorem shows_generalText (negative : Bool) (m : Magnitude f) :
    (ofFields [(BinaryFloat.finite negative m).generalText]).Shows
      (signed negative (significantly 6 m.toRatio.value)) := by
  apply shows_of_ofText?
  obtain ⟨t, htext, hgeneral⟩ := BinaryFloat.exists_generalText_eq negative m
  rw [htext]
  exact hgeneral.exists_ofText? negative

theorem shows_fixedText (places : ℕ) (negative : Bool) (m : Magnitude f) :
    (ofFields [(BinaryFloat.finite negative m).fixedText places]).Shows
      (signed negative (nearestEven (m.toRatio.value * 10 ^ places) / 10 ^ places)) := by
  apply shows_of_ofText?
  rw [fixedText_finite]
  exact (isFixed_roundedTo places m.toRatio).exists_ofText? negative

/-- A specification of floating-point numbers that asks for no more places than can be written. -/
def IsAccepted (spec : Text) : Prop :=
  spec.head? = some '.' → ∃ places < Precision.limit, Precision.ofSpec spec = .ok places

/-- The specification alone decides how absolute values are rounded; the sign is written in
front. -/
theorem exists_shows_ofFloat (h : IsAccepted spec) : ∃ round, IsOrderly round ∧
    ∀ (f : FloatFormat) (negative : Bool) (m : Magnitude f),
      ((Argument.float (.finite negative m)).rendering spec).Shows
        (signed negative (round m.toRatio.value)) := by
  cases hmark : scientificMark? spec with
  | some mark =>
    refine ⟨significantly 7, .significantly (by decide), ?_⟩
    intro f negative m
    rw [Argument.rendering, ofFloat_of_scientificMark? hmark]
    exact shows_scientificText (mark_of_scientificMark? hmark) negative m
  | none =>
    by_cases hpoint : spec.head? = some '.'
    · obtain ⟨places, -, hplaces⟩ := h hpoint
      refine ⟨_, .toPlaces places, ?_⟩
      intro f negative m
      rw [Argument.rendering, ofFloat_of_precision _ hpoint hplaces]
      exact shows_fixedText places negative m
    · refine ⟨significantly 6, .significantly (by decide), ?_⟩
      intro f negative m
      rw [Argument.rendering, ofFloat_of_default hmark hpoint]
      exact shows_generalText negative m

end Rendering

namespace Integer

variable {kind kind' : IntegerKind}

theorem nearest?_of_toDouble_eq {n : Integer kind} {m : Magnitude .double}
    (h : n.toDouble = .finite negative m) :
    Magnitude.nearest? .double (.ofNat n.value.natAbs) = some m := by
  rw [toDouble, BinaryFloat.nearest] at h
  split at h
  · next hm =>
    cases h
    exact hm
  · cases h

/-- The conversion to doubles rounds, and integers of all kinds stay in order. -/
theorem exists_toDouble_signed_le {n : Integer kind} {n' : Integer kind'} (h : n.value ≤ n'.value) :
    ∃ (negative negative' : Bool) (m m' : Magnitude .double), n.toDouble = .finite negative m ∧
      n'.toDouble = .finite negative' m' ∧
      signed negative m.toRatio.value ≤ signed negative' m'.toRatio.value := by
  obtain ⟨m, hdouble, hnearest⟩ := n.exists_toDouble_eq
  obtain ⟨m', hdouble', hnearest'⟩ := n'.exists_toDouble_eq
  refine ⟨_, _, m, m', hdouble, hdouble', ?_⟩
  have hm := nearest?_of_toDouble_eq hdouble
  have hm' := nearest?_of_toDouble_eq hdouble'
  apply signed_le_signed (a := n.value.natAbs) (b := n'.value.natAbs) (Nat.cast_nonneg _)
    (Nat.cast_nonneg _) m.toRatio.value_nonneg m'.toRatio.value_nonneg
  · intro hzero
    rw [hzero] at hnearest
    exact hnearest.value_eq_zero
  · intro hzero
    rw [hzero] at hnearest'
    exact hnearest'.value_eq_zero
  · intro hle
    apply Magnitude.value_le_of_nearest? hm hm'
    rwa [Ratio.value_ofNat, Ratio.value_ofNat]
  · intro hle
    apply Magnitude.value_le_of_nearest? hm' hm
    rwa [Ratio.value_ofNat, Ratio.value_ofNat]
  · rw [signed_natAbs, signed_natAbs]
    exact_mod_cast h

end Integer

namespace Rendering

variable {f g : FloatFormat} {kind kind' : IntegerKind} {spec : Text}

theorem inOrder_ofFloat {m : Magnitude f} {m' : Magnitude g} (hspec : IsAccepted spec)
    (h : signed negative m.toRatio.value ≤ signed negative' m'.toRatio.value) :
    ((Argument.float (.finite negative m)).rendering spec).InOrder
      ((Argument.float (.finite negative' m')).rendering spec) := by
  obtain ⟨round, hround, hshows⟩ := exists_shows_ofFloat hspec
  exact .of_shows (hshows f negative m) (hshows g negative' m')
    (hround.signed_le_signed m.toRatio.value_nonneg m'.toRatio.value_nonneg h)

theorem inOrder_decimal {n : Integer kind} {n' : Integer kind'} (hspec : spec ∉ integerSpecs)
    (h : n.value ≤ n'.value) :
    ((Argument.integer n).rendering spec).InOrder ((Argument.integer n').rendering spec) := by
  have hshows {kind : IntegerKind} (n : Integer kind) :
      ((Argument.integer n).rendering spec).Shows n.value := by
    rw [Argument.rendering, ofInteger, integerText_eq_decimal n hspec]
    exact ⟨_, _, _, rfl, isLiteral_ofInt n.value, (signed_natAbs n.value).symm⟩
  exact .of_shows (hshows n) (hshows n') (by exact_mod_cast h)

/-- Two roundings, to a double and then to seven digits, keep the order as each of them does. -/
theorem inOrder_scientific {n : Integer kind} {n' : Integer kind'} {mark : Char}
    (hmark : scientificMark? spec = some mark) (h : n.value ≤ n'.value) :
    ((Argument.integer n).rendering spec).InOrder ((Argument.integer n').rendering spec) := by
  obtain ⟨negative, negative', m, m', hdouble, hdouble', hle⟩ := Integer.exists_toDouble_signed_le h
  have hround : IsOrderly (significantly 7) := .significantly (by decide)
  rw [Argument.rendering, Argument.rendering, ofInteger_of_scientificMark? hmark,
    ofInteger_of_scientificMark? hmark, hdouble, hdouble']
  exact .of_shows (shows_scientificText (mark_of_scientificMark? hmark) negative m)
    (shows_scientificText (mark_of_scientificMark? hmark) negative' m')
    (hround.signed_le_signed m.toRatio.value_nonneg m'.toRatio.value_nonneg hle)

/-- Under one specification, finite floating-point numbers are written as numbers in the same order,
whatever notation each of them takes, and so are integers of any two kinds in decimal and in
scientific notation. -/
theorem renderings_inOrder :
    (∀ (f g : FloatFormat) (negative negative' : Bool) (m : Magnitude f) (m' : Magnitude g)
      (spec : Text),
      IsAccepted spec → signed negative m.toRatio.value ≤ signed negative' m'.toRatio.value →
      ((Argument.float (.finite negative m)).rendering spec).InOrder
        ((Argument.float (.finite negative' m')).rendering spec)) ∧
    ∀ (kind kind' : IntegerKind) (n : Integer kind) (n' : Integer kind') (spec : Text),
      spec ∉ ["x".toList, "X".toList, "b".toList, "o".toList] → n.value ≤ n'.value →
      ((Argument.integer n).rendering spec).InOrder ((Argument.integer n').rendering spec) := by
  constructor
  · intro f g negative negative' m m' spec hspec h
    exact inOrder_ofFloat hspec h
  · intro kind kind' n n' spec hspec h
    cases hmark : scientificMark? spec with
    | some mark => exact inOrder_scientific hmark h
    | none =>
      refine inOrder_decimal ?_ h
      intro hmem
      simp only [integerSpecs, List.mem_cons, List.not_mem_nil, or_false] at hmem hspec
      rcases hmem with rfl | rfl | rfl | rfl | hmem
      · cases hmark
      · cases hmark
      · cases hmark
      · cases hmark
      · exact hspec hmem

/-- A quarter apart, two numbers of two formats are written in two notations, and two integers of
two kinds with the same digits. -/
theorem renderings_inOrder_at_million :
    let x : Magnitude .single := ⟨15999988, 145, by decide, by decide, .inr (by decide)⟩
    let y : Magnitude .double := ⟨8589930297032704, 1041, by decide, by decide, .inr (by decide)⟩
    let n : Integer .signed64 := ⟨9007199254740993, by decide, by decide⟩
    let n' : Integer ⟨false, .bits128⟩ := ⟨9007199254740994, by decide, by decide⟩
    IsAccepted [] ∧ signed false x.toRatio.value ≤ signed false y.toRatio.value ∧
      ((Argument.float (.finite false x)).rendering []).InOrder
        ((Argument.float (.finite false y)).rendering []) ∧
      "E".toList ∉ ["x".toList, "X".toList, "b".toList, "o".toList] ∧ n.value ≤ n'.value ∧
      ((Argument.integer n).rendering "E".toList).InOrder
        ((Argument.integer n').rendering "E".toList) := by
  intro x y n n'
  have hspec : IsAccepted [] := by rintro ⟨⟩
  have hle : signed false x.toRatio.value ≤ signed false y.toRatio.value := by
    have hx : x.significand * 2 ^ x.shift * 4 = 3999997 * 2 ^ FloatFormat.scale .single := by
      decide +kernel
    have hy : y.significand * 2 ^ y.shift * 2 = 1999999 * 2 ^ FloatFormat.scale .double := by
      decide +kernel
    have hx : x.toRatio.value = 3999997 / 4 := by
      rw [Magnitude.value_toRatio, div_eq_div_iff (by positivity) (by norm_num)]
      exact_mod_cast hx
    have hy : y.toRatio.value = 1999999 / 2 := by
      rw [Magnitude.value_toRatio, div_eq_div_iff (by positivity) (by norm_num)]
      exact_mod_cast hy
    show x.toRatio.value ≤ y.toRatio.value
    rw [hx, hy]
    norm_num
  have hspec' : "E".toList ∉ ["x".toList, "X".toList, "b".toList, "o".toList] := by decide
  exact ⟨hspec, hle, renderings_inOrder.1 _ _ _ _ x y [] hspec hle, hspec', by decide,
    renderings_inOrder.2 _ _ n n' "E".toList hspec' (by decide)⟩

end Rendering

end TextTemplate
