/-! The digits of a natural number in any base, and the number that a list of digits denotes. Powers
of natural numbers are those of the core library, here and in all that builds on digits. -/
namespace TextTemplate

attribute [scoped instance (high)] instPowNat

namespace Numeral

variable {base n d : Nat} {ds : List Nat}

/-- At most `room` digits of a number, the lowest first and none for zero. -/
def lowDigitsWithin (base : Nat) : Nat → Nat → List Nat
  | 0, _ => []
  | room + 1, n => if n = 0 then [] else n % base :: lowDigitsWithin base room (n / base)

/-- The digits of a number, the lowest first and none for zero. -/
def lowDigits (base n : Nat) : List Nat := lowDigitsWithin base (n.log2 + 1) n

/-- Low digits filled up with zeros to a count. -/
def zeroExtended (count : Nat) (ds : List Nat) : List Nat :=
  ds ++ List.replicate (count - ds.length) 0

/-- The low digits of a number of at most two to the power of `level` digits, which is cut in
halves. -/
def halvedDigits (base : Nat) : Nat → Nat → List Nat
  | 0, n => if n = 0 then [] else [n]
  | level + 1, n =>
    let unit := base ^ (2 ^ level : Nat)
    if n < unit then halvedDigits base level n
    else
      zeroExtended (2 ^ level) (halvedDigits base level (n % unit)) ++
        halvedDigits base level (n / unit)

/-- The digits of a number, the highest first; zero has the one digit zero. -/
def digits (base n : Nat) : List Nat :=
  if n = 0 then [0] else (halvedDigits base ((n.log2 + 1).log2 + 1) n).reverse

/-- How many digits a number has; zero has none. -/
def digitCount (base n : Nat) : Nat := (lowDigits base n).length

/-- The number that a list of digits denotes, the highest digit first. -/
def positionalValue (base : Nat) (ds : List Nat) : Nat :=
  ds.foldl (fun total d => total * base + d) 0

theorem lowDigitsWithin_congr (hb : 2 ≤ base) (room room' n : Nat) (h : n < 2 ^ room)
    (h' : n < 2 ^ room') : lowDigitsWithin base room n = lowDigitsWithin base room' n := by
  induction room generalizing room' n with
  | zero =>
    have hn : n = 0 := by simpa using h
    cases room' <;> simp [lowDigitsWithin, hn]
  | succ room ih =>
    by_cases hn : n = 0
    · cases room' <;> simp [lowDigitsWithin, hn]
    · cases room' with
      | zero => exact absurd (by simpa using h') hn
      | succ room' =>
        have hhalf : n / base ≤ n / 2 := Nat.div_le_div_left hb (by decide)
        simp only [lowDigitsWithin, hn, if_false]
        rw [ih room' (n / base) (by omega) (by omega)]

theorem lowDigits_zero : lowDigits base 0 = [] := by
  simp [lowDigits, lowDigitsWithin]

theorem lowDigits_of_ne_zero (hb : 2 ≤ base) (hn : n ≠ 0) :
    lowDigits base n = n % base :: lowDigits base (n / base) := by
  have hhalf : n / base ≤ n / 2 := Nat.div_le_div_left hb (by decide)
  have hlog : n < 2 ^ (n.log2 + 1) := Nat.lt_log2_self
  have hlog' : n / base < 2 ^ ((n / base).log2 + 1) := Nat.lt_log2_self
  rw [lowDigits, lowDigitsWithin, if_neg hn,
    lowDigitsWithin_congr hb n.log2 ((n / base).log2 + 1) (n / base) (by omega) hlog', lowDigits]

theorem lowDigits_of_lt (hb : 2 ≤ base) (h : n < base) (hn : n ≠ 0) : lowDigits base n = [n] := by
  rw [lowDigits_of_ne_zero hb hn, Nat.mod_eq_of_lt h, Nat.div_eq_of_lt h, lowDigits_zero]

theorem lowDigits_add_mul (hb : 2 ≤ base) (m a b : Nat) (ha : a < base ^ m) (hne : b ≠ 0) :
    lowDigits base (a + base ^ m * b) =
      zeroExtended m (lowDigits base a) ++ lowDigits base b := by
  induction m generalizing a with
  | zero =>
    have : a = 0 := by simpa using ha
    subst this
    simp [zeroExtended, lowDigits_zero]
  | succ m ih =>
    have hpos : 0 < base := by omega
    have hpow : base ^ (m + 1) * b = base * (base ^ m * b) := by
      rw [Nat.pow_succ, Nat.mul_comm (base ^ m), Nat.mul_assoc]
    have hsum : a + base ^ (m + 1) * b ≠ 0 := by
      have : 0 < base ^ (m + 1) * b :=
        Nat.mul_pos (Nat.pow_pos hpos) (Nat.pos_of_ne_zero hne)
      omega
    have hdiv : a / base < base ^ m := by
      rw [Nat.div_lt_iff_lt_mul hpos, ← Nat.pow_succ]
      exact ha
    rw [lowDigits_of_ne_zero hb hsum, hpow, Nat.add_mul_mod_self_left,
      Nat.add_mul_div_left _ _ hpos, ih _ hdiv]
    by_cases h : a = 0
    · subst h
      simp [zeroExtended, lowDigits_zero, List.replicate_succ]
    · rw [lowDigits_of_ne_zero hb h]
      simp [zeroExtended]

theorem halvedDigits_eq_lowDigits (hb : 2 ≤ base) (level n : Nat)
    (h : n < base ^ (2 ^ level : Nat)) :
    halvedDigits base level n = lowDigits base n := by
  induction level generalizing n with
  | zero =>
    by_cases hn : n = 0
    · simp [halvedDigits, hn, lowDigits_zero]
    · rw [lowDigits_of_lt hb (by simpa using h) hn]
      simp [halvedDigits, hn]
  | succ level ih =>
    simp only [halvedDigits]
    split
    · next hlt => exact ih n hlt
    · next hge =>
      have hpos : 0 < base ^ (2 ^ level : Nat) := Nat.pow_pos (by omega)
      have hdiv : n / base ^ (2 ^ level : Nat) < base ^ (2 ^ level : Nat) := by
        rw [Nat.div_lt_iff_lt_mul hpos, ← Nat.pow_add, ← Nat.mul_two, ← Nat.pow_succ]
        exact h
      have hne : n / base ^ (2 ^ level : Nat) ≠ 0 := by
        have := Nat.div_pos (Nat.le_of_not_lt hge) hpos
        omega
      rw [ih _ (Nat.mod_lt _ hpos), ih _ hdiv,
        ← lowDigits_add_mul hb _ _ _ (Nat.mod_lt _ hpos) hne, Nat.mod_add_div]

theorem lt_pow_levels (hb : 2 ≤ base) (n : Nat) : n < base ^ (2 ^ ((n.log2 + 1).log2 + 1) : Nat) :=
  calc n < 2 ^ (n.log2 + 1) := Nat.lt_log2_self
    _ ≤ 2 ^ 2 ^ ((n.log2 + 1).log2 + 1) :=
      Nat.pow_le_pow_right (by decide) (Nat.le_of_lt Nat.lt_log2_self)
    _ ≤ base ^ (2 ^ ((n.log2 + 1).log2 + 1) : Nat) := Nat.pow_le_pow_left hb _

theorem digits_eq (hb : 2 ≤ base) (n : Nat) :
    digits base n = if n = 0 then [0] else (lowDigits base n).reverse := by
  rw [digits, halvedDigits_eq_lowDigits hb _ n (lt_pow_levels hb n)]

end Numeral

end TextTemplate
