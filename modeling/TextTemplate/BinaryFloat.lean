import TextTemplate.Rounding

/-! Binary floating-point numbers of 32 and 64 bits, with the rational number that each finite one
stands for. -/
namespace TextTemplate

/-- The two formats of binary floating-point numbers. -/
inductive FloatFormat
  | single
  | double
deriving DecidableEq, Repr

namespace FloatFormat

def fractionBits : FloatFormat → Nat
  | single => 23
  | double => 52

def exponentBits : FloatFormat → Nat
  | single => 8
  | double => 11

/-- The binary digits of the largest significands. -/
def digits (f : FloatFormat) : Nat := f.fractionBits + 1

/-- The last digit of the smallest numbers has the weight two to the power of minus this. -/
def scale : FloatFormat → Nat
  | single => 149
  | double => 1074

/-- The largest shift of a significand above the smallest numbers. -/
def maxShift : FloatFormat → Nat
  | single => 253
  | double => 2045

theorem maxShift_eq (f : FloatFormat) : f.maxShift = 2 ^ f.exponentBits - 3 := by
  cases f <;> rfl

end FloatFormat

/-- A finite absolute value in its only form: the shift is the least one that keeps the significand
short. -/
structure Magnitude (f : FloatFormat) where
  significand : Nat
  shift : Nat
  significand_lt : significand < 2 ^ f.digits
  shift_le : shift ≤ f.maxShift
  normal : shift = 0 ∨ 2 ^ f.fractionBits ≤ significand
deriving DecidableEq

/-- A binary floating-point number; the numbers that are not a number are not told apart. -/
inductive BinaryFloat (f : FloatFormat)
  | nan
  | infinite (negative : Bool)
  | finite (negative : Bool) (magnitude : Magnitude f)
deriving DecidableEq

abbrev Double := BinaryFloat .double

namespace Magnitude

variable {f : FloatFormat}

/-- The exact value of a finite absolute value. -/
def toRatio (m : Magnitude f) : Ratio :=
  ⟨m.significand * 2 ^ m.shift, 2 ^ f.scale, Nat.two_pow_pos _⟩

def zero (f : FloatFormat) : Magnitude f :=
  ⟨0, 0, Nat.two_pow_pos _, Nat.zero_le _, .inl rfl⟩

end Magnitude

namespace BinaryFloat

variable {f : FloatFormat}

/-- Equality of numbers: the two zeros are equal, and what is not a number equals nothing. -/
def numericallyEqual : BinaryFloat f → BinaryFloat f → Bool
  | infinite s, infinite t => s = t
  | finite s m, finite t n => m = n && (s = t || m.significand = 0)
  | _, _ => false

/-- The fields of a bit pattern: sign, exponent and fraction. -/
def ofBits (f : FloatFormat) (bits : Nat) : BinaryFloat f :=
  let fraction := bits % 2 ^ f.fractionBits
  let exponent := bits / 2 ^ f.fractionBits % 2 ^ f.exponentBits
  let negative := decide (bits / 2 ^ (f.fractionBits + f.exponentBits) % 2 = 1)
  have hfraction : fraction < 2 ^ f.fractionBits := Nat.mod_lt _ (Nat.two_pow_pos _)
  have hdigits : 2 ^ f.digits = 2 ^ f.fractionBits + 2 ^ f.fractionBits := by
    rw [FloatFormat.digits, Nat.pow_succ, Nat.mul_two]
  if hzero : exponent = 0 then
    finite negative ⟨fraction, 0, by omega, Nat.zero_le _, .inl rfl⟩
  else if htop : exponent = 2 ^ f.exponentBits - 1 then
    if fraction = 0 then infinite negative else nan
  else
    have hexponent : exponent < 2 ^ f.exponentBits := Nat.mod_lt _ (Nat.two_pow_pos _)
    have hmax := f.maxShift_eq
    finite negative ⟨2 ^ f.fractionBits + fraction, exponent - 1, by omega, by omega,
      .inr (Nat.le_add_right _ _)⟩

/-- The bit pattern of a number; what is not a number has the quiet pattern without a payload. -/
def toBits : BinaryFloat f → Nat
  | nan => (2 ^ f.exponentBits - 1) * 2 ^ f.fractionBits + 2 ^ (f.fractionBits - 1)
  | infinite negative => signBit negative + (2 ^ f.exponentBits - 1) * 2 ^ f.fractionBits
  | finite negative m => signBit negative + m.shift * 2 ^ f.fractionBits + m.significand
where
  signBit (negative : Bool) : Nat :=
    if negative then 2 ^ (f.fractionBits + f.exponentBits) else 0

end BinaryFloat

end TextTemplate
