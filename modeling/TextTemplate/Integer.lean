import TextTemplate.BinaryFloat.Nearest
import TextTemplate.Numeral.Places

/-! Integers of fixed width, signed and unsigned, and their numerals in the bases two, eight, ten
and sixteen. -/
namespace TextTemplate

/-- The widths of integers; a machine word has 64 bits. -/
inductive Width
  | bits8
  | bits16
  | bits32
  | bits64
  | bits128
  | word
deriving DecidableEq, Repr

def Width.bits : Width → Nat
  | bits8 => 8
  | bits16 => 16
  | bits32 => 32
  | bits64 => 64
  | bits128 => 128
  | word => 64

/-- A kind of integers: with or without negative numbers, and of some width. -/
structure IntegerKind where
  signed : Bool
  width : Width
deriving DecidableEq, Repr

namespace IntegerKind

/-- How many numbers a kind has. -/
def modulus (k : IntegerKind) : Nat := 2 ^ k.width.bits

def low (k : IntegerKind) : Int := if k.signed then -(2 ^ (k.width.bits - 1) : Nat) else 0

/-- The number after the greatest one of a kind. -/
def bound (k : IntegerKind) : Int :=
  if k.signed then (2 ^ (k.width.bits - 1) : Nat) else (k.modulus : Int)

end IntegerKind

structure Integer (k : IntegerKind) where
  value : Int
  low_le : k.low ≤ value
  lt_bound : value < k.bound
deriving DecidableEq

abbrev IntegerKind.signed32 : IntegerKind := ⟨true, .bits32⟩

abbrev IntegerKind.signed64 : IntegerKind := ⟨true, .bits64⟩

abbrev IntegerKind.unsigned8 : IntegerKind := ⟨false, .bits8⟩

namespace IntegerKind

theorem low_signed32 : signed32.low = -2147483648 := by decide

theorem bound_signed32 : signed32.bound = 2147483648 := by decide

theorem low_signed64 : signed64.low = -9223372036854775808 := by decide

theorem bound_signed64 : signed64.bound = 9223372036854775808 := by decide

end IntegerKind

namespace Integer

variable {k : IntegerKind}

/-- A number as an integer of a kind, if the kind has it. -/
def ofInt? (k : IntegerKind) (n : Int) : Option (Integer k) :=
  if h : k.low ≤ n ∧ n < k.bound then some ⟨n, h.1, h.2⟩ else none

theorem ofInt?_eq_some_iff {v : Int} {n : Integer k} : ofInt? k v = some n ↔ n.value = v := by
  constructor
  · intro h
    unfold ofInt? at h
    split at h
    · cases h
      rfl
    · cases h
  · rintro rfl
    exact dif_pos ⟨n.low_le, n.lt_bound⟩

def ofBool : Bool → Integer .unsigned8
  | true => ⟨1, by decide, by decide⟩
  | false => ⟨0, by decide, by decide⟩

/-- The two's complement pattern of a number in some count of bits. -/
def pattern (n : Integer k) (bits : Nat) : Nat := (n.value % (2 ^ bits : Nat)).toNat

/-- The numeral of the pattern in the width of the kind. -/
def inBase (base : Nat) (letters : Numeral.LetterCase) (n : Integer k) : Text :=
  Numeral.inBase base letters (n.pattern k.width.bits)

/-- The bits that a binary numeral shows: short signed numbers are extended to 64 bits. -/
def binaryBits (k : IntegerKind) : Nat :=
  if k.signed ∧ k.width.bits ≤ 64 then 64 else k.width.bits

def decimal (n : Integer k) : Text := Numeral.ofInt n.value

def toDouble (n : Integer k) : Double :=
  .nearest .double (decide (n.value < 0)) (.ofNat n.value.natAbs)

/-- The binary numeral in groups of four digits. -/
def binary (n : Integer k) : Text := Numeral.binaryGroups (n.pattern (binaryBits k))

end Integer

end TextTemplate
