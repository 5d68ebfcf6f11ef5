import TextTemplate.Decimal
import TextTemplate.Integer
import TextTemplate.Toml.Quoted

/-! The words of TOML integers and floating-point numbers. -/
namespace TextTemplate.Toml

/-- Digits without the underscores between them; an underscore must have a digit on both sides. -/
def ungroup? (isDigit : Char → Bool) : Text → Option Text
  | [] => none
  | [c] => if isDigit c then some [c] else none
  | c :: d :: t =>
    if isDigit c then
      if d = '_' then (ungroup? isDigit t).map (c :: ·)
      else (ungroup? isDigit (d :: t)).map (c :: ·)
    else none

/-- The digits of a whole decimal number: no zero stands before further digits. -/
def wholeDigits? (t : Text) : Option Text :=
  match ungroup? Char.isDigit t with
  | some ('0' :: _ :: _) => none
  | digits => digits

/-- The bases that a letter after a zero marks. -/
def baseOf? (c : Char) : Option Nat :=
  if c = 'x' then some 16 else if c = 'o' then some 8 else if c = 'b' then some 2 else none

def isDigitOf (base : Nat) (c : Char) : Bool :=
  ((Numeral.digitOf? c).map (decide <| · < base)).getD false

/-- The number of an unsigned word with a marked base. -/
def basedNumber? : Text → Option Nat
  | '0' :: mark :: t => do
    let base ← baseOf? mark
    let digits ← ungroup? (isDigitOf base) t
    return Numeral.positionalValue base (digits.filterMap Numeral.digitOf?)
  | _ => none

/-- The integer of a word, if it has 64 bits. -/
def integerOfWord? (word : Text) : Option (Integer .signed64) :=
  match basedNumber? word with
  | some n => Integer.ofInt? _ n
  | none =>
    let (negative, t) := SignedNumeral.takeSign word
    (wholeDigits? t).bind fun digits =>
      Integer.ofInt? _ (SignedNumeral.value ⟨negative, Numeral.ofDecimal digits⟩)

/-- A fraction or an exponent at the front of a word, without the underscores in it. -/
def readDigitGroups? (t : Text) : Option (Text × Text) :=
  (ungroup? Char.isDigit (t.takeWhile fun c => c.isDigit || c = '_')).map fun digits =>
    (digits, t.dropWhile fun c => c.isDigit || c = '_')

/-- The fraction at a point, and the text behind it. -/
def readFraction? : Text → Option (Text × Text)
  | '.' :: t => readDigitGroups? t
  | t => some ([], t)

/-- The exponent at its mark, if the word ends with it. -/
def exponentOf? : Text → Option Int
  | [] => some 0
  | mark :: t =>
    if mark = 'e' ∨ mark = 'E' then
      let (negative, t) := SignedNumeral.takeSign t
      (ungroup? Char.isDigit t).map fun digits =>
        SignedNumeral.value ⟨negative, Numeral.ofDecimal digits⟩
    else none

/-- The decimal literal of a word with a fraction or an exponent. -/
def decimalOfWord? (word : Text) : Option Decimal := do
  let (negative, t) := SignedNumeral.takeSign word
  let isWhole := fun c : Char => c.isDigit || c = '_'
  let whole ← wholeDigits? (t.takeWhile isWhole)
  let rest := t.dropWhile isWhole
  let (fraction, rest) ← readFraction? rest
  let exponent ← exponentOf? rest
  if t.all isWhole then none
  else
    return ⟨negative, Numeral.ofDecimal (whole ++ fraction), exponent - fraction.length⟩

/-- The words that are not numerals: an infinity or not a number, with an optional sign. -/
def specialOfWord? (word : Text) : Option Double :=
  let (negative, t) := SignedNumeral.takeSign word
  if t = "inf".toList then some (.infinite negative)
  else if t = "nan".toList then some .nan
  else none

/-- The double of a word; a numeral beyond the largest double is refused unless it is negative. -/
def floatOfWord? (word : Text) : Option Double :=
  match specialOfWord? word with
  | some x => some x
  | none =>
    (decimalOfWord? word).bind fun d =>
      if d.nearest = .infinite false then none else some d.nearest

end TextTemplate.Toml
