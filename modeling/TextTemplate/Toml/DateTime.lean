import TextTemplate.Numeral

/-! The words of TOML dates, times, and times of a date with an optional offset. -/
namespace TextTemplate.Toml

/-- The number that a given count of digits at the front of a text denotes, and the text behind
them. -/
def readDigits? (count : Nat) (t : Text) : Option (Nat × Text) :=
  let digits := t.take count
  if digits.length = count ∧ digits.all Char.isDigit then
    some (Numeral.ofDecimal digits, t.drop count)
  else none

/-- The text after a character of a set. -/
def skipOneOf? (set : List Char) : Text → Option Text
  | [] => none
  | c :: t => if c ∈ set then some t else none

def daysOfMonth (year month : Nat) : Nat :=
  if month = 2 then
    if year % 400 = 0 ∨ year % 4 = 0 ∧ year % 100 ≠ 0 then 29 else 28
  else if month ∈ [4, 6, 9, 11] then 30
  else 31

def skipDate? (t : Text) : Option Text := do
  let (year, t) ← readDigits? 4 t
  let (month, t) ← skipOneOf? ['-'] t >>= readDigits? 2
  let (day, t) ← skipOneOf? ['-'] t >>= readDigits? 2
  if 1 ≤ month ∧ month ≤ 12 ∧ 1 ≤ day ∧ day ≤ daysOfMonth year month then some t else none

/-- The text after a time, which may have fractions of a second. -/
def skipTime? (t : Text) : Option Text := do
  let (hour, t) ← readDigits? 2 t
  let (minute, t) ← skipOneOf? [':'] t >>= readDigits? 2
  let (second, t) ← skipOneOf? [':'] t >>= readDigits? 2
  if hour ≤ 23 ∧ minute ≤ 59 ∧ second ≤ 60 then
    match t with
    | '.' :: t =>
      if (t.head?.map Char.isDigit).getD false then some (t.dropWhile Char.isDigit) else none
    | t => some t
  else none

/-- Whether a text is an offset from universal time, or empty. -/
def isOffset : Text → Bool
  | [] => true
  | c :: t =>
    if c = 'Z' ∨ c = 'z' then t.isEmpty
    else
      match (do
        let (hour, t) ← skipOneOf? ['+', '-'] (c :: t) >>= readDigits? 2
        let (minute, t) ← skipOneOf? [':'] t >>= readDigits? 2
        return (hour, minute, t) : Option (Nat × Nat × Text)) with
      | some (hour, minute, []) => decide (hour ≤ 23 ∧ minute ≤ 59)
      | _ => false

/-- Whether a text is a time with an optional offset. -/
def isTimeWithOffset (t : Text) : Bool :=
  match skipTime? t with
  | some rest => isOffset rest
  | none => false

def isDate (t : Text) : Bool := skipDate? t = some []

/-- Whether a text is a date, a time, or a time of a date. -/
def isDateTime (t : Text) : Bool :=
  isDate t || skipTime? t = some [] ||
    match skipDate? t >>= skipOneOf? ['T', 't', ' '] with
    | some rest => isTimeWithOffset rest
    | none => false

end TextTemplate.Toml
