import TextTemplate.Toml.DateTime
import TextTemplate.Toml.Number

/-! TOML values, and how they are read from the front of a text. -/
namespace TextTemplate.Toml

/-- How a table came about, which decides what may be added to it later. -/
inductive Origin
  | inline
  | header
  | headerPath
  | dottedKey
deriving DecidableEq, Repr

/-- A TOML value; tables keep the order of their keys. -/
inductive Value
  | string (t : Text)
  | integer (n : Integer .signed64)
  | float (x : Double)
  | boolean (b : Bool)
  | dateTime (word : Text)
  | array (items : List Value)
  | table (origin : Origin) (entries : List (Text × Value))
  | tables (earlier : List (List (Text × Value))) (latest : List (Text × Value))

abbrev Entries := List (Text × Value)

namespace Entries

def get? (es : Entries) (key : Text) : Option Value :=
  (es.find? fun e => e.1 = key).map Prod.snd

/-- The entries with a value of a key, in the place of an earlier one or at the end. -/
def put (es : Entries) (key : Text) (v : Value) : Entries :=
  if (es.get? key).isSome then es.map fun e => if e.1 = key then (key, v) else e
  else es ++ [(key, v)]

/-- The entries with one more at a dotted key, if the key is new and its tables were made by dotted
keys. -/
def add? (v : Value) : List Text → Entries → Option Entries
  | [], _ => none
  | [key], es => if (es.get? key).isSome then none else some (es.put key v)
  | key :: keys, es =>
    match es.get? key with
    | none => (add? v keys []).map fun sub => es.put key (.table .dottedKey sub)
    | some (.table .dottedKey sub) =>
      (add? v keys sub).map fun sub => es.put key (.table .dottedKey sub)
    | some _ => none

end Entries

/-- The characters of keys without quotes. -/
def isBareKeyChar (c : Char) : Bool := c.isAlphanum || c = '_' || c = '-'

/-- A key without dots at the front of a text. -/
def readSimpleKey? (t : Text) : Option (Text × Text) :=
  match readLineString? t with
  | some key => some key
  | none =>
    let key := t.takeWhile isBareKeyChar
    if key = [] then none else some (key, t.dropWhile isBareKeyChar)

/-- A dotted key of at most `room` parts at the front of a text, and the text after the spaces
behind it. -/
def readKeyWithin? : Nat → Text → Option (List Text × Text)
  | 0, _ => none
  | room + 1, t => do
    let (key, rest) ← readSimpleKey? t
    match skipSpaces rest with
    | '.' :: rest =>
      let (keys, rest) ← readKeyWithin? room (skipSpaces rest)
      return (key :: keys, rest)
    | rest => return ([key], rest)

/-- A dotted key at the front of a text, and the text after the spaces behind it. -/
def readKey? (t : Text) : Option (List Text × Text) := readKeyWithin? t.length t

/-- The characters of numbers, dates, times and bare words. -/
def isWordChar (c : Char) : Bool := c.isAlphanum || c ∈ ['_', '+', '-', '.', ':']

def valueOfWord? (word : Text) : Option Value :=
  if word = "true".toList then some (.boolean true)
  else if word = "false".toList then some (.boolean false)
  else if isDateTime word then some (.dateTime word)
  else
    match integerOfWord? word, floatOfWord? word with
    | some n, _ => some (.integer n)
    | none, some x => some (.float x)
    | none, none => none

/-- The value of the word at the front of a text; a date may have its time behind a space. -/
def readWord? (t : Text) : Option (Value × Text) :=
  let word := t.takeWhile isWordChar
  let rest := t.dropWhile isWordChar
  let time := (rest.drop 1).takeWhile isWordChar
  if isDate word && rest.head? = some ' ' && isTimeWithOffset time then
    some (.dateTime (word ++ ' ' :: time), (rest.drop 1).dropWhile isWordChar)
  else (valueOfWord? word).map fun v => (v, rest)

mutual

/-- The value at the front of a text, within a number of steps. -/
def readValueWithin? : Nat → Text → Option (Value × Text)
  | 0, _ => none
  | steps + 1, t =>
    match t with
    | '[' :: t => (readItemsWithin? steps (skipFiller t)).map fun (items, rest) =>
      (.array items, rest)
    | '{' :: t => do
      let t := skipSpaces t
      if t.head? = some '}' then return (.table .inline [], t.drop 1)
      let (entries, rest) ← readEntriesWithin? steps [] t
      return (.table .inline entries, rest)
    | '"' :: _ | '\'' :: _ => (readString? t).map fun (s, rest) => (.string s, rest)
    | _ => readWord? t

/-- The items of an array and the text behind its closing bracket, within a number of steps. -/
def readItemsWithin? : Nat → Text → Option (List Value × Text)
  | 0, _ => none
  | steps + 1, t =>
    match t with
    | ']' :: rest => some ([], rest)
    | _ => do
      let (item, rest) ← readValueWithin? steps t
      match skipFiller rest with
      | ',' :: rest =>
        let (items, rest) ← readItemsWithin? steps (skipFiller rest)
        return (item :: items, rest)
      | ']' :: rest => return ([item], rest)
      | _ => none

/-- The entries of an inline table after earlier ones, and the text behind its closing brace, within
a number of steps. -/
def readEntriesWithin? : Nat → Entries → Text → Option (Entries × Text)
  | 0, _, _ => none
  | steps + 1, entries, t => do
    let (key, rest) ← readKey? t
    let rest ← skipOneOf? ['='] rest
    let (v, rest) ← readValueWithin? steps (skipSpaces rest)
    let entries ← entries.add? v key
    match skipSpaces rest with
    | ',' :: rest => readEntriesWithin? steps entries (skipSpaces rest)
    | '}' :: rest => return (entries, rest)
    | _ => none

end

/-- The value at the front of a text; each character takes at most two steps. -/
def readValue? (t : Text) : Option (Value × Text) := readValueWithin? (2 * t.length + 1) t

end TextTemplate.Toml
