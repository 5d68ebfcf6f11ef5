import TextTemplate.ArgumentFile

/-! Argument files entry by entry: each entry fills the field of its key once, and an item is what
the first reader that takes it makes of it. -/
namespace TextTemplate

namespace Toml.Value

def toBool? : Value → Option Bool
  | boolean b => some b
  | _ => none

def toInteger? : Value → Option (Integer .signed64)
  | integer n => some n
  | _ => none

/-- The reader of doubles, which takes integers too. -/
def toDouble? : Value → Option Double
  | float x => some x
  | integer n => some n.toDouble
  | _ => none

def toText? : Value → Option Text
  | string t => some t
  | _ => none

/-- The reader of lists, for which an array of tables is a list of tables. -/
def toItems? : Value → Option (List Value)
  | array items => some items
  | tables earlier latest => some ((earlier ++ [latest]).map (table .header))
  | _ => none

end Toml.Value

namespace ArgumentFile

/-- The readers of the kinds of values, in the order in which they are tried. -/
def readers : List (Toml.Value → Option Value) :=
  [fun item => item.toBool?.map .bool, fun item => item.toInteger?.map .integer,
    fun item => item.toDouble?.map .float, fun item => item.toText?.map .text]

/-- What the first reader that takes an item makes of it. -/
def firstValue? (item : Toml.Value) : Option Value := readers.findSome? fun read => read item

/-- The fields that have been filled so far. -/
structure Fields where
  template : Option Text
  arguments : Option (List Value)

namespace Fields

def blank : Fields := ⟨none, none⟩

/-- The fields with one more entry; no field is filled twice, and there are no other fields. -/
def take? (fields : Fields) : Text × Toml.Value → Option Fields
  | (key, v) =>
    if key = templateKey then
      match fields.template with
      | some _ => none
      | none => v.toText?.map fun t => { fields with template := some t }
    else if key = argumentsKey then
      match fields.arguments with
      | some _ => none
      | none =>
        (v.toItems?.bind fun items => items.mapM firstValue?).map fun vs =>
          { fields with arguments := some vs }
    else none

/-- The file that the fields make up; a field that was never filled is empty. -/
def file (fields : Fields) : ArgumentFile := ⟨fields.template, fields.arguments.getD []⟩

end Fields

/-- The file of a text, with the entries of its root table taken one after the other. -/
def stepwise? (t : Text) : Option ArgumentFile := do
  let root ← Toml.Entries.ofDocument? t
  let fields ← root.foldlM Fields.take? .blank
  return fields.file

end ArgumentFile

end TextTemplate
