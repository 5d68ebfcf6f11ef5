import TextTemplate.Toml.Value

/-! TOML documents: the entries of the root table, the tables that headers open, and the table that
they make up. -/
namespace TextTemplate.Toml

inductive Statement
  | entry (key : List Text) (v : Value)
  | table (key : List Text)
  | arrayTable (key : List Text)

/-- The statement at the front of a text, and the text from the next line on. -/
def readStatement? (t : Text) : Option (Statement × Text) :=
  match t with
  | '[' :: '[' :: t => do
    let (key, rest) ← readKey? (skipSpaces t)
    let rest ← skipOneOf? [']'] rest >>= skipOneOf? [']'] >>= endLine?
    return (.arrayTable key, rest)
  | '[' :: t => do
    let (key, rest) ← readKey? (skipSpaces t)
    let rest ← skipOneOf? [']'] rest >>= endLine?
    return (.table key, rest)
  | _ => do
    let (key, rest) ← readKey? t
    let rest ← skipOneOf? ['='] rest
    let (v, rest) ← readValue? (skipSpaces rest)
    let rest ← endLine? rest
    return (.entry key v, rest)

/-- The statements of at most `room` lines. -/
def readStatementsWithin? : Nat → Text → Option (List Statement)
  | 0, _ => none
  | room + 1, t =>
    match skipSpaces t, endLine? t with
    | [], _ => some []
    | _, some rest => readStatementsWithin? room rest
    | line, none => do
      let (statement, rest) ← readStatement? line
      let statements ← readStatementsWithin? room rest
      return statement :: statements

/-- The statements of a document, which may start with a byte order mark. -/
def readStatements? (t : Text) : Option (List Statement) :=
  let t := if t.head? = some '\ufeff' then t.drop 1 else t
  readStatementsWithin? (t.length + 1) t

/-- The statements from one header to the next. -/
structure Section where
  header : Statement
  entries : List (List Text × Value)

/-- The entries before the first header, and the sections behind them. -/
def sections : List Statement → List (List Text × Value) × List Section
  | [] => ([], [])
  | .entry key v :: statements =>
    let (entries, rest) := sections statements
    ((key, v) :: entries, rest)
  | header :: statements =>
    let (entries, rest) := sections statements
    ([], ⟨header, entries⟩ :: rest)

namespace Entries

/-- The entries with further ones at dotted keys. -/
def addAll? (es : Entries) (further : List (List Text × Value)) : Option Entries :=
  further.foldlM (fun es (key, v) => es.add? v key) es

/-- The table that a header opens and fills; only the path of another header can have opened it
before. -/
def openTable? (further : List (List Text × Value)) : Option Value → Option Value
  | none => (addAll? [] further).map (.table .header)
  | some (.table .headerPath sub) => (addAll? sub further).map (.table .header)
  | some _ => none

/-- The array of tables with one more table that a header opens and fills. -/
def appendTable? (further : List (List Text × Value)) : Option Value → Option Value
  | none => (addAll? [] further).map (.tables [])
  | some (.tables earlier latest) => (addAll? [] further).map (.tables (earlier ++ [latest]))
  | some _ => none

/-- The entries with a change at the key of a header; the tables on the path to it are opened where
they are new. -/
def update? (change : Option Value → Option Value) : List Text → Entries → Option Entries
  | [], _ => none
  | [key], es => (change (es.get? key)).map (es.put key)
  | key :: keys, es =>
    match es.get? key with
    | none => (update? change keys []).map fun sub => es.put key (.table .headerPath sub)
    | some (.table .inline _) => none
    | some (.table origin sub) =>
      (update? change keys sub).map fun sub => es.put key (.table origin sub)
    | some (.tables earlier latest) =>
      (update? change keys latest).map fun sub => es.put key (.tables earlier sub)
    | some _ => none

def addSection? (es : Entries) (s : Section) : Option Entries :=
  match s.header with
  | .entry _ _ => none
  | .table key => es.update? (openTable? s.entries) key
  | .arrayTable key => es.update? (appendTable? s.entries) key

/-- The root table that statements make up, if no key is defined twice. -/
def ofStatements? (statements : List Statement) : Option Entries := do
  let (entries, rest) := sections statements
  let root ← addAll? [] entries
  rest.foldlM addSection? root

def ofDocument? (document : Text) : Option Entries := readStatements? document >>= ofStatements?

end Entries

end TextTemplate.Toml
