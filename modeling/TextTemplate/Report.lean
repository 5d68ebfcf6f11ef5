import TextTemplate.Report.Cell
import TextTemplate.Template.Format
import TextTemplate.Text.Blank
import TextTemplate.Text.Line
import TextTemplate.Text.Width

/-! Reports that quote the line of a template with a faulty specification and mark it there. The
label counts characters, so bytes of earlier characters beyond the first move it to the right. -/
namespace TextTemplate

/-- The marked columns of a line, from `start` up to but without `stop`. -/
structure Label where
  start : Nat
  stop : Nat
deriving DecidableEq, Repr

namespace Label

/-- The column in the middle of a label, from which its message hangs. -/
def middle (l : Label) : Nat := (l.start + l.stop) / 2

def covers (l : Label) (column : Nat) : Bool := l.start ≤ column && column < l.stop

def isEmpty (l : Label) : Bool := l.stop ≤ l.start

/-- How many columns of the terminal a column takes: a tabulator reaches the next multiple of four,
and one behind the end of the line counts as a space. -/
def columnWidth (t : Text) (column : Nat) : Nat :=
  match t[column]? with
  | some c => if c = '\t' then 4 - column % 4 else if Text.isZeroWidth c then 0 else 1
  | none => 1

/-- The characters of a line from a column on, red where they are marked and blank ones as
spaces. -/
def quote (l : Label) (column : Nat) : Text → List Cell
  | [] => []
  | c :: t =>
    let colour := if l.covers column then Colour.red else Colour.quoted
    (if c = '\t' then List.replicate (4 - column % 4) ⟨some colour, ' '⟩
      else [⟨some colour, if Text.isBlank c then ' ' else c⟩]) ++ quote l (column + 1) t

/-- A row below a line: the first cell and the further cells of each column up to one behind the
label, as many as the column is wide. -/
def below (l : Label) (line : Text) (cells : Nat → Cell × Cell) : List Cell :=
  (List.range (l.stop + 2)).flatMap fun column =>
    match columnWidth line column with
    | 0 => []
    | further + 1 => (cells column).1 :: List.replicate further (cells column).2

def underline (l : Label) (line : Text) : List Cell :=
  l.below line fun column =>
    if column = l.middle then
      if l.isEmpty then (.red '│', .red ' ') else (.red '┬', .red '─')
    else if l.covers column then (.red '─', .red '─')
    else (.gap, .gap)

/-- The row that leads from the middle of a label to its message. -/
def arrow (l : Label) (line : Text) : List Cell :=
  l.below line fun column =>
    if column = l.middle then (.red '╰', .red '─')
    else if l.middle < column then (.red '─', .red '─')
    else (.gap, .gap)

end Label

/-- The excerpt of a report: where the fault is, and the marked line if the label ends within the
template. -/
structure Excerpt where
  line : Nat
  column : Nat
  quotation : Option (Text × Label)
deriving DecidableEq, Repr

namespace Excerpt

/-- The excerpt of a template for a label, if both of its ends lie in the template. -/
def ofTemplate? (template : Text) (span : Span) : Option Excerpt :=
  if span.start ≤ template.length ∧ span.stop ≤ template.length + 1 then
    let line := Line.holding template span.start
    some
      { line := line.number
        column := span.start - line.start + 1
        quotation :=
          if span.stop ≤ template.length then
            some (line.text.trimEnd, ⟨span.start - line.start, span.stop - line.start⟩)
          else none }
  else none

def numberWidth (e : Excerpt) : Nat := (Numeral.decimal e.line).length

/-- The margin of a row without a line number. -/
def margin (e : Excerpt) : Text :=
  ' ' :: Colour.margin.paint (List.replicate (e.numberWidth + 1) ' ' ++ ['│']) ++ [' ']

/-- The rows of the quoted line: the line itself, its underline, and the arrow with the message. -/
def quotationRows (e : Excerpt) (message : Text) : List Text :=
  match e.quotation with
  | none => [e.margin]
  | some (line, label) =>
    [' ' :: Colour.frame.paint (Numeral.decimal e.line ++ " │".toList) ++
        ' ' :: (label.quote 0 line).flatMap Cell.text,
      e.margin ++ (label.underline line).flatMap Cell.text,
      e.margin ++ (label.arrow line).flatMap Cell.text ++ ' ' :: message]

/-- The rows of an excerpt in a frame. -/
def rows (e : Excerpt) (filename message : Text) : List Text :=
  let indent := List.replicate (e.numberWidth + 2) ' '
  [indent ++ Colour.frame.paint "╭".toList ++ Colour.frame.paint "─".toList ++
    Colour.frame.paint "[".toList ++
      filename ++ ':' :: Numeral.decimal e.line ++ ':' :: Numeral.decimal e.column ++
      Colour.frame.paint "]".toList,
    indent ++ Colour.frame.paint "│".toList] ++
  e.quotationRows message ++
  [Colour.frame.paint (List.replicate (e.numberWidth + 2) '─' ++ ['╯'])]

end Excerpt

namespace FormatError

/-- The first row of every report. -/
def heading : Text := Colour.red.paint "Error:".toList ++ " invalid format spec".toList

def reportRows (e : FormatError) (template filename : Text) : List Text :=
  heading ::
    match Excerpt.ofTemplate? template e.span with
    | some excerpt => excerpt.rows filename e.cause.message
    | none => []

/-- The report on an error in a template, each row ended by a line feed. -/
def report (e : FormatError) (template filename : Text) : Text :=
  (e.reportRows template filename).flatMap (· ++ ['\n'])

end FormatError

end TextTemplate
