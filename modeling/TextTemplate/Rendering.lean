import TextTemplate.Output
import TextTemplate.Precision

/-! What rendering an argument does to an output, as data: fields, literal texts and alignments up
to an optional failure. -/
namespace TextTemplate

/-- One step of an argument: a field takes the pending alignment, a literal leaves it, and an
alignment replaces it. -/
inductive Insertion
  | field (text : Text)
  | literal (text : Text)
  | align (alignment : Alignment)
deriving DecidableEq, Repr

/-- The insertions of an argument in order, and the fault that ended them. -/
structure Rendering where
  insertions : List Insertion
  failure : Option SpecError
deriving DecidableEq, Repr

namespace Rendering

/-- A rendering of fields that does not fail. -/
def ofFields (texts : List Text) : Rendering := ⟨texts.map .field, none⟩

/-- A rendering that fails before it inserts anything. -/
def failing (e : SpecError) : Rendering := ⟨[], some e⟩

end Rendering

namespace Output

def insert (o : Output) : Insertion → Output
  | .field t => o.push t
  | .literal t => o.literal t
  | .align a => o.padNext a

def insertAll (o : Output) (insertions : List Insertion) : Output := insertions.foldl insert o

/-- Write a rendering; the texts before a failure stay. -/
def render (o : Output) (r : Rendering) : Output × Option SpecError :=
  (o.insertAll r.insertions, r.failure)

end Output

end TextTemplate
