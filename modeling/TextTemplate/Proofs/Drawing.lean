import TextTemplate.Proofs.Underline

/-! The geometry of a report on a template of ASCII characters. Its rows are told by the columns of
the terminal that they fill, margins included: the underline stands below the red characters of the
quoted line and below nothing else, and the arrow leads from the middle of the underline to the
message. -/
namespace TextTemplate

namespace Report

/-- A stretch of a row in one colour or in none. -/
structure Stretch where
  colour : Option Colour
  text : Text

/-- A row of a report: its margin, and the cells behind it. -/
structure Row where
  margin : List Stretch
  cells : List Cell

def Stretch.printed (s : Stretch) : Text :=
  match s.colour with
  | some colour => colour.paint s.text
  | none => s.text

def Stretch.cells (s : Stretch) : List Cell := s.text.map fun c => ⟨s.colour, c⟩

namespace Row

def text (r : Row) : Text := r.margin.flatMap Stretch.printed ++ r.cells.flatMap Cell.text

/-- What a row shows on a terminal, from the left. -/
def shown (r : Row) : List Cell := r.margin.flatMap Stretch.cells ++ r.cells

/-- A row shows a cell of some sort in a column of the terminal. -/
def ShowsAt (r : Row) (sort : Cell → Prop) (column : Nat) : Prop :=
  ∃ cell, r.shown[column]? = some cell ∧ sort cell

end Row

/-- The margin in front of a quoted line. -/
def numberMargin (line : Nat) : List Stretch :=
  [⟨none, [' ']⟩, ⟨some .frame, Numeral.decimal line ++ " │".toList⟩, ⟨none, [' ']⟩]

/-- The margin below that of a quoted line. -/
def bareMargin (line : Nat) : List Stretch :=
  [⟨none, [' ']⟩, ⟨some .margin, List.replicate ((Numeral.decimal line).length + 1) ' ' ++ ['│']⟩,
    ⟨none, [' ']⟩]

/-- The last row of a report. -/
def closing (line : Nat) : Text :=
  Colour.frame.paint (List.replicate ((Numeral.decimal line).length + 2) '─' ++ ['╯']) ++ ['\n']

/-- A cell of the characters that are marked. -/
def IsMarked (cell : Cell) : Prop := cell.colour = some .red

/-- A cell of an underline. -/
def IsUnderline (cell : Cell) : Prop := cell = .red '─' ∨ cell = .red '┬'

/-- The row that quotes the line of a specification between two texts, with its number. -/
def quotedRow (lead spec tail : Text) : Row :=
  let column := (Text.lastLine lead).length
  ⟨numberMargin (Text.terminatorCount lead + 1),
    Cell.shown .quoted 0 (Text.lastLine lead) ++ (Cell.shown .red column spec ++
      Cell.shown .quoted (column + spec.length) (Text.firstLine tail).trimEnd)⟩

/-- Two rows point at the marked characters of a quoted line. On a terminal, in which each cell
takes a column, the underline stands exactly in the columns of these characters, and the arrow,
behind nothing but gaps, turns off exactly below the turn of the underline. -/
structure PointsAt (quoted underline arrow : Row) : Prop where
  one_column : ∀ cell ∈ quoted.shown ++ (underline.shown ++ arrow.shown),
    Text.isZeroWidth cell.char = false
  underline_cells : ∀ cell ∈ underline.cells, cell = .gap ∨ IsUnderline cell
  arrow_cells : ∃ gaps dashes, arrow.cells =
    List.replicate gaps .gap ++ .red '╰' :: List.replicate dashes (.red '─')
  underline_iff : ∀ column, underline.ShowsAt IsUnderline column ↔ quoted.ShowsAt IsMarked column
  corner : ∃ column, ∀ i, (underline.ShowsAt (· = .red '┬') i ↔ i = column) ∧
    (arrow.ShowsAt (· = .red '╰') i ↔ i = column)

/-- A report consists of the place of a specification between two texts, the line that holds it, an
underline and an arrow that point at it there, a message behind the arrow, and the last row. -/
def Draws (report filename message lead spec tail : Text) : Prop :=
  let line := Text.terminatorCount lead + 1
  ∃ underline arrow : Row, underline.margin = bareMargin line ∧ arrow.margin = bareMargin line ∧
    report = opening filename line ((Text.lastLine lead).length + 1) ++
      ((quotedRow lead spec tail).text ++ '\n' :: (underline.text ++ '\n' ::
        (arrow.text ++ ' ' :: (message ++ '\n' :: closing line)))) ∧
    PointsAt (quotedRow lead spec tail) underline arrow

section

variable {line : Nat}

/-- A row that shows cells of some sort in one run, behind a margin without any. -/
theorem Row.showsAt_iff {margin : List Stretch} {x y z : List Cell} {sort : Cell → Prop}
    (hmargin : ∀ cell ∈ margin.flatMap Stretch.cells, ¬ sort cell) (hx : ∀ cell ∈ x, ¬ sort cell)
    (hy : ∀ cell ∈ y, sort cell) (hz : ∀ cell ∈ z, ¬ sort cell) (i : Nat) :
    Row.ShowsAt ⟨margin, x ++ (y ++ z)⟩ sort i ↔
      (margin.flatMap Stretch.cells).length + x.length ≤ i ∧
        i < (margin.flatMap Stretch.cells).length + x.length + y.length := by
  have hleft : ∀ cell ∈ margin.flatMap Stretch.cells ++ x, ¬ sort cell :=
    List.forall_mem_append.mpr ⟨hmargin, hx⟩
  rw [ShowsAt, Row.shown, ← List.append_assoc, ← List.length_append]
  generalize margin.flatMap Stretch.cells ++ x = left at hleft ⊢
  constructor
  · rintro ⟨cell, hcell, hsort⟩
    by_contra hout
    rw [List.getElem?_append] at hcell
    split at hcell
    · exact hleft cell (List.mem_of_getElem? hcell) hsort
    · rw [List.getElem?_append, if_neg (by omega)] at hcell
      exact hz cell (List.mem_of_getElem? hcell) hsort
  · rintro ⟨hlow, hhigh⟩
    have hlt : i - left.length < y.length := by omega
    refine ⟨y[i - left.length], ?_, hy _ (List.getElem_mem hlt)⟩
    rw [List.getElem?_append_right hlow, List.getElem?_append_left hlt,
      List.getElem?_eq_getElem hlt]

theorem length_numberMargin (line : Nat) : ((numberMargin line).flatMap Stretch.cells).length =
    (Numeral.decimal line).length + 4 := by
  simp [numberMargin, Stretch.cells]

theorem length_bareMargin (line : Nat) : ((bareMargin line).flatMap Stretch.cells).length =
    (Numeral.decimal line).length + 4 := by
  simp [bareMargin, Stretch.cells]

theorem not_isMarked_of_mem_cells {margin : List Stretch}
    (h : ∀ stretch ∈ margin, stretch.colour ≠ some .red) :
    ∀ cell ∈ margin.flatMap Stretch.cells, ¬ IsMarked cell := by
  intro cell hcell
  obtain ⟨stretch, hstretch, hmem⟩ := List.mem_flatMap.mp hcell
  obtain ⟨c, -, rfl⟩ := List.mem_map.mp hmem
  exact h stretch hstretch

theorem not_isMarked_of_mem_numberMargin :
    ∀ cell ∈ (numberMargin line).flatMap Stretch.cells, ¬ IsMarked cell :=
  not_isMarked_of_mem_cells (by simp [numberMargin, Colour.frame])

theorem not_isMarked_of_mem_bareMargin :
    ∀ cell ∈ (bareMargin line).flatMap Stretch.cells, ¬ IsMarked cell :=
  not_isMarked_of_mem_cells (by simp [bareMargin, Colour.margin])

theorem isMarked_red (c : Char) : IsMarked (.red c) := rfl

theorem IsUnderline.isMarked {cell : Cell} (h : IsUnderline cell) : IsMarked cell := by
  obtain rfl | rfl := h <;> rfl

theorem not_isMarked_of_mem_replicate {count : Nat} :
    ∀ cell ∈ List.replicate count Cell.gap, ¬ IsMarked cell := by
  intro cell hcell
  rw [List.eq_of_mem_replicate hcell]
  exact nofun

theorem not_isMarked_of_mem_shown {column : Nat} {t : Text} :
    ∀ cell ∈ Cell.shown .quoted column t, ¬ IsMarked cell := by
  intro cell hcell
  rw [IsMarked, Cell.colour_of_mem_shown hcell]
  exact nofun

theorem showsAt_isMarked_iff (line column column' column'' : Nat) (s t u : Text) (i : Nat) :
    Row.ShowsAt ⟨numberMargin line, Cell.shown .quoted column s ++ (Cell.shown .red column' t ++
        Cell.shown .quoted column'' u)⟩ IsMarked i ↔
      (Numeral.decimal line).length + 4 + s.cellCount column ≤ i ∧
        i < (Numeral.decimal line).length + 4 + s.cellCount column + t.cellCount column' := by
  rw [Row.showsAt_iff not_isMarked_of_mem_numberMargin not_isMarked_of_mem_shown
    (fun cell hcell => Cell.colour_of_mem_shown hcell) not_isMarked_of_mem_shown,
    length_numberMargin, Cell.length_shown, Cell.length_shown]

/-- The one column in which a row shows a red cell. -/
theorem showsAt_eq_iff {x z : List Cell} {cell : Cell} (hcell : IsMarked cell) (hx : cell ∉ x)
    (hz : cell ∉ z) (i : Nat) :
    Row.ShowsAt ⟨bareMargin line, x ++ cell :: z⟩ (· = cell) i ↔
      i = (Numeral.decimal line).length + 4 + x.length := by
  have hmargin : ∀ d ∈ (bareMargin line).flatMap Stretch.cells, d ≠ cell :=
    fun d hd heq => not_isMarked_of_mem_bareMargin d hd (heq ▸ hcell)
  have h : Row.ShowsAt ⟨bareMargin line, x ++ ([cell] ++ z)⟩ (· = cell) i ↔ _ :=
    Row.showsAt_iff hmargin (fun d hd => ne_of_mem_of_not_mem hd hx)
      (fun d hd => List.mem_singleton.mp hd) (fun d hd => ne_of_mem_of_not_mem hd hz) i
  rw [length_bareMargin, List.length_singleton] at h
  exact h.trans (by omega)

section

variable (line before half dashes behind : Nat)

theorem isUnderline_of_mem_dashes : ∀ cell ∈ List.replicate half (Cell.red '─') ++
    .red '┬' :: List.replicate dashes (.red '─'), IsUnderline cell := by
  intro cell hcell
  simp only [List.mem_append, List.mem_cons, List.mem_replicate] at hcell
  rcases hcell with ⟨-, rfl⟩ | rfl | ⟨-, rfl⟩
  · exact .inl rfl
  · exact .inr rfl
  · exact .inl rfl

theorem showsAt_isUnderline_iff (i : Nat) :
    Row.ShowsAt ⟨bareMargin line, Label.underlineCells before half dashes behind⟩ IsUnderline i ↔
      (Numeral.decimal line).length + 4 + before ≤ i ∧
        i < (Numeral.decimal line).length + 4 + before + (half + (dashes + 1)) := by
  rw [Label.underlineCells,
    Row.showsAt_iff (fun cell hcell h => not_isMarked_of_mem_bareMargin cell hcell h.isMarked)
      (fun cell hcell h => not_isMarked_of_mem_replicate cell hcell h.isMarked)
      (isUnderline_of_mem_dashes half dashes)
      (fun cell hcell h => not_isMarked_of_mem_replicate cell hcell h.isMarked), length_bareMargin]
  simp

theorem showsAt_turn_iff (i : Nat) :
    Row.ShowsAt ⟨bareMargin line, Label.underlineCells before half dashes behind⟩ (· = .red '┬') i ↔
      i = (Numeral.decimal line).length + 4 + (before + half) := by
  have hcells : Label.underlineCells before half dashes behind =
      (List.replicate before .gap ++ List.replicate half (.red '─')) ++
        .red '┬' :: (List.replicate dashes (.red '─') ++ List.replicate behind .gap) := by
    simp [Label.underlineCells]
  rw [hcells, showsAt_eq_iff (isMarked_red _) (by simp [Cell.red, Cell.gap])
    (by simp [Cell.red, Cell.gap])]
  simp

theorem showsAt_corner_iff (i : Nat) :
    Row.ShowsAt ⟨bareMargin line, Label.arrowCells before dashes⟩ (· = .red '╰') i ↔
      i = (Numeral.decimal line).length + 4 + before := by
  rw [Label.arrowCells,
    showsAt_eq_iff (isMarked_red _) (by simp [Cell.red, Cell.gap]) (by simp [Cell.red]),
    List.length_replicate]

end

/-- Spaces and the lines of a drawing take one column each. -/
theorem isZeroWidth_of_mem_drawing :
    ∀ c ∈ [' ', '│', '─', '┬', '╰'], Text.isZeroWidth c = false := by
  have h : ([' ', '│', '─', '┬', '╰'].all fun c => !Text.isZeroWidth c) = true := by decide +kernel
  simpa using h

theorem isZeroWidth_of_mem_cells {margin : List Stretch}
    (h : ∀ stretch ∈ margin, ∀ c ∈ stretch.text, c ∈ [' ', '│', '─', '┬', '╰'] ∨ c.isDigit = true) :
    ∀ cell ∈ margin.flatMap Stretch.cells, Text.isZeroWidth cell.char = false := by
  intro cell hcell
  obtain ⟨stretch, hstretch, hmem⟩ := List.mem_flatMap.mp hcell
  obtain ⟨c, hc, rfl⟩ := List.mem_map.mp hmem
  obtain hdrawing | hdigit := h stretch hstretch c hc
  · exact isZeroWidth_of_mem_drawing c hdrawing
  · have hrange := (Numeral.isDigit_iff_toNat.mp hdigit).2
    exact Text.isZeroWidth_of_lt (Nat.lt_trans hrange (by decide))

theorem isZeroWidth_of_mem_numberMargin (line : Nat) :
    ∀ cell ∈ (numberMargin line).flatMap Stretch.cells, Text.isZeroWidth cell.char = false := by
  apply isZeroWidth_of_mem_cells
  simp only [numberMargin, List.forall_mem_cons, List.forall_mem_append]
  exact ⟨by simp, ⟨fun c hc => .inr (Numeral.isDigit_of_mem_decimal hc), by simp⟩, by simp⟩

theorem isZeroWidth_of_mem_bareMargin (line : Nat) :
    ∀ cell ∈ (bareMargin line).flatMap Stretch.cells, Text.isZeroWidth cell.char = false := by
  apply isZeroWidth_of_mem_cells
  simp only [bareMargin, List.forall_mem_cons, List.forall_mem_append]
  exact ⟨by simp, ⟨fun c hc => .inl (by simp [List.eq_of_mem_replicate hc]), by simp⟩, by simp⟩

theorem isZeroWidth_of_mem_shown {colour : Colour} {column : Nat} {t : Text}
    (h : ∀ c ∈ t, Text.isZeroWidth c = false) :
    ∀ cell ∈ Cell.shown colour column t, Text.isZeroWidth cell.char = false := by
  intro cell hcell
  obtain rfl | ⟨c, hc, rfl⟩ := Cell.eq_of_mem_shown hcell
  · exact isZeroWidth_of_mem_drawing ' ' (by decide)
  · exact h c hc

theorem isZeroWidth_of_mem_underlineCells {before half dashes behind : Nat} :
    ∀ cell ∈ Label.underlineCells before half dashes behind,
      Text.isZeroWidth cell.char = false := by
  intro cell hcell
  simp only [Label.underlineCells, List.mem_append, List.mem_cons, List.mem_replicate] at hcell
  rcases hcell with ⟨-, rfl⟩ | (⟨-, rfl⟩ | rfl | ⟨-, rfl⟩) | ⟨-, rfl⟩ <;>
    exact isZeroWidth_of_mem_drawing _ (by decide)

theorem isZeroWidth_of_mem_arrowCells {before dashes : Nat} :
    ∀ cell ∈ Label.arrowCells before dashes, Text.isZeroWidth cell.char = false := by
  intro cell hcell
  simp only [Label.arrowCells, List.mem_append, List.mem_cons, List.mem_replicate] at hcell
  rcases hcell with ⟨-, rfl⟩ | rfl | ⟨-, rfl⟩ <;> exact isZeroWidth_of_mem_drawing _ (by decide)

/-- The rows of a label point at the characters that it covers. -/
theorem pointsAt_of_count {s t u : Text} (hwidth : ∀ c ∈ s ++ (t ++ u), Text.isZeroWidth c = false)
    {half dashes : Nat} (hcount : half + (dashes + 1) = t.cellCount s.length)
    (line column behind length : Nat) :
    PointsAt
      ⟨numberMargin line, Cell.shown .quoted 0 s ++
        (Cell.shown .red s.length t ++ Cell.shown .quoted column u)⟩
      ⟨bareMargin line, Label.underlineCells (s.cellCount 0) half dashes behind⟩
      ⟨bareMargin line, Label.arrowCells (s.cellCount 0 + half) length⟩ := by
  simp only [List.forall_mem_append] at hwidth
  constructor
  · simp only [Row.shown, List.forall_mem_append]
    exact ⟨⟨isZeroWidth_of_mem_numberMargin line, isZeroWidth_of_mem_shown hwidth.1,
        isZeroWidth_of_mem_shown hwidth.2.1, isZeroWidth_of_mem_shown hwidth.2.2⟩,
      ⟨isZeroWidth_of_mem_bareMargin line, isZeroWidth_of_mem_underlineCells⟩,
      isZeroWidth_of_mem_bareMargin line, isZeroWidth_of_mem_arrowCells⟩
  · intro cell hcell
    obtain hgap | hrest := List.mem_append.mp hcell
    · exact .inl (List.eq_of_mem_replicate hgap)
    · obtain hdash | hgap := List.mem_append.mp hrest
      · exact .inr (isUnderline_of_mem_dashes half dashes cell hdash)
      · exact .inl (List.eq_of_mem_replicate hgap)
  · exact ⟨_, _, rfl⟩
  · intro i
    rw [showsAt_isUnderline_iff, showsAt_isMarked_iff, hcount]
  · exact ⟨_, fun i => ⟨showsAt_turn_iff .., showsAt_corner_iff ..⟩⟩

end

end Report

theorem Text.mem_of_mem_trimEnd_firstLine {c : Char} {t : Text} (h : c ∈ (firstLine t).trimEnd) :
    c ∈ t := by
  rw [trimEnd, List.mem_reverse] at h
  have hline := (List.dropWhile_sublist _).subset h
  rw [List.mem_reverse] at hline
  exact (List.takeWhile_sublist _).subset hline

namespace FormatError

open Report

variable {e : FormatError} {template filename lead after : Text}

/-- All rows of a report that quotes a line. -/
theorem report_of_quotation {line column : Nat} {text : Text} {label : Label}
    (h : Excerpt.ofTemplate? template e.span = some ⟨line, column, some (text, label)⟩)
    (filename : Text) :
    e.report template filename = opening filename line column ++
      (Row.text ⟨numberMargin line, label.quote 0 text⟩ ++ '\n' ::
        (Row.text ⟨bareMargin line, label.underline text⟩ ++ '\n' ::
          (Row.text ⟨bareMargin line, label.arrow text⟩ ++ ' ' ::
            (e.cause.message ++ '\n' :: closing line)))) := by
  simp [report, reportRows, h, Excerpt.rows, Excerpt.quotationRows, Excerpt.margin,
    Excerpt.numberWidth, opening, Row.text, numberMargin, bareMargin, Stretch.printed, closing]

/-- The excerpt of a template for a span that counts the characters of a specification. -/
theorem ofTemplate?_of_span (hspan : e.span = ⟨lead.length, lead.length + e.spec.length⟩)
    (hne : e.spec ≠ []) (hspec : ∀ c ∈ e.spec, c ∉ Text.lineTerminators) (after : Text) :
    Excerpt.ofTemplate? (lead ++ (e.spec ++ '}' :: after)) e.span =
      some ⟨Text.terminatorCount lead + 1, (Text.lastLine lead).length + 1,
        some (Text.lastLine lead ++ (e.spec ++ (Text.firstLine ('}' :: after)).trimEnd),
          ⟨(Text.lastLine lead).length, (Text.lastLine lead).length + e.spec.length⟩)⟩ := by
  obtain ⟨t, hholding, htrim⟩ := exists_holding_lead hne hspec lead after
  have hlast := length_lastLine_le lead
  have hlength : (lead ++ (e.spec ++ '}' :: after)).length =
      lead.length + (e.spec.length + (after.length + 1)) := by
    simp
  have hstart : lead.length - (lead.length - (Text.lastLine lead).length) =
      (Text.lastLine lead).length := by
    omega
  have hstop : lead.length + e.spec.length - (lead.length - (Text.lastLine lead).length) =
      (Text.lastLine lead).length + e.spec.length := by omega
  simp only [Excerpt.ofTemplate?, hspan, hholding, htrim, hstart, hstop, trimEnd_firstLine_close]
  rw [if_pos (by omega), if_pos (by omega)]

/-- A report whose label covers a specification draws it, where every character takes a column. -/
theorem draws_of_span (hspan : e.span = ⟨lead.length, lead.length + e.spec.length⟩)
    (hne : e.spec ≠ []) (hspec : ∀ c ∈ e.spec, c ∉ Text.lineTerminators)
    (hwidth : ∀ c ∈ lead ++ (e.spec ++ '}' :: after), Text.isZeroWidth c = false)
    (filename : Text) :
    Draws (e.report (lead ++ (e.spec ++ '}' :: after)) filename) filename e.cause.message
      lead e.spec ('}' :: after) := by
  have hreport := report_of_quotation (ofTemplate?_of_span hspan hne hspec after) filename
  simp only [List.forall_mem_append] at hwidth
  have hline : ∀ c ∈ Text.lastLine lead, Text.isZeroWidth c = false :=
    fun c hc => hwidth.1 c ((List.rtakeWhile_suffix _ _).subset hc)
  have hrest : ∀ c ∈ (Text.firstLine ('}' :: after)).trimEnd, Text.isZeroWidth c = false :=
    fun c hc => hwidth.2.2 c (Text.mem_of_mem_trimEnd_firstLine hc)
  obtain ⟨half, dashes, behind, length, hunderline, harrow, hcount⟩ :=
    Label.exists_rows_eq hne (List.forall_mem_append.mpr ⟨hline, hwidth.2.1⟩)
      (Text.firstLine ('}' :: after)).trimEnd
  have hquote : Label.quote
      ⟨(Text.lastLine lead).length, (Text.lastLine lead).length + e.spec.length⟩ 0
      (Text.lastLine lead ++ (e.spec ++ (Text.firstLine ('}' :: after)).trimEnd)) =
      Cell.shown .quoted 0 (Text.lastLine lead) ++
        (Cell.shown .red (Text.lastLine lead).length e.spec ++
          Cell.shown .quoted ((Text.lastLine lead).length + e.spec.length)
          (Text.firstLine ('}' :: after)).trimEnd) := by
    rw [Label.quote_append_append _ _ _ (Nat.le_refl _), Label.quote_eq_shown false]
    · rfl
    · intro i hi _
      simp [Label.covers]
      omega
  rw [hquote, hunderline, harrow] at hreport
  exact ⟨_, _, rfl, rfl, hreport, pointsAt_of_count
    (List.forall_mem_append.mpr ⟨hline, List.forall_mem_append.mpr ⟨hwidth.2.1, hrest⟩⟩) hcount ..⟩

end FormatError

/-- The place of the faulty specification of a template, in front of a closing brace. -/
theorem exists_lead_of_format_eq_error {store : Store} {template : Text} {e : FormatError}
    (h : format store template = .error e) :
    ∃ lead after, template = lead ++ (e.spec ++ '}' :: after) ∧
      e.span = ⟨lead.byteLength, lead.byteLength + e.spec.byteLength⟩ := by
  obtain ⟨s, rfl, -, hs⟩ :=
    exists_failsFirst_of_format_eq_error (isEmpty_eq_false_of_format_eq_error h) h
  rw [Nat.zero_add] at hs
  obtain ⟨lead, hlead, hspan⟩ := Site.exists_lead_of_contribution_eq_error hs
  refine ⟨lead, s.after, ?_, hspan⟩
  rw [← List.append_assoc, hlead]
  simp [Site.template]

theorem Text.byteLength_eq_length_of_ascii {t : Text} (h : ∀ c ∈ t, c.toNat < 128) :
    t.byteLength = t.length :=
  byteLength_eq_length_iff.mpr fun c hc => Char.utf8Size_eq_one_iff.mpr (Nat.le_of_lt_succ (h c hc))

theorem Text.ascii_of_all {t : Text} (h : (t.all fun c => c.toNat < 128) = true) :
    ∀ c ∈ t, c.toNat < 128 := by
  simpa using h

/-- The report on a faulty specification in a template of ASCII characters names its place, quotes
its line with the specification in red, underlines that alone, and tells its message behind an arrow
from the middle of the underline. -/
theorem report_draws_spec {store : Store} {template : Text} {e : FormatError}
    (h : format store template = .error e) (hascii : ∀ c ∈ template, c.toNat < 128)
    (hne : e.spec ≠ []) (hspec : ∀ c ∈ e.spec, c ∉ Text.lineTerminators) (filename : Text) :
    ∃ lead after, template = lead ++ (e.spec ++ '}' :: after) ∧
      e.span = ⟨lead.length, lead.length + e.spec.length⟩ ∧
      Report.Draws (e.report template filename) filename e.cause.message lead e.spec
        ('}' :: after) := by
  obtain ⟨lead, after, rfl, hspan⟩ := exists_lead_of_format_eq_error h
  have hbytes := hascii
  simp only [List.forall_mem_append] at hbytes
  rw [Text.byteLength_eq_length_of_ascii hbytes.1, Text.byteLength_eq_length_of_ascii hbytes.2.1]
    at hspan
  have hwidth : ∀ c ∈ lead ++ (e.spec ++ '}' :: after), Text.isZeroWidth c = false :=
    fun c hc => Text.isZeroWidth_of_lt (Nat.lt_trans (hascii c hc) (by decide))
  exact ⟨lead, after, rfl, hspan, FormatError.draws_of_span hspan hne hspec hwidth filename⟩

/-- Tabulators in front of the specification and in it, in the second line. -/
theorem report_draws_spec_between_tabulators :
    format ⟨[.float (.finite false (.zero .double))]⟩ "a\tb\r\n\t\x7b0,4:.\tyf\x7d\tz\n".toList =
        .error ⟨⟨11, 15⟩, ".\tyf".toList, .notANumber "\ty".toList⟩ ∧
      (∀ c ∈ "a\tb\r\n\t\x7b0,4:.\tyf\x7d\tz\n".toList, c.toNat < 128) ∧ ".\tyf".toList ≠ [] ∧
      (∀ c ∈ ".\tyf".toList, c ∉ Text.lineTerminators) ∧
      ∃ lead after, "a\tb\r\n\t\x7b0,4:.\tyf\x7d\tz\n".toList =
        lead ++ (".\tyf".toList ++ '}' :: after) ∧
        Span.mk 11 15 = ⟨lead.length, lead.length + ".\tyf".toList.length⟩ ∧
        Report.Draws
          (FormatError.report ⟨⟨11, 15⟩, ".\tyf".toList, .notANumber "\ty".toList⟩
            "a\tb\r\n\t\x7b0,4:.\tyf\x7d\tz\n".toList "t".toList)
          "t".toList (SpecError.notANumber "\ty".toList).message lead ".\tyf".toList
            ('}' :: after) := by
  have h : format ⟨[.float (.finite false (.zero .double))]⟩
      "a\tb\r\n\t\x7b0,4:.\tyf\x7d\tz\n".toList =
      .error ⟨⟨11, 15⟩, ".\tyf".toList, .notANumber "\ty".toList⟩ := rfl
  have hascii : ∀ c ∈ "a\tb\r\n\t\x7b0,4:.\tyf\x7d\tz\n".toList, c.toNat < 128 :=
    Text.ascii_of_all rfl
  have hspec : ∀ c ∈ ".\tyf".toList, c ∉ Text.lineTerminators :=
    Text.notMem_lineTerminators_of_all rfl
  exact ⟨h, hascii, by decide, hspec, report_draws_spec h hascii (by decide) hspec "t".toList⟩

end TextTemplate
