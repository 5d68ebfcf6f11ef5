import TextTemplate.Proofs.Marking

/-! The two rows below a quoted line, by the columns of a terminal that they fill. Where every
character takes a column, the underline is as wide as the characters that a label covers, and the
arrow turns off below the middle of the underline. -/
namespace TextTemplate

/-- How many columns of a terminal characters of a line fill from a column on. A tabulator fills up
to the next multiple of four, where each character in front of it counts as one column. -/
def Text.cellCount (column : Nat) : Text → Nat
  | [] => 0
  | c :: t => (if c = '\t' then 4 - column % 4 else 1) + cellCount (column + 1) t

section

variable {c : Char} {s t u : Text} {column : Nat}

theorem Text.cellCount_append : cellCount column (s ++ t) =
    cellCount column s + cellCount (column + s.length) t := by
  induction s generalizing column with
  | nil => simp [cellCount]
  | cons c s ih =>
    rw [List.cons_append, cellCount, ih, cellCount, List.length_cons, Nat.add_assoc, Nat.add_assoc,
      Nat.add_comm 1]

theorem Cell.length_shown (colour : Colour) (column : Nat) (t : Text) :
    (shown colour column t).length = t.cellCount column := by
  induction t generalizing column with
  | nil => rfl
  | cons c t ih =>
    rw [shown, List.length_append, ih, Text.cellCount]
    split
    · rw [List.length_replicate]
    · rfl

/-- A cell that shows characters shows one of them or a space. -/
theorem Cell.eq_of_mem_shown {colour : Colour} {cell : Cell} (h : cell ∈ shown colour column t) :
    cell = ⟨some colour, ' '⟩ ∨ ∃ c ∈ t, cell = ⟨some colour, c⟩ := by
  induction t generalizing column with
  | nil => cases h
  | cons c t ih =>
    obtain hc | ht := List.mem_append.mp h
    · split at hc
      · exact .inl (List.eq_of_mem_replicate hc)
      · rw [List.mem_singleton] at hc
        split at hc
        · exact .inl hc
        · exact .inr ⟨c, List.mem_cons_self, hc⟩
    · exact (ih ht).imp_right fun ⟨d, hd, heq⟩ => ⟨d, List.mem_cons_of_mem _ hd, heq⟩

theorem Cell.colour_of_mem_shown {colour : Colour} {cell : Cell}
    (h : cell ∈ shown colour column t) :
    cell.colour = some colour := by
  obtain rfl | ⟨c, -, rfl⟩ := eq_of_mem_shown h <;> rfl

end

namespace Label

variable {line s t u v : Text} {c : Char} {cell : Cell} {cells : Nat → Cell × Cell}
  {start m n : Nat}

/-- The cells of one column of a row below a line: the first one, and the further ones. -/
def filled : Nat → Cell × Cell → List Cell
  | 0, _ => []
  | further + 1, cells => cells.1 :: List.replicate further cells.2

theorem filled_self (width : Nat) (cell : Cell) :
    filled width (cell, cell) = List.replicate width cell := by
  cases width <;> rfl

/-- The cells of some columns of a row below a line. -/
def strip (line : Text) (cells : Nat → Cell × Cell) (start count : Nat) : List Cell :=
  (List.range' start count).flatMap fun column => filled (columnWidth line column) (cells column)

theorem below_eq_strip (l : Label) : l.below line cells = strip line cells 0 (l.stop + 2) := by
  rw [below, strip, List.range_eq_range']
  congr 1
  funext column
  cases columnWidth line column <;> rfl

theorem strip_add : strip line cells start (m + n) =
    strip line cells start m ++ strip line cells (start + m) n := by
  rw [strip, ← List.range'_append_1, List.flatMap_append]
  rfl

theorem strip_succ : strip line cells start (n + 1) =
    filled (columnWidth line start) (cells start) ++ strip line cells (start + 1) n := by
  rw [strip, List.range'_succ, List.flatMap_cons]
  rfl

/-- Columns with the same cell everywhere. -/
theorem exists_strip_eq_replicate (h : ∀ i, start ≤ i → i < start + n → cells i = (cell, cell)) :
    ∃ count, strip line cells start n = List.replicate count cell := by
  induction n generalizing start with
  | zero => exact ⟨0, rfl⟩
  | succ n ih =>
    obtain ⟨count, hcount⟩ : ∃ count, strip line cells (start + 1) n = List.replicate count cell :=
      ih fun i hi hi' => h i (by omega) (by omega)
    refine ⟨columnWidth line start + count, ?_⟩
    rw [strip_succ, h start (Nat.le_refl _) (by omega), filled_self, hcount,
      List.replicate_append_replicate]

theorem columnWidth_append_cons (hc : Text.isZeroWidth c = false) :
    columnWidth (s ++ c :: t) s.length = if c = '\t' then 4 - s.length % 4 else 1 := by
  simp [columnWidth, hc]

/-- The columns of a text below which every cell is the same. -/
theorem strip_eq_replicate (hwidth : ∀ c ∈ t, Text.isZeroWidth c = false)
    (h : ∀ i, s.length ≤ i → i < s.length + t.length → cells i = (cell, cell)) :
    strip (s ++ (t ++ u)) cells s.length t.length = List.replicate (t.cellCount s.length) cell := by
  induction t generalizing s with
  | nil => rfl
  | cons c t ih =>
    rw [List.forall_mem_cons] at hwidth
    simp only [List.length_cons] at h
    have hrest := ih (s := s ++ [c]) hwidth.2 fun i hi hi' => by
      rw [List.length_append, List.length_singleton] at hi hi'
      exact h i (by omega) (by omega)
    rw [List.append_assoc, List.length_append, List.length_singleton] at hrest
    rw [List.length_cons, strip_succ, h s.length (Nat.le_refl _) (by omega), List.cons_append,
      columnWidth_append_cons hwidth.1, Text.cellCount, ← List.replicate_append_replicate, ← hrest,
      filled_self]
    rfl

/-- The cells of the row that underlines a label. -/
def marks (l : Label) (column : Nat) : Cell × Cell :=
  if column = l.middle then
    if l.isEmpty then (.red '│', .red ' ') else (.red '┬', .red '─')
  else if l.covers column then (.red '─', .red '─')
  else (.gap, .gap)

theorem marks_eq {l : Label} (hne : l.start < l.stop) (column : Nat) : l.marks column =
    if column = l.middle then (.red '┬', .red '─')
    else if l.start ≤ column ∧ column < l.stop then (.red '─', .red '─')
    else (.gap, .gap) := by
  have hempty : l.isEmpty = false := by simp [isEmpty, hne]
  simp [marks, hempty, covers]

/-- The cells of the row that leads from a label to its message. -/
def hooks (l : Label) (column : Nat) : Cell × Cell :=
  if column = l.middle then (.red '╰', .red '─')
  else if l.middle < column then (.red '─', .red '─')
  else (.gap, .gap)

theorem middle_eq (hmiddle : u.length = (u ++ c :: v).length / 2) :
    middle ⟨s.length, s.length + (u ++ c :: v).length⟩ = s.length + u.length := by
  simp only [middle]
  omega

/-- A row below a line, cut at the ends and in the middle of the label. -/
theorem below_eq_strips (s u v : Text) (c : Char) (line : Text) (cells : Nat → Cell × Cell) :
    below ⟨s.length, s.length + (u ++ c :: v).length⟩ line cells =
      strip line cells 0 s.length ++ (strip line cells s.length u.length ++
        (filled (columnWidth line (s.length + u.length)) (cells (s.length + u.length)) ++
          (strip line cells (s.length + u.length + 1) v.length ++
            strip line cells (s.length + u.length + 1 + v.length) 2))) := by
  have hstop : s.length + (u ++ c :: v).length + 2 =
      s.length + (u.length + (v.length + 2 + 1)) := by
    rw [List.length_append, List.length_cons]
    omega
  rw [below_eq_strip, hstop, strip_add, strip_add, strip_succ, strip_add, Nat.zero_add]

/-- The column behind a text is as wide as the character above it, which takes one column at
least. -/
theorem exists_columnWidth_eq (hc : Text.isZeroWidth c = false) (s v rest : Text) : ∃ further,
    columnWidth (s ++ (c :: v ++ rest)) s.length = further + 1 ∧
      Text.cellCount s.length (c :: v) = further + 1 + v.cellCount (s.length + 1) := by
  have hmod := Nat.mod_lt s.length (show 0 < 4 by decide)
  rw [List.cons_append, columnWidth_append_cons hc, Text.cellCount]
  split
  · exact ⟨4 - s.length % 4 - 1, by omega, by omega⟩
  · exact ⟨0, rfl, rfl⟩

/-- A row whose cells are the same in front of the label, in its first half, in its second half and
behind it; only the middle column starts with a cell of its own. -/
theorem exists_below_eq (cells : Nat → Cell × Cell) (left before hook dash right : Cell)
    (hwidth : ∀ d ∈ s ++ (u ++ c :: v), Text.isZeroWidth d = false)
    (hleft : ∀ i < s.length, cells i = (left, left))
    (hbefore : ∀ i, s.length ≤ i → i < s.length + u.length → cells i = (before, before))
    (hhook : cells (s.length + u.length) = (hook, dash))
    (hafter : ∀ i, s.length + u.length < i → i < s.length + u.length + 1 + v.length →
      cells i = (dash, dash))
    (hright : ∀ i, s.length + u.length + 1 + v.length ≤ i → cells i = (right, right))
    (rest : Text) :
    ∃ dashes behind,
      below ⟨s.length, s.length + (u ++ c :: v).length⟩ (s ++ ((u ++ c :: v) ++ rest)) cells =
          List.replicate (s.cellCount 0) left ++
            ((List.replicate (u.cellCount s.length) before ++ hook :: List.replicate dashes dash) ++
              List.replicate behind right) ∧
        u.cellCount s.length + (dashes + 1) = (u ++ c :: v).cellCount s.length := by
  simp only [List.forall_mem_append, List.forall_mem_cons] at hwidth
  obtain ⟨hs, hu, hc, hv⟩ := hwidth
  have hstart : strip (s ++ ((u ++ c :: v) ++ rest)) cells 0 s.length =
      List.replicate (s.cellCount 0) left :=
    strip_eq_replicate (s := []) hs fun i _ hi => hleft i (by simpa using hi)
  have hfirst := strip_eq_replicate (u := c :: v ++ rest) hu hbefore
  have hsecond : strip (s ++ u ++ [c] ++ (v ++ rest)) cells (s ++ u ++ [c]).length v.length =
      List.replicate (v.cellCount (s ++ u ++ [c]).length) dash := by
    refine strip_eq_replicate hv fun i hi hi' => ?_
    simp only [List.length_append, List.length_singleton] at hi hi'
    exact hafter i (by omega) (by omega)
  obtain ⟨further, hcolumn, hcount⟩ := exists_columnWidth_eq hc (s ++ u) v rest
  obtain ⟨behind, hend⟩ : ∃ count, strip (s ++ ((u ++ c :: v) ++ rest)) cells
      (s.length + u.length + 1 + v.length) 2 = List.replicate count right :=
    exists_strip_eq_replicate fun i hi _ => hright i hi
  simp only [List.append_assoc, List.cons_append, List.nil_append, List.length_append,
    List.length_singleton, ← Nat.add_assoc] at hstart hfirst hsecond hcolumn hcount hend
  refine ⟨further + v.cellCount (s.length + u.length + 1), behind, ?_, ?_⟩
  · rw [below_eq_strips]
    simp only [List.append_assoc, List.cons_append, hstart, hfirst, hsecond, hcolumn, hhook,
      hend, filled, ← List.replicate_append_replicate]
  · rw [Text.cellCount_append, hcount]
    omega

/-- Gaps, an underline with a turn in it, and gaps again. -/
def underlineCells (before half dashes behind : Nat) : List Cell :=
  List.replicate before .gap ++
    ((List.replicate half (.red '─') ++ .red '┬' :: List.replicate dashes (.red '─')) ++
      List.replicate behind .gap)

/-- Gaps, and an arrow that turns off and goes on to the end of its row. -/
def arrowCells (before dashes : Nat) : List Cell :=
  List.replicate before .gap ++ .red '╰' :: List.replicate dashes (.red '─')

section

variable (rest : Text) (hwidth : ∀ d ∈ s ++ (u ++ c :: v), Text.isZeroWidth d = false)
  (hmiddle : u.length = (u ++ c :: v).length / 2)
include hwidth hmiddle

/-- The underline stands below the label, as wide as the characters above it. -/
theorem exists_underline_eq : ∃ dashes behind,
    underline ⟨s.length, s.length + (u ++ c :: v).length⟩ (s ++ ((u ++ c :: v) ++ rest)) =
        underlineCells (s.cellCount 0) (u.cellCount s.length) dashes behind ∧
      u.cellCount s.length + (dashes + 1) = (u ++ c :: v).cellCount s.length := by
  have hlength : (u ++ c :: v).length = u.length + 1 + v.length := by
    rw [List.length_append, List.length_cons]
    omega
  have hcells (i : Nat) : marks ⟨s.length, s.length + (u ++ c :: v).length⟩ i =
      if i = s.length + u.length then (.red '┬', .red '─')
      else if s.length ≤ i ∧ i < s.length + (u.length + 1 + v.length) then (.red '─', .red '─')
      else (.gap, .gap) := by
    rw [marks_eq (by simp only; omega), middle_eq hmiddle, hlength]
  refine exists_below_eq (marks _) .gap (.red '─') (.red '┬') (.red '─') .gap hwidth ?_ ?_
    ?_ ?_ ?_ rest
  · intro i hi
    rw [hcells, if_neg (by omega), if_neg (by omega)]
  · intro i hi hi'
    rw [hcells, if_neg (by omega), if_pos (by omega)]
  · rw [hcells, if_pos rfl]
  · intro i hi hi'
    rw [hcells, if_neg (by omega), if_pos (by omega)]
  · intro i hi
    rw [hcells, if_neg (by omega), if_neg (by omega)]

/-- The arrow starts below the middle of the underline and goes on to the end of its row. -/
theorem exists_arrow_eq : ∃ dashes,
    arrow ⟨s.length, s.length + (u ++ c :: v).length⟩ (s ++ ((u ++ c :: v) ++ rest)) =
      arrowCells (s.cellCount 0 + u.cellCount s.length) dashes := by
  have hcells (i : Nat) : hooks ⟨s.length, s.length + (u ++ c :: v).length⟩ i =
      if i = s.length + u.length then (.red '╰', .red '─')
      else if s.length + u.length < i then (.red '─', .red '─')
      else (.gap, .gap) := by
    rw [hooks, middle_eq hmiddle]
  obtain ⟨dashes, behind, harrow, -⟩ := exists_below_eq (hooks _) .gap .gap (.red '╰') (.red '─')
    (.red '─') hwidth
    (fun i hi => by rw [hcells, if_neg (by omega), if_neg (by omega)])
    (fun i hi hi' => by rw [hcells, if_neg (by omega), if_neg (by omega)])
    (by rw [hcells, if_pos rfl])
    (fun i hi hi' => by rw [hcells, if_neg (by omega), if_pos (by omega)])
    (fun i hi => by rw [hcells, if_neg (by omega), if_pos (by omega)]) rest
  refine ⟨dashes + behind, harrow.trans ?_⟩
  simp only [arrowCells, ← List.replicate_append_replicate, List.append_assoc, List.cons_append]

end

/-- Below a label that is not empty, the arrow turns off where the underline has its turn. -/
theorem exists_rows_eq (hne : t ≠ []) (hwidth : ∀ d ∈ s ++ t, Text.isZeroWidth d = false)
    (rest : Text) :
    ∃ half dashes behind length,
      underline ⟨s.length, s.length + t.length⟩ (s ++ (t ++ rest)) =
          underlineCells (s.cellCount 0) half dashes behind ∧
        arrow ⟨s.length, s.length + t.length⟩ (s ++ (t ++ rest)) =
          arrowCells (s.cellCount 0 + half) length ∧
        half + (dashes + 1) = t.cellCount s.length := by
  have hlt : t.length / 2 < t.length := by
    have := List.length_pos_of_ne_nil hne
    omega
  -- The turn stands below the character in the middle, which cuts the label in two.
  have hsplit : t.take (t.length / 2) ++ t[t.length / 2] :: t.drop (t.length / 2 + 1) = t := by
    rw [← List.drop_eq_getElem_cons hlt, List.take_append_drop]
  have hlength : (t.take (t.length / 2)).length = t.length / 2 := List.length_take_of_le (by omega)
  generalize t.take (t.length / 2) = u, t[t.length / 2] = c,
    t.drop (t.length / 2 + 1) = v at hsplit hlength
  subst hsplit
  obtain ⟨dashes, behind, hunderline, hcount⟩ := exists_underline_eq rest hwidth hlength
  obtain ⟨length, harrow⟩ := exists_arrow_eq rest hwidth hlength
  exact ⟨_, dashes, behind, length, hunderline, harrow, hcount⟩

end Label

end TextTemplate
