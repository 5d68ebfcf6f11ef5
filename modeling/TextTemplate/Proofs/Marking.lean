import TextTemplate.Proofs.Failure
import TextTemplate.Proofs.Line
import TextTemplate.Proofs.Numeral
import TextTemplate.Report

/-! Where a report points. Its label is given in bytes and counted in characters, so the report
names the place of the specification and marks its characters exactly where each character up to the
end of the specification takes one byte. -/
namespace TextTemplate

namespace Text

variable {s t : Text} {c : Char}

theorem length_le_byteLength (t : Text) : t.length ≤ byteLength t := by
  induction t with
  | nil => exact Nat.le_refl _
  | cons c t ih =>
    have := c.utf8Size_pos
    simp only [List.length_cons, byteLength_cons]
    omega

/-- Bytes and characters are as many where every character takes one byte. -/
theorem byteLength_eq_length_iff : byteLength t = t.length ↔ ∀ c ∈ t, c.utf8Size = 1 := by
  induction t with
  | nil => simp
  | cons c t ih =>
    have hc := c.utf8Size_pos
    have ht := length_le_byteLength t
    simp only [List.length_cons, byteLength_cons, List.forall_mem_cons, ← ih]
    omega

end Text

/-- The cells that show characters from a column on in one colour. -/
def Cell.shown (colour : Colour) (column : Nat) : Text → List Cell
  | [] => []
  | c :: t =>
    (if c = '\t' then List.replicate (4 - column % 4) ⟨some colour, ' '⟩
      else [⟨some colour, if Text.isBlank c then ' ' else c⟩]) ++ shown colour (column + 1) t

namespace Label

variable {l : Label} {column : Nat} {s t : Text}

theorem quote_append (l : Label) (column : Nat) (s t : Text) :
    l.quote column (s ++ t) = l.quote column s ++ l.quote (column + s.length) t := by
  induction s generalizing column with
  | nil => rfl
  | cons c s ih =>
    simp only [List.cons_append, quote, ih, List.append_assoc, List.length_cons, Nat.add_assoc,
      Nat.add_comm 1]

/-- Characters that are all marked, or all not marked, have one colour. -/
theorem quote_eq_shown (marked : Bool)
    (h : ∀ i, column ≤ i → i < column + t.length → l.covers i = marked) :
    l.quote column t = Cell.shown (if marked then .red else .quoted) column t := by
  induction t generalizing column with
  | nil => rfl
  | cons c t ih =>
    simp only [List.length_cons] at h
    have hc : l.covers column = marked := h column (Nat.le_refl _) (by omega)
    have ht : l.quote (column + 1) t = _ := ih fun i hi hi' => h i (by omega) (by omega)
    simp only [quote, Cell.shown, hc, ht]

/-- A label that starts behind a text and covers the next one at least colours only the latter
red. -/
theorem quote_append_append (s t u : Text) {width : Nat} (h : t.length ≤ width) :
    quote ⟨s.length, s.length + width⟩ 0 (s ++ (t ++ u)) =
      Cell.shown .quoted 0 s ++ (Cell.shown .red s.length t ++
        quote ⟨s.length, s.length + width⟩ (s.length + t.length) u) := by
  have hs : quote ⟨s.length, s.length + width⟩ 0 s = Cell.shown .quoted 0 s :=
    quote_eq_shown false fun i _ hi => by simp [covers]; omega
  have ht : quote ⟨s.length, s.length + width⟩ s.length t = Cell.shown .red s.length t :=
    quote_eq_shown true fun i hi hi' => by simp [covers]; omega
  rw [quote_append, quote_append, Nat.zero_add, hs, ht]

/-- A red character is told apart from one that is not marked. -/
theorem covers_eq_false_of_flatMap_text_eq {l : Label} {x y : Text}
    (h : (l.quote column ('}' :: t)).flatMap Cell.text ++ x =
      (Cell.shown .quoted column ('}' :: t)).flatMap Cell.text ++ y) : l.covers column = false := by
  have hred : Colour.red.code = "31".toList := rfl
  have hquoted : Colour.quoted.code = "38;5;249".toList := rfl
  cases hc : l.covers column with
  | false => rfl
  | true => simp [quote, Cell.shown, hc, Cell.text, Colour.paint, hred, hquoted] at h

end Label

namespace Report

/-- The first rows of a report on a place in a file: the heading, the place, and the frame below
it. -/
def opening (filename : Text) (line column : Nat) : Text :=
  let indent := List.replicate ((Numeral.decimal line).length + 2) ' '
  FormatError.heading ++ '\n' ::
    (indent ++ (Colour.frame.paint "╭".toList ++ Colour.frame.paint "─".toList ++
      Colour.frame.paint "[".toList ++ filename ++ ':' :: (Numeral.decimal line ++
        ':' :: (Numeral.decimal column ++ Colour.frame.paint "]".toList))) ++
    '\n' :: (indent ++ Colour.frame.paint "│".toList ++ ['\n']))

/-- The row of a report that quotes a line with a number. -/
def quotation (line : Nat) (cells : List Cell) : Text :=
  ' ' :: (Colour.frame.paint (Numeral.decimal line ++ " │".toList) ++
    ' ' :: (cells.flatMap Cell.text ++ ['\n']))

/-- A report names the line and the column of the first character of a specification between two
texts, quotes that line with the characters of the specification and no other ones in red, and tells
a message. -/
def Marks (report filename message lead spec tail : Text) : Prop :=
  let line := Text.terminatorCount lead + 1
  let column := (Text.lastLine lead).length
  ∃ rest, report = opening filename line (column + 1) ++
    (quotation line
      (Cell.shown .quoted 0 (Text.lastLine lead) ++ (Cell.shown .red column spec ++
        Cell.shown .quoted (column + spec.length) (Text.firstLine tail).trimEnd)) ++ rest) ∧
    message <:+: rest

variable {filename message lead spec tail after x y : Text} {line line' column column' m n : Nat}

theorem replicate_append_cons_inj {c d : Char} (hcd : c ≠ d)
    (h : List.replicate m c ++ d :: x = List.replicate n c ++ d :: y) : m = n ∧ x = y := by
  induction m generalizing n with
  | zero =>
    cases n with
    | zero => exact ⟨rfl, (List.cons.inj h).2⟩
    | succ n => exact absurd (List.cons.inj h).1.symm hcd
  | succ m ih =>
    cases n with
    | zero => exact absurd (List.cons.inj h).1 hcd
    | succ n =>
      obtain ⟨rfl, rfl⟩ := ih (List.cons.inj h).2
      exact ⟨rfl, rfl⟩

theorem decimal_append_inj (hx : Text.StopsAt Char.isDigit x) (hy : Text.StopsAt Char.isDigit y)
    (h : Numeral.decimal m ++ x = Numeral.decimal n ++ y) : m = n ∧ x = y := by
  have hdigits := congrArg (List.takeWhile Char.isDigit) h
  have hrest := congrArg (List.dropWhile Char.isDigit) h
  rw [SignedNumeral.takeWhile_decimal_append hx, SignedNumeral.takeWhile_decimal_append hy]
    at hdigits
  rw [SignedNumeral.dropWhile_decimal_append hx, SignedNumeral.dropWhile_decimal_append hy] at hrest
  have hvalue := congrArg Numeral.ofDecimal hdigits
  rw [Numeral.ofDecimal_decimal, Numeral.ofDecimal_decimal] at hvalue
  exact ⟨hvalue, hrest⟩

/-- The opening of a report tells the line and the column. -/
theorem opening_append_inj
    (h : opening filename line column ++ x = opening filename line' column' ++ y) :
    line = line' ∧ column = column' ∧ x = y := by
  have hescape : "\x1b[".toList = ['\x1b', '['] := rfl
  simp only [opening, Colour.paint, hescape, List.append_assoc, List.cons_append, List.nil_append,
    List.append_cancel_left_eq, List.cons.injEq, true_and] at h
  obtain ⟨-, h⟩ := replicate_append_cons_inj (by decide) h
  simp only [List.append_cancel_left_eq, List.cons.injEq, true_and] at h
  obtain ⟨rfl, h⟩ := decimal_append_inj (Text.stopsAt_cons rfl) (Text.stopsAt_cons rfl) h
  obtain ⟨rfl, h⟩ := decimal_append_inj (Text.stopsAt_cons rfl) (Text.stopsAt_cons rfl)
    (List.cons.inj h).2
  simpa using h

end Report

namespace FormatError

open Report

variable {e : FormatError} {excerpt : Excerpt} {template filename lead spec after : Text}

theorem report_of_ofTemplate?_eq_none (h : Excerpt.ofTemplate? template e.span = none) :
    e.report template filename = heading ++ ['\n'] := by
  simp [report, reportRows, h]

theorem report_of_ofTemplate?_eq_some (h : Excerpt.ofTemplate? template e.span = some excerpt) :
    ∃ rest, e.report template filename = opening filename excerpt.line excerpt.column ++
      ((excerpt.quotationRows e.cause.message).flatMap (· ++ ['\n']) ++ rest) := by
  refine ⟨Colour.frame.paint (List.replicate (excerpt.numberWidth + 2) '─' ++ ['╯']) ++ ['\n'], ?_⟩
  simp [report, reportRows, h, Excerpt.rows, opening, Excerpt.numberWidth]

theorem flatMap_quotationRows (number column : Nat) (line message : Text) (label : Label) :
    ∃ rest,
      (Excerpt.quotationRows ⟨number, column, some (line, label)⟩ message).flatMap (· ++ ['\n']) =
        quotation number (label.quote 0 line) ++ rest ∧ message <:+: rest := by
  let margin := Excerpt.margin ⟨number, column, some (line, label)⟩
  refine ⟨margin ++ (label.underline line).flatMap Cell.text ++ '\n' ::
    (margin ++ (label.arrow line).flatMap Cell.text ++ ' ' :: message ++ ['\n']), ?_, ?_⟩
  · simp [Excerpt.quotationRows, quotation, margin]
  · exact ⟨margin ++ (label.underline line).flatMap Cell.text ++ '\n' ::
      (margin ++ (label.arrow line).flatMap Cell.text ++ [' ']), ['\n'], by simp⟩

/-- A label within the template gives the row of its line, in which it colours its columns. -/
theorem report_of_stop_le {start stop : Nat} (hspan : e.span = ⟨start, stop⟩) (h : start ≤ stop)
    (hstop : stop ≤ template.length) (filename : Text) :
    let line := Line.holding template start
    let label : Label := ⟨start - line.start, stop - line.start⟩
    ∃ rest, e.report template filename = opening filename line.number (label.start + 1) ++
      (quotation line.number (label.quote 0 line.text.trimEnd) ++ rest) ∧
      e.cause.message <:+: rest := by
  intro line label
  have hends : start ≤ template.length ∧ stop ≤ template.length + 1 := by omega
  have hexcerpt : Excerpt.ofTemplate? template e.span =
      some ⟨line.number, label.start + 1, some (line.text.trimEnd, label)⟩ := by
    simp only [Excerpt.ofTemplate?, hspan, hends, hstop, and_self, if_true, line, label]
  obtain ⟨rest, hreport⟩ := report_of_ofTemplate?_eq_some hexcerpt
  obtain ⟨rest', hrows, hmessage⟩ := flatMap_quotationRows line.number (label.start + 1)
    line.text.trimEnd e.cause.message label
  rw [hrows, List.append_assoc] at hreport
  exact ⟨rest' ++ rest, hreport, hmessage.trans List.infix_append_left⟩

theorem trimEnd_firstLine_close (after : Text) :
    (Text.firstLine ('}' :: after)).trimEnd = '}' :: (Text.firstLine after).trimEnd := by
  rw [Text.firstLine_cons (by decide)]
  exact Text.trimEnd_append_cons (s := []) (by decide)

/-- The line of the first character of a specification, without its blank end. -/
theorem exists_holding_lead (hne : spec ≠ []) (hspec : ∀ c ∈ spec, c ∉ Text.lineTerminators)
    (lead after : Text) : ∃ t,
      Line.holding (lead ++ (spec ++ '}' :: after)) lead.length =
        ⟨Text.terminatorCount lead + 1, lead.length - (Text.lastLine lead).length, t⟩ ∧
      t.trimEnd = Text.lastLine lead ++ (spec ++ '}' :: (Text.firstLine after).trimEnd) := by
  obtain ⟨c, v, rfl⟩ := List.exists_cons_of_ne_nil hne
  obtain ⟨terminator, hblank, h⟩ :=
    Line.holding_append lead (hspec c List.mem_cons_self) (v ++ '}' :: after)
  refine ⟨_, h, ?_⟩
  rw [Text.trimEnd_append_of_blank hblank, ← List.cons_append, Text.firstLine_append hspec,
    Text.firstLine_cons (by decide), ← List.append_assoc, Text.trimEnd_append_cons (by decide),
    List.append_assoc]

theorem length_lastLine_le (lead : Text) : (Text.lastLine lead).length ≤ lead.length :=
  (List.rtakeWhile_suffix _ _).length_le

/-- A report whose label covers a specification marks it. -/
theorem marks_of_label (hspan : e.span = ⟨lead.length, lead.length + e.spec.length⟩)
    (hne : e.spec ≠ []) (hspec : ∀ c ∈ e.spec, c ∉ Text.lineTerminators) (after filename : Text) :
    Marks (e.report (lead ++ (e.spec ++ '}' :: after)) filename) filename e.cause.message
      lead e.spec ('}' :: after) := by
  obtain ⟨t, hholding, htrim⟩ := exists_holding_lead hne hspec lead after
  have hlast := length_lastLine_le lead
  have hfits : lead.length + e.spec.length ≤ (lead ++ (e.spec ++ '}' :: after)).length := by
    simp only [List.length_append, List.length_cons]
    omega
  obtain ⟨rest, hreport, hmessage⟩ := report_of_stop_le hspan (Nat.le_add_right _ _) hfits filename
  refine ⟨rest, ?_, hmessage⟩
  have hcolumn : lead.length - (lead.length - (Text.lastLine lead).length) =
      (Text.lastLine lead).length := by omega
  have hend : lead.length + e.spec.length - (lead.length - (Text.lastLine lead).length) =
      (Text.lastLine lead).length + e.spec.length := by omega
  simp only [hholding, hcolumn, hend, htrim] at hreport
  have hrest : Label.quote
      ⟨(Text.lastLine lead).length, (Text.lastLine lead).length + e.spec.length⟩
      ((Text.lastLine lead).length + e.spec.length) ('}' :: (Text.firstLine after).trimEnd) =
      Cell.shown .quoted ((Text.lastLine lead).length + e.spec.length)
        ('}' :: (Text.firstLine after).trimEnd) :=
    Label.quote_eq_shown false fun i hi _ => by simp [Label.covers]; omega
  rw [hreport, trimEnd_firstLine_close, Label.quote_append_append _ _ _ (Nat.le_refl _), hrest]

theorem margin_ne_quotation (number : Nat) (cells : List Cell) (x y : Text) :
    excerpt.margin ++ x ≠ quotation number cells ++ y := by
  intro h
  have hmargin : Colour.margin.code = "38;5;240".toList := rfl
  have hframe : Colour.frame.code = "38;5;246".toList := rfl
  simp [Excerpt.margin, quotation, Colour.paint, hmargin, hframe] at h

/-- A report that marks a specification has its label within the template. -/
theorem stop_le_of_marks {start stop : Nat} {message spec tail : Text}
    (hspan : e.span = ⟨start, stop⟩)
    (h : Marks (e.report template filename) filename message lead spec tail) :
    stop ≤ template.length := by
  obtain ⟨rest, hreport, -⟩ := h
  by_contra hstop
  cases hexcerpt : Excerpt.ofTemplate? template e.span with
  | none =>
    rw [report_of_ofTemplate?_eq_none hexcerpt, opening] at hreport
    simp at hreport
  | some excerpt =>
    obtain ⟨rest', hsome⟩ := report_of_ofTemplate?_eq_some hexcerpt
    rw [hsome] at hreport
    obtain ⟨-, -, hrows⟩ := opening_append_inj hreport
    have hquotation : excerpt.quotation = none := by
      by_cases hends : start ≤ template.length ∧ stop ≤ template.length + 1
      · simp only [Excerpt.ofTemplate?, hspan, hends, hstop, and_self, if_true, if_false]
          at hexcerpt
        cases hexcerpt
        rfl
      · simp [Excerpt.ofTemplate?, hspan, hends] at hexcerpt
    simp only [Excerpt.quotationRows, hquotation, List.flatMap_cons, List.append_assoc] at hrows
    exact margin_ne_quotation _ _ _ _ hrows

/-- A report marks a specification only with a label that covers its characters. -/
theorem label_of_marks (hspan : e.span = ⟨lead.byteLength, lead.byteLength + e.spec.byteLength⟩)
    (hne : e.spec ≠ []) (hspec : ∀ c ∈ e.spec, c ∉ Text.lineTerminators) {message : Text}
    (h : Marks (e.report (lead ++ (e.spec ++ '}' :: after)) filename) filename message lead e.spec
      ('}' :: after)) :
    lead.byteLength = lead.length ∧ e.spec.byteLength = e.spec.length := by
  obtain ⟨t, hholding, htrim⟩ := exists_holding_lead hne hspec lead after
  obtain ⟨rest', hreport', -⟩ :=
    report_of_stop_le hspan (Nat.le_add_right _ _) (stop_le_of_marks hspan h) filename
  obtain ⟨rest, hreport, -⟩ := h
  rw [hreport'] at hreport
  obtain ⟨hnumber, hcolumn, hrows⟩ := opening_append_inj hreport
  have hlast := length_lastLine_le lead
  have hlead : lead.byteLength = lead.length := by
    apply Line.eq_of_holding_eq (lead ++ (e.spec ++ '}' :: after))
    · rw [hnumber, hholding]
    · have hcolumn : lead.byteLength - (Line.holding _ lead.byteLength).start + 1 =
        (Text.lastLine lead).length + 1 := hcolumn
      rw [hholding]
      simp only
      omega
  refine ⟨hlead, ?_⟩
  have hwidth := Text.length_le_byteLength e.spec
  have hstart : lead.length - (lead.length - (Text.lastLine lead).length) =
      (Text.lastLine lead).length := by omega
  have hend : lead.length + e.spec.byteLength - (lead.length - (Text.lastLine lead).length) =
      (Text.lastLine lead).length + e.spec.byteLength := by omega
  simp only [hlead, hholding, hstart, hend, htrim, trimEnd_firstLine_close, quotation,
    Label.quote_append_append _ _ _ hwidth, List.flatMap_append, List.append_assoc,
    List.cons_append, List.append_cancel_left_eq, List.cons.injEq, true_and] at hrows
  -- The closing brace behind the specification is not red, so the label ends there.
  have hcovers := Label.covers_eq_false_of_flatMap_text_eq hrows
  simp only [Label.covers, Bool.and_eq_false_iff, decide_eq_false_iff_not] at hcovers
  omega

theorem marks_iff (hspan : e.span = ⟨lead.byteLength, lead.byteLength + e.spec.byteLength⟩)
    (hne : e.spec ≠ []) (hspec : ∀ c ∈ e.spec, c ∉ Text.lineTerminators) (after filename : Text) :
    Marks (e.report (lead ++ (e.spec ++ '}' :: after)) filename) filename e.cause.message
      lead e.spec ('}' :: after) ↔ ∀ c ∈ lead ++ e.spec, c.utf8Size = 1 := by
  rw [← Text.byteLength_eq_length_iff, Text.byteLength_append, List.length_append]
  have hlead := Text.length_le_byteLength lead
  have hlength := Text.length_le_byteLength e.spec
  constructor
  · intro h
    obtain ⟨hlead, hlength⟩ := label_of_marks hspan hne hspec h
    omega
  · intro h
    apply marks_of_label _ hne hspec
    rw [hspan, Span.mk.injEq]
    omega

end FormatError

theorem isEmpty_eq_false_of_format_eq_error {store : Store} {template : Text} {e : FormatError}
    (h : format store template = .error e) : store.isEmpty = false := by
  cases hempty : store.isEmpty with
  | false => rfl
  | true => simp [format, hempty] at h

/-- The report on a faulty specification names its place and marks its characters exactly if every
character of the template up to the end of the specification takes one byte. -/
theorem report_marks_spec_iff {store : Store} {template : Text} {e : FormatError}
    (h : format store template = .error e) (hne : e.spec ≠ [])
    (hspec : ∀ c ∈ e.spec, c ∉ Text.lineTerminators) (filename : Text) :
    ∃ lead after, template = lead ++ (e.spec ++ '}' :: after) ∧ e.span.start = lead.byteLength ∧
      (Report.Marks (e.report template filename) filename e.cause.message lead e.spec
          ('}' :: after) ↔
        ∀ c ∈ lead ++ e.spec, c.utf8Size = 1) := by
  obtain ⟨s, rfl, -, hs⟩ :=
    exists_failsFirst_of_format_eq_error (isEmpty_eq_false_of_format_eq_error h) h
  rw [Nat.zero_add] at hs
  obtain ⟨lead, hlead, hspan⟩ := Site.exists_lead_of_contribution_eq_error hs
  have htemplate : s.template = lead ++ (e.spec ++ '}' :: s.after) := by
    rw [← List.append_assoc, hlead]
    simp [Site.template]
  refine ⟨lead, s.after, htemplate, by rw [hspan], ?_⟩
  rw [htemplate]
  exact FormatError.marks_iff hspan hne hspec s.after filename

theorem report_marks_spec_in_second_line :
    format ⟨[.float (.finite false (.zero .double))]⟩ "1\n\x7b0,4:.yf\x7d".toList =
        .error ⟨⟨7, 10⟩, ".yf".toList, .notANumber "y".toList⟩ ∧
      ".yf".toList ≠ [] ∧ (∀ c ∈ ".yf".toList, c ∉ Text.lineTerminators) ∧
      ∃ lead after, "1\n\x7b0,4:.yf\x7d".toList = lead ++ (".yf".toList ++ '}' :: after) ∧
        7 = Text.byteLength lead ∧
        (Report.Marks
            (FormatError.report ⟨⟨7, 10⟩, ".yf".toList, .notANumber "y".toList⟩
              "1\n\x7b0,4:.yf\x7d".toList "t".toList)
            "t".toList (SpecError.notANumber "y".toList).message lead ".yf".toList ('}' :: after) ↔
          ∀ c ∈ lead ++ ".yf".toList, c.utf8Size = 1) := by
  have h : format ⟨[.float (.finite false (.zero .double))]⟩ "1\n\x7b0,4:.yf\x7d".toList =
      .error ⟨⟨7, 10⟩, ".yf".toList, .notANumber "y".toList⟩ := rfl
  have hspec : ∀ c ∈ ".yf".toList, c ∉ Text.lineTerminators :=
    Text.notMem_lineTerminators_of_all rfl
  exact ⟨h, by decide, hspec, report_marks_spec_iff h (by decide) hspec "t".toList⟩

/-- Behind a character of two bytes the label lies one column too far to the right. -/
theorem report_misses_spec_behind_accent :
    format ⟨[.float (.finite false (.zero .double))]⟩ "é\x7b0:.yf\x7d".toList =
        .error ⟨⟨5, 8⟩, ".yf".toList, .notANumber "y".toList⟩ ∧
      ".yf".toList ≠ [] ∧ (∀ c ∈ ".yf".toList, c ∉ Text.lineTerminators) ∧
      "é\x7b0:.yf\x7d".toList = "é\x7b0:".toList ++ (".yf".toList ++ '}' :: []) ∧
      ¬ Report.Marks
        (FormatError.report ⟨⟨5, 8⟩, ".yf".toList, .notANumber "y".toList⟩ "é\x7b0:.yf\x7d".toList
          "t".toList)
        "t".toList (SpecError.notANumber "y".toList).message "é\x7b0:".toList
          ".yf".toList ['}'] := by
  have hspec : ∀ c ∈ ".yf".toList, c ∉ Text.lineTerminators :=
    Text.notMem_lineTerminators_of_all rfl
  refine ⟨rfl, by decide, hspec, rfl, fun h => ?_⟩
  have hlead : Text.byteLength "é\x7b0:".toList = "é\x7b0:".toList.length :=
    (FormatError.label_of_marks (e := ⟨⟨5, 8⟩, ".yf".toList, .notANumber "y".toList⟩)
      rfl (by decide) hspec h).1
  exact absurd hlead (by decide)

end TextTemplate
