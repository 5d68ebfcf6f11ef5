import Mathlib.Data.List.DropRight
import TextTemplate.Text.Blank
import TextTemplate.Text.Line

/-! Lines and columns of positions in a text, told from the characters in front of a position: the
terminators that they hold and the characters behind the last of these. -/
namespace TextTemplate

namespace Text

variable {s t u : Text} {c : Char}

def terminatorCount : Text → Nat
  | [] => 0
  | [c] => if c ∈ lineTerminators then 1 else 0
  | c :: d :: t =>
    if c = '\r' ∧ d = '\n' then terminatorCount t + 1
    else if c ∈ lineTerminators then terminatorCount (d :: t) + 1
    else terminatorCount (d :: t)

def firstLine (t : Text) : Text := t.takeWhile (· ∉ lineTerminators)

def lastLine (t : Text) : Text := t.rtakeWhile (· ∉ lineTerminators)

theorem isBlank_of_mem_lineTerminators (h : c ∈ lineTerminators) : isBlank c = true :=
  List.all_eq_true.mp (rfl : lineTerminators.all isBlank = true) c h

theorem notMem_lineTerminators_of_all (h : (t.all fun c => decide (c ∉ lineTerminators)) = true) :
    ∀ c ∈ t, c ∉ lineTerminators :=
  fun c hc => of_decide_eq_true (List.all_eq_true.mp h c hc)

theorem firstLine_append (h : ∀ c ∈ s, c ∉ lineTerminators) :
    firstLine (s ++ t) = s ++ firstLine t :=
  List.takeWhile_append_of_pos (by simpa using h)

theorem firstLine_cons (hc : c ∉ lineTerminators) : firstLine (c :: t) = c :: firstLine t := by
  simp [firstLine, hc]

theorem trimEnd_append_of_blank (h : ∀ c ∈ t, isBlank c = true) :
    trimEnd (s ++ t) = trimEnd s := by
  rw [trimEnd, List.reverse_append, List.dropWhile_append_of_pos (by simpa using h), trimEnd]

theorem trimEnd_append_cons (hc : isBlank c = false) :
    trimEnd (s ++ c :: t) = s ++ c :: trimEnd t := by
  simp only [trimEnd, List.reverse_append, List.reverse_cons]
  cases h : t.reverse.dropWhile isBlank <;> simp [List.dropWhile_append, h, hc]

theorem lastLine_of_forall_notMem (h : ∀ c ∈ t, c ∉ lineTerminators) : lastLine t = t :=
  List.rtakeWhile_eq_self_iff.mpr (by simpa using h)

theorem notMem_of_mem_lastLine (h : c ∈ lastLine t) : c ∉ lineTerminators := by
  simpa using List.mem_rtakeWhile_imp h

theorem lastLine_cons_of_mem (hc : c ∈ lineTerminators) : lastLine (c :: t) = lastLine t := by
  simp only [lastLine, List.rtakeWhile, List.reverse_cons, List.takeWhile_append]
  split
  · next hlength =>
    have hall := (List.takeWhile_prefix _).eq_of_length hlength
    rw [hall]
    simp [hc]
  · rfl

theorem lastLine_cons_of_ne (h : lastLine t ≠ t) : lastLine (c :: t) = lastLine t := by
  simp only [lastLine, List.rtakeWhile, List.reverse_cons, List.takeWhile_append]
  split
  · next hlength =>
    have hall := (List.takeWhile_prefix _).eq_of_length hlength
    exact absurd (by rw [lastLine, List.rtakeWhile, hall, List.reverse_reverse]) h
  · rfl

end Text

namespace Line

variable {number start position : Nat} {line s t u : Text} {lines rest : List Text}

/-- The first line of a text goes up to its terminator. -/
theorem exists_split_eq_cons (h : t ≠ []) : ∃ terminator rest,
    split t = (Text.firstLine t ++ terminator) :: rest ∧
      ∀ c ∈ terminator, Text.isBlank c = true := by
  fun_induction split t with
  | case1 => exact absurd rfl h
  | case2 c =>
    by_cases hc : c ∈ Text.lineTerminators
    · exact ⟨[c], [], by simp [Text.firstLine, hc],
        by simpa using Text.isBlank_of_mem_lineTerminators hc⟩
    · exact ⟨[], [], by simp [Text.firstLine, hc], by simp⟩
  | case3 c d t hcrlf ih =>
    obtain ⟨rfl, rfl⟩ := hcrlf
    exact ⟨['\r', '\n'], split t, by simp [Text.firstLine, Text.lineTerminators],
      List.all_eq_true.mp rfl⟩
  | case4 c d t _ hc ih =>
    exact ⟨[c], split (d :: t), by simp [Text.firstLine, hc],
      by simpa using Text.isBlank_of_mem_lineTerminators hc⟩
  | case5 c d t _ hc ih =>
    obtain ⟨terminator, rest, hsplit, hblank⟩ := ih (by simp)
    exact ⟨terminator, rest, by simp [hsplit, attach, Text.firstLine, hc], hblank⟩

theorem split_cons_terminator {c d : Char} (hc : c ∈ Text.lineTerminators)
    (hcrlf : ¬ (c = '\r' ∧ d = '\n')) : split (c :: d :: t) = [c] :: split (d :: t) := by
  rw [split, if_neg hcrlf, if_pos hc]

theorem split_cons_of_notMem {c : Char} (hc : c ∉ Text.lineTerminators) (h : t ≠ []) :
    split (c :: t) = attach c (split t) := by
  obtain ⟨d, t, rfl⟩ := List.exists_cons_of_ne_nil h
  have hcrlf : ¬ (c = '\r' ∧ d = '\n') := by
    rintro ⟨rfl, -⟩
    exact hc (by decide)
  rw [split, if_neg hcrlf, if_neg hc]

/-- The lines of a text go up to its last terminator, and what stands behind that one joins the line
of the text that follows, if the latter does not start with a terminator. -/
theorem exists_split_append (s : Text) {c : Char} (hc : c ∉ Text.lineTerminators) (t : Text) :
    ∃ lines, [] ∉ lines ∧ s = lines.flatten ++ Text.lastLine s ∧
      lines.length = Text.terminatorCount s ∧
      split (s ++ c :: t) = lines ++ split (Text.lastLine s ++ c :: t) := by
  fun_induction Text.terminatorCount s with
  | case1 => exact ⟨[], by simp, rfl, rfl, rfl⟩
  | case2 d hd =>
    have hcrlf : ¬ (d = '\r' ∧ c = '\n') := by
      rintro ⟨-, rfl⟩
      exact hc (by decide)
    rw [Text.lastLine_cons_of_mem hd]
    exact ⟨[[d]], by simp, rfl, rfl, split_cons_terminator hd hcrlf⟩
  | case3 d hd =>
    rw [Text.lastLine_of_forall_notMem (by simpa using hd)]
    exact ⟨[], by simp, rfl, rfl, rfl⟩
  | case4 d d' s hcrlf ih =>
    obtain ⟨rfl, rfl⟩ := hcrlf
    obtain ⟨lines, hne, hs, hlength, hsplit⟩ := ih
    rw [Text.lastLine_cons_of_mem (by decide), Text.lastLine_cons_of_mem (by decide)]
    refine ⟨['\r', '\n'] :: lines, by simpa using hne, ?_, by rw [List.length_cons, hlength], ?_⟩
    · rw [List.flatten_cons, List.append_assoc, ← hs]
      rfl
    · rw [List.cons_append, List.cons_append, split, if_pos ⟨rfl, rfl⟩, hsplit, List.cons_append]
  | case5 d d' s hcrlf hd ih =>
    obtain ⟨lines, hne, hs, hlength, hsplit⟩ := ih
    rw [Text.lastLine_cons_of_mem hd]
    refine ⟨[d] :: lines, by simpa using hne, ?_, by rw [List.length_cons, hlength], ?_⟩
    · rw [List.flatten_cons, List.append_assoc, ← hs]
      rfl
    · rw [List.cons_append, List.cons_append, split_cons_terminator hd hcrlf, ← List.cons_append,
        hsplit, List.cons_append]
  | case6 d d' s _ hd ih =>
    obtain ⟨lines, hne, hs, hlength, hsplit⟩ := ih
    cases lines with
    | nil =>
      -- No line ends in the text, so all of it stands behind the last terminator.
      have hlast : Text.lastLine (d :: d' :: s) = d :: d' :: s := by
        apply Text.lastLine_of_forall_notMem
        intro e he
        obtain rfl | he := List.mem_cons.mp he
        · exact hd
        · rw [hs] at he
          exact Text.notMem_of_mem_lastLine he
      exact ⟨[], by simp, by rw [hlast]; rfl, hlength, by rw [hlast]; rfl⟩
    | cons line lines =>
      have hlast : Text.lastLine (d :: d' :: s) = Text.lastLine (d' :: s) := by
        apply Text.lastLine_cons_of_ne
        intro hall
        rw [hall, List.flatten_cons] at hs
        have hnil : line ++ lines.flatten = [] := List.append_left_eq_self.mp hs.symm
        exact hne (by rw [(List.append_eq_nil_iff.mp hnil).1]; exact List.mem_cons_self)
      rw [hlast]
      refine ⟨(d :: line) :: lines, ?_, ?_, hlength, ?_⟩
      · simpa using fun h => hne (List.mem_cons_of_mem _ h)
      · rw [List.flatten_cons, List.cons_append, List.cons_append, ← List.flatten_cons, ← hs]
      · rw [List.cons_append, split_cons_of_notMem hd (by simp), hsplit]
        rfl

theorem le_number_find (number start : Nat) (lines : List Text) (position : Nat) :
    number ≤ (find number start lines position).number := by
  fun_induction find number start lines position with
  | case1 | case2 | case3 => exact Nat.le_refl _
  | case4 number start line lines _ _ ih => omega

theorem find_append (number start : Nat) (lines : List Text) (line : Text) (rest : List Text)
    (h : position < line.length) :
    find number start (lines ++ line :: rest) (start + lines.flatten.length + position) =
      ⟨number + lines.length, start + lines.flatten.length, line⟩ := by
  induction lines generalizing number start with
  | nil =>
    cases rest with
    | nil => rfl
    | cons => simp [find, h]
  | cons first lines ih =>
    have hfar : ¬ start + (first ++ lines.flatten).length + position < start + first.length := by
      rw [List.length_append]
      omega
    obtain ⟨next, others, hnext⟩ := List.exists_cons_of_ne_nil
      (show lines ++ line :: rest ≠ [] by simp)
    have hrest := ih (number + 1) (start + first.length)
    rw [hnext] at hrest
    rw [List.flatten_cons, List.cons_append, hnext, find, if_neg hfar, List.length_append,
      ← Nat.add_assoc, hrest, List.length_cons]
    · simp only [Line.mk.injEq, and_true]
      omega
    · simp

/-- Positions with the same line number and the same distance from the start of their lines are
equal. -/
theorem eq_of_find_eq (number start : Nat) (lines : List Text) {position position' : Nat}
    (h : start ≤ position) (h' : start ≤ position')
    (hnumber : (find number start lines position).number =
      (find number start lines position').number)
    (hcolumn : position - (find number start lines position).start =
      position' - (find number start lines position').start) : position = position' := by
  induction lines generalizing number start with
  | nil =>
    simp only [find] at hcolumn
    omega
  | cons line lines ih =>
    cases lines with
    | nil =>
      simp only [find] at hcolumn
      omega
    | cons next lines =>
      have hlow := le_number_find (number + 1) (start + line.length) (next :: lines)
      simp only [find] at hnumber hcolumn
      by_cases hp : position < start + line.length <;>
        by_cases hp' : position' < start + line.length
      · simp only [hp, hp', if_true] at hcolumn
        omega
      · simp only [hp, hp', if_true, if_false] at hnumber
        have := hlow position'
        omega
      · simp only [hp, hp', if_true, if_false] at hnumber
        have := hlow position
        omega
      · simp only [hp, hp', if_false] at hnumber hcolumn
        exact ih (number + 1) (start + line.length) (by omega) (by omega) hnumber hcolumn

theorem eq_of_holding_eq (t : Text) {position position' : Nat}
    (hnumber : (holding t position).number = (holding t position').number)
    (hcolumn : position - (holding t position).start = position' - (holding t position').start) :
    position = position' :=
  eq_of_find_eq 1 0 (split t) (Nat.zero_le _) (Nat.zero_le _) hnumber hcolumn

/-- The line of the position behind a text has one number more than the text has terminators, and it
starts behind the last of these. -/
theorem holding_append (s : Text) {c : Char} (hc : c ∉ Text.lineTerminators) (t : Text) :
    ∃ terminator, (∀ d ∈ terminator, Text.isBlank d = true) ∧
      holding (s ++ c :: t) s.length =
        ⟨Text.terminatorCount s + 1, s.length - (Text.lastLine s).length,
        Text.lastLine s ++ Text.firstLine (c :: t) ++ terminator⟩ := by
  obtain ⟨lines, -, hs, hlength, hsplit⟩ := exists_split_append s hc t
  obtain ⟨terminator, rest, hfirst, hblank⟩ :=
    exists_split_eq_cons (t := Text.lastLine s ++ c :: t) (by simp)
  refine ⟨terminator, hblank, ?_⟩
  rw [Text.firstLine_append fun c => Text.notMem_of_mem_lastLine] at hfirst
  have hposition : s.length = 0 + lines.flatten.length + (Text.lastLine s).length := by
    rw [Nat.zero_add, ← List.length_append, ← hs]
  have hlt : (Text.lastLine s).length <
      (Text.lastLine s ++ Text.firstLine (c :: t) ++ terminator).length := by
    simp [Text.firstLine, hc]
  have hfind := find_append 1 0 lines _ rest hlt
  rw [← hposition, ← hfirst, ← hsplit] at hfind
  rw [holding, hfind, hlength]
  simp only [Line.mk.injEq, and_true]
  omega

end Line

end TextTemplate
