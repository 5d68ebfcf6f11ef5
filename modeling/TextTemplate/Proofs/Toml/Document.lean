import TextTemplate.Proofs.Toml.Literal
import TextTemplate.Toml.Document

/-! Documents of lines that each give a bare key a value: a document is read as one entry for each
line, in the order of the lines. -/
namespace TextTemplate.Toml

variable {c : Char} {room : ℕ} {key t rest : Text}

/-- A line that gives a key a value, with the text that the value is written as. -/
structure Assignment where
  key : Text
  written : Text
  value : Value

/-- Behind a line there is nothing, or a line feed. -/
def EndsLine (rest : Text) : Prop := rest.head? ∈ [none, some '\n']

theorem EndsLine.endsValue (h : EndsLine rest) : EndsValue rest := by
  simp only [EndsLine, EndsValue, List.mem_cons, List.not_mem_nil, or_false] at h ⊢
  rcases h with h | h <;> simp [h]

theorem EndsLine.endLine? (h : EndsLine rest) : endLine? rest = some (rest.drop 1) := by
  cases rest with
  | nil => rfl
  | cons c t =>
    obtain rfl : c = '\n' := by simpa [EndsLine] using h
    rfl

namespace Assignment

/-- The line without its end. -/
def line (a : Assignment) : Text := a.key ++ ' ' :: '=' :: ' ' :: a.written

def statement (a : Assignment) : Statement := .entry [a.key] a.value

/-- The key needs no quotes, and the value is read back where the line ends. -/
structure Readable (a : Assignment) : Prop where
  key_ne_nil : a.key ≠ []
  isBareKeyChar : ∀ c ∈ a.key, isBareKeyChar c = true
  readValue? : ∀ rest, EndsLine rest →
    readValue? (skipSpaces (a.written ++ rest)) = some (a.value, rest)

end Assignment

open Assignment

/-- The lines of a document; the last one may have a line feed at its end. -/
def document (lastEnds : Bool) (as : List Assignment) : Text :=
  ['\n'].intercalate (as.map line) ++ if lastEnds then ['\n'] else []

section Keys

theorem readSimpleKey?_append (hne : key ≠ []) (hkey : ∀ c ∈ key, isBareKeyChar c = true)
    (hrest : Text.StopsAt isBareKeyChar rest) :
    readSimpleKey? (key ++ rest) = some (key, rest) := by
  have hline : readLineString? (key ++ rest) = none := by
    obtain ⟨c, t, rfl⟩ := List.exists_cons_of_ne_nil hne
    have hc : isBareKeyChar c = true := hkey c List.mem_cons_self
    unfold readLineString?
    split
    · next heq =>
      cases heq
      cases hc
    · next heq =>
      cases heq
      cases hc
    · rfl
  simp only [readSimpleKey?, hline, Text.takeWhile_append hkey hrest,
    Text.dropWhile_append hkey hrest, if_neg hne]

/-- A bare key is read up to its equals sign. -/
theorem readKey?_append (hne : key ≠ []) (hkey : ∀ c ∈ key, isBareKeyChar c = true) (rest : Text) :
    readKey? (key ++ ' ' :: '=' :: rest) = some ([key], '=' :: rest) := by
  have hread : readSimpleKey? (key ++ ' ' :: '=' :: rest) = some (key, ' ' :: '=' :: rest) :=
    readSimpleKey?_append hne hkey (Text.stopsAt_cons rfl)
  have hspaces : skipSpaces (' ' :: '=' :: rest) = '=' :: rest := rfl
  have hlength : (key ++ ' ' :: '=' :: rest).length = key.length + rest.length + 1 + 1 := by
    simp [Nat.add_assoc]
  rw [readKey?, hlength, readKeyWithin?, hread]
  simp [hspaces]

end Keys

section Lines

variable {a : Assignment} {as : List Assignment}

theorem exists_line_append_eq_cons (h : a.Readable) (rest : Text) :
    ∃ c t, a.line ++ rest = c :: t ∧ isBareKeyChar c = true := by
  obtain ⟨c, t, heq⟩ := List.exists_cons_of_ne_nil h.key_ne_nil
  refine ⟨c, _, by rw [line, heq]; rfl, h.isBareKeyChar c ?_⟩
  rw [heq]
  exact List.mem_cons_self

/-- A line is read as its statement. -/
theorem readStatement?_line (h : a.Readable) (hrest : EndsLine rest) :
    readStatement? (a.line ++ rest) = some (a.statement, rest.drop 1) := by
  have htext : a.line ++ rest = a.key ++ ' ' :: '=' :: ' ' :: (a.written ++ rest) := by simp [line]
  have hkey := readKey?_append h.key_ne_nil h.isBareKeyChar (' ' :: (a.written ++ rest))
  have hspace : skipSpaces (' ' :: (a.written ++ rest)) = skipSpaces (a.written ++ rest) := rfl
  obtain ⟨c, t, heq, hc⟩ := exists_line_append_eq_cons h rest
  rw [← htext, heq] at hkey
  rw [heq]
  unfold readStatement?
  split
  · next hbracket =>
    cases hbracket
    cases hc
  · next hbracket =>
    cases hbracket
    cases hc
  · rw [hkey]
    simp [skipOneOf?, hspace, h.readValue? rest hrest, hrest.endLine?, statement]

theorem skipSpaces_of_isBareKeyChar (hc : isBareKeyChar c = true) :
    skipSpaces (c :: t) = c :: t := by
  have hspace : c ≠ ' ' := Text.ne_of_apply hc rfl
  have htab : c ≠ '\t' := Text.ne_of_apply hc rfl
  simp [skipSpaces, isSpace, hspace, htab]

/-- A key stands on no line that could be skipped. -/
theorem endLine?_of_isBareKeyChar (hc : isBareKeyChar c = true) : endLine? (c :: t) = none := by
  have hcomment : skipComment (c :: t) = c :: t := by
    unfold skipComment
    split
    · next heq =>
      cases heq
      cases hc
    · rfl
  rw [endLine?, skipSpaces_of_isBareKeyChar hc, hcomment]
  show skipNewline? (c :: t) = none
  unfold skipNewline?
  split
  · next heq =>
    cases heq
    cases hc
  · next heq =>
    cases heq
    cases hc
  · rfl

/-- The statements of a document start with that of its first line. -/
theorem readStatementsWithin?_line (h : a.Readable) (hrest : EndsLine rest) :
    readStatementsWithin? (room + 1) (a.line ++ rest) =
      (readStatementsWithin? room (rest.drop 1)).map (a.statement :: ·) := by
  have hstatement := readStatement?_line h hrest
  obtain ⟨c, t, heq, hc⟩ := exists_line_append_eq_cons h rest
  rw [heq] at hstatement ⊢
  rw [readStatementsWithin?, skipSpaces_of_isBareKeyChar hc, endLine?_of_isBareKeyChar hc]
  simp only [hstatement, Option.bind_eq_bind, Option.bind_some]
  cases readStatementsWithin? room (rest.drop 1) <;> rfl

theorem document_singleton (lastEnds : Bool) (a : Assignment) :
    document lastEnds [a] = a.line ++ if lastEnds then ['\n'] else [] := by
  simp [document]

theorem document_cons_cons (lastEnds : Bool) (a b : Assignment) (as : List Assignment) :
    document lastEnds (a :: b :: as) = a.line ++ '\n' :: document lastEnds (b :: as) := by
  simp [document, List.intercalate_cons_cons]

theorem readStatementsWithin?_document (lastEnds : Bool) (hne : as ≠ []) (h : ∀ a ∈ as, a.Readable)
    (hroom : as.length < room) :
    readStatementsWithin? room (document lastEnds as) = some (as.map statement) := by
  -- Each line takes one step, and the end of the document takes one more.
  induction as generalizing room with
  | nil => exact absurd rfl hne
  | cons a as ih =>
    obtain ⟨room, rfl⟩ : ∃ k, room = k + 2 := ⟨room - 2, by simp at hroom; omega⟩
    have ha := h a List.mem_cons_self
    cases as with
    | nil =>
      have hend : EndsLine (if lastEnds then ['\n'] else []) := by
        cases lastEnds <;> simp [EndsLine]
      have hdrop : (if lastEnds then ['\n'] else []).drop 1 = ([] : Text) := by
        cases lastEnds <;> rfl
      rw [document_singleton, readStatementsWithin?_line ha hend, hdrop]
      rfl
    | cons b as =>
      have hroom : (b :: as).length < room + 1 := by
        simp only [List.length_cons] at hroom ⊢
        omega
      rw [document_cons_cons, readStatementsWithin?_line ha (by simp [EndsLine]), List.drop_one,
        List.tail_cons, ih (List.cons_ne_nil b as)
          (fun b hb => h b (List.mem_cons_of_mem a hb)) hroom]
      rfl

theorem length_le_length_document (lastEnds : Bool) (as : List Assignment) :
    as.length ≤ (document lastEnds as).length := by
  induction as with
  | nil => exact Nat.zero_le _
  | cons a as ih =>
    cases as with
    | nil =>
      simp only [document_singleton, line, List.length_append, List.length_cons, List.length_nil]
      omega
    | cons b as =>
      simp only [document_cons_cons, List.length_append, List.length_cons] at ih ⊢
      omega

theorem exists_document_eq_cons (lastEnds : Bool) (hne : as ≠ []) (h : ∀ a ∈ as, a.Readable) :
    ∃ c t, document lastEnds as = c :: t ∧ isBareKeyChar c = true := by
  obtain ⟨a, as, rfl⟩ := List.exists_cons_of_ne_nil hne
  have ha := h a List.mem_cons_self
  cases as with
  | nil =>
    rw [document_singleton]
    exact exists_line_append_eq_cons ha _
  | cons b as =>
    rw [document_cons_cons]
    exact exists_line_append_eq_cons ha _

/-- A document of lines has one statement for each of them, in their order. -/
theorem readStatements?_document (lastEnds : Bool) (hne : as ≠ []) (h : ∀ a ∈ as, a.Readable) :
    readStatements? (document lastEnds as) = some (as.map statement) := by
  have hlength := length_le_length_document lastEnds as
  obtain ⟨c, t, heq, hc⟩ := exists_document_eq_cons lastEnds hne h
  have hmark : (document lastEnds as).head? ≠ some '\ufeff' := by
    rw [heq, List.head?_cons]
    exact fun hmark => Text.ne_of_apply hc rfl (Option.some.inj hmark)
  simp only [readStatements?, if_neg hmark]
  exact readStatementsWithin?_document lastEnds hne h (by omega)

end Lines

namespace Entries

variable {as : List Assignment} {es : Entries}

theorem get?_eq_none (h : key ∉ es.map Prod.fst) : es.get? key = none := by
  have hnone : es.find? (fun e => e.1 = key) = none := by
    rw [List.find?_eq_none]
    intro e he heq
    exact h (List.mem_map.mpr ⟨e, he, of_decide_eq_true heq⟩)
  rw [get?, hnone]
  rfl

theorem addAll?_cons (es : Entries) (keys : List Text) (v : Value)
    (further : List (List Text × Value)) :
    addAll? es ((keys, v) :: further) = (es.add? v keys).bind fun es => addAll? es further := rfl

theorem addAll?_assignments (h : (es.map Prod.fst ++ as.map Assignment.key).Nodup) :
    addAll? es (as.map fun a => ([a.key], a.value)) =
      some (es ++ as.map fun a => (a.key, a.value)) := by
  induction as generalizing es with
  | nil =>
    rw [List.map_nil, List.map_nil, List.append_nil]
    rfl
  | cons a as ih =>
    have hnew : a.key ∉ es.map Prod.fst := by
      intro hmem
      exact (List.disjoint_of_nodup_append h) hmem List.mem_cons_self
    have hadd : es.add? a.value [a.key] = some (es ++ [(a.key, a.value)]) := by
      simp [add?, put, get?_eq_none hnew]
    have hrest : addAll? (es ++ [(a.key, a.value)]) (as.map fun a => ([a.key], a.value)) =
        some (es ++ [(a.key, a.value)] ++ as.map fun a => (a.key, a.value)) := ih (by simpa using h)
    rw [List.map_cons, addAll?_cons, hadd, Option.bind_some, hrest, List.map_cons,
      List.append_assoc]
    rfl

theorem sections_assignments (as : List Assignment) :
    sections (as.map statement) = (as.map fun a => ([a.key], a.value), []) := by
  induction as with
  | nil => rfl
  | cons a as ih => simp [statement, sections, ih]

/-- A document of lines with different keys makes up the table of their entries. -/
theorem ofDocument?_document (lastEnds : Bool) (hne : as ≠ []) (h : ∀ a ∈ as, a.Readable)
    (hkeys : (as.map Assignment.key).Nodup) :
    ofDocument? (document lastEnds as) = some (as.map fun a => (a.key, a.value)) := by
  have hadd : addAll? [] (as.map fun a => ([a.key], a.value)) =
      some (as.map fun a => (a.key, a.value)) :=
    addAll?_assignments hkeys
  simp only [ofDocument?, readStatements?_document lastEnds hne h, Option.bind_eq_bind,
    Option.bind_some, ofStatements?, sections_assignments, hadd]
  rfl

end Entries

end TextTemplate.Toml
