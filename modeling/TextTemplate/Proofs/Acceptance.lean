import Mathlib.Data.Set.List
import TextTemplate.ArgumentFile.Stepwise
import TextTemplate.Proofs.ArgumentFile
import TextTemplate.Proofs.Toml.Keys
import TextTemplate.Proofs.Toml.Whole

/-! Which texts are argument files, and what they hold: the root table has no key but those of the
template and of the arguments, the template is a string, and the arguments are an array of scalars,
each of which keeps its kind. Everything else is refused as a whole, also when the entries are taken
one after the other and the kinds of an item are tried in turn. -/
namespace TextTemplate.ArgumentFile

open Toml (Entries)

variable {root seen es : Entries} {e : Text × Toml.Value} {key : Text} {v item : Toml.Value}
variable {file : ArgumentFile} {fields fields' : Fields} {items : List Toml.Value} {vs : List Value}

/-- A root table holds a file: the entries are those of its template, if it has one, and of its
arguments, which may be left out if there are none. -/
structure Describes (root : Entries) (file : ArgumentFile) : Prop where
  known : ∀ e ∈ root, e.1 = templateKey ∨ e.1 = argumentsKey
  template : root.get? templateKey = file.template.map .string
  arguments : root.get? argumentsKey = some (.array (file.arguments.map .ofScalar)) ∨
    root.get? argumentsKey = none ∧ file.arguments = []

/-- What an entry of a root table can have against it. -/
inductive Offends : Text × Toml.Value → Prop
  | unknownKey {key : Text} {v : Toml.Value} (htemplate : key ≠ templateKey)
      (harguments : key ≠ argumentsKey) : Offends (key, v)
  | templateNotText {v : Toml.Value} (h : ∀ t, v ≠ .string t) : Offends (templateKey, v)
  | argumentsNotList {v : Toml.Value} (h : ∀ items, v ≠ .array items) : Offends (argumentsKey, v)
  | argumentNotScalar {items : List Toml.Value} {item : Toml.Value} (hmem : item ∈ items)
      (h : ∀ v, item ≠ .ofScalar v) : Offends (argumentsKey, .array items)

inductive Fits : Text × Toml.Value → Prop
  | template (t : Text) : Fits (templateKey, .string t)
  | arguments (vs : List Value) : Fits (argumentsKey, .array (vs.map .ofScalar))

theorem templateKey_ne_argumentsKey : templateKey ≠ argumentsKey := by decide

section Items

theorem scalar_eq_ok_iff {v : Value} : scalar item = .ok v ↔ item = .ofScalar v := by
  constructor
  · intro h
    cases item with
    | string | integer | float | boolean =>
      cases h
      rfl
    | dateTime | array | table | tables => cases h
  · rintro rfl
    exact scalar_ofScalar v

theorem mapM_scalar_eq_ok_iff : items.mapM scalar = .ok vs ↔ items = vs.map .ofScalar := by
  refine ⟨?_, fun h => h ▸ mapM_scalar vs⟩
  intro h
  induction items generalizing vs with
  | nil =>
    cases h
    rfl
  | cons item items ih =>
    rw [List.mapM_cons] at h
    cases hitem : scalar item with
    | error =>
      rw [hitem] at h
      cases h
    | ok w =>
      cases hrest : items.mapM scalar with
      | error =>
        rw [hitem, hrest] at h
        cases h
      | ok ws =>
        rw [hitem, hrest] at h
        cases h
        rw [List.map_cons, ← scalar_eq_ok_iff.mp hitem, ← ih hrest]

/-- The order of the readers is what keeps an integer from being taken for a floating-point
number. -/
theorem firstValue?_eq_some_iff {v : Value} : firstValue? item = some v ↔ item = .ofScalar v := by
  constructor
  · intro h
    cases item with
    | string | integer | float | boolean =>
      cases h
      rfl
    | dateTime | array | table | tables => cases h
  · rintro rfl
    cases v <;> rfl

theorem mapM_firstValue?_eq_some_iff :
    items.mapM firstValue? = some vs ↔ items = vs.map .ofScalar := by
  induction items generalizing vs with
  | nil => simp [eq_comm]
  | cons item items ih =>
    rw [List.mapM_cons]
    constructor
    · intro h
      obtain ⟨w, hitem, hrest⟩ := Option.bind_eq_some_iff.mp h
      obtain ⟨ws, hitems, hws⟩ := Option.bind_eq_some_iff.mp hrest
      cases hws
      rw [List.map_cons, ← firstValue?_eq_some_iff.mp hitem, ← ih.mp hitems]
    · intro h
      obtain ⟨w, ws, rfl, hitem, hitems⟩ := List.map_eq_cons_iff.mp h.symm
      rw [firstValue?_eq_some_iff.mpr hitem.symm, ih.mpr hitems.symm]
      rfl

theorem toText?_eq_some_iff {t : Text} : v.toText? = some t ↔ v = .string t := by
  cases v <;> simp [Toml.Value.toText?]

/-- A list of tables is no list of scalars, as it is never empty. -/
theorem toItems?_bind_eq_some_iff :
    (v.toItems?.bind fun items => items.mapM firstValue?) = some vs ↔
      v = .array (vs.map .ofScalar) := by
  cases v with
  | array items => simp [Toml.Value.toItems?, mapM_firstValue?_eq_some_iff]
  | tables earlier latest =>
    have hlast : Toml.Value.table .header latest ∈ (earlier ++ [latest]).map (.table .header) := by
      simp
    refine ⟨?_, fun h => by cases h⟩
    intro h
    rw [mapM_firstValue?_eq_some_iff.mp h] at hlast
    obtain ⟨v, -, hv⟩ := List.mem_map.mp hlast
    cases v <;> cases hv
  | string | integer | float | boolean | dateTime | table => simp [Toml.Value.toItems?]

end Items

section Entries

theorem fits_iff_not_offends : Fits e ↔ ¬ Offends e := by
  obtain ⟨key, v⟩ := e
  constructor
  · intro h hoffends
    cases h with
    | template t =>
      cases hoffends with
      | unknownKey htemplate => exact htemplate rfl
      | templateNotText h => exact h t rfl
    | arguments vs =>
      cases hoffends with
      | unknownKey _ harguments => exact harguments rfl
      | argumentsNotList h => exact h _ rfl
      | argumentNotScalar hmem h =>
        obtain ⟨v, -, rfl⟩ := List.mem_map.mp hmem
        exact h v rfl
  · intro h
    by_cases htemplate : key = templateKey
    · subst htemplate
      by_contra hfits
      exact h (.templateNotText fun t ht => hfits (ht ▸ .template t))
    · by_cases harguments : key = argumentsKey
      · subst harguments
        by_contra hfits
        refine h (.argumentsNotList fun items hitems => ?_)
        subst hitems
        have hscalars : items ∈ Set.range (List.map Toml.Value.ofScalar) := by
          rw [Set.range_list_map]
          intro item hmem
          by_contra hitem
          exact h (.argumentNotScalar hmem fun v hv => hitem ⟨v, hv.symm⟩)
        obtain ⟨vs, rfl⟩ := hscalars
        exact hfits (.arguments vs)
      · exact absurd (.unknownKey htemplate harguments) h

theorem Describes.fits (h : Describes root file) (hdistinct : root.Distinct) :
    ∀ e ∈ root, Fits e := by
  intro ⟨key, v⟩ hmem
  have hget := hdistinct.get?_eq_some_iff.mpr hmem
  rcases h.known _ hmem with rfl | rfl
  · rw [h.template] at hget
    obtain ⟨t, -, rfl⟩ := Option.map_eq_some_iff.mp hget
    exact .template t
  · rcases h.arguments with hsome | ⟨hnone, -⟩
    · rw [hsome] at hget
      cases hget
      exact .arguments file.arguments
    · rw [hnone] at hget
      cases hget

theorem templateOf_eq_ok_iff {template : Option Text} :
    templateOf root = .ok template ↔ root.get? templateKey = template.map .string := by
  unfold templateOf
  split
  · next hget => cases template <;> simp [hget]
  · next hget => cases template <;> simp [hget]
  · next hstring hget =>
    refine ⟨fun h => (by cases h), fun h => ?_⟩
    obtain ⟨t, -, rfl⟩ := Option.map_eq_some_iff.mp (hget.symm.trans h).symm
    exact absurd rfl (hstring t)

theorem argumentsOf_eq_ok_iff : argumentsOf root = .ok vs ↔
    root.get? argumentsKey = some (.array (vs.map .ofScalar)) ∨
      root.get? argumentsKey = none ∧ vs = [] := by
  unfold argumentsOf
  split
  · next hget => simp [hget, eq_comm]
  · next hget => simp [hget, mapM_scalar_eq_ok_iff]
  · next harray hget =>
    refine ⟨fun h => (by cases h), fun h => ?_⟩
    rcases h with h | ⟨h, -⟩
    · cases hget.symm.trans h
      exact absurd rfl (harray _)
    · cases hget.symm.trans h

theorem all_known_iff : (root.all fun e => e.1 = templateKey || e.1 = argumentsKey) = true ↔
    ∀ e ∈ root, e.1 = templateKey ∨ e.1 = argumentsKey := by
  simp [List.all_eq_true]

theorem ofTable_eq_ok_iff : ofTable root = .ok file ↔ Describes root file := by
  constructor
  · intro h
    unfold ofTable at h
    split at h
    · next hknown =>
      cases htemplate : templateOf root with
      | error =>
        rw [htemplate] at h
        cases h
      | ok template =>
        cases harguments : argumentsOf root with
        | error =>
          rw [htemplate, harguments] at h
          cases h
        | ok vs =>
          rw [htemplate, harguments] at h
          cases h
          exact ⟨all_known_iff.mp hknown, templateOf_eq_ok_iff.mp htemplate,
            argumentsOf_eq_ok_iff.mp harguments⟩
    · cases h
  · intro h
    exact ofTable_eq_ok (all_known_iff.mpr h.known) (templateOf_eq_ok_iff.mpr h.template)
      (argumentsOf_eq_ok_iff.mpr h.arguments)

end Entries

section Fields

/-- The fields hold what the entries so far say. -/
structure Fields.Reads (fields : Fields) (seen : Entries) : Prop where
  known : ∀ e ∈ seen, e.1 = templateKey ∨ e.1 = argumentsKey
  template : seen.get? templateKey = fields.template.map .string
  arguments : seen.get? argumentsKey = fields.arguments.map fun vs => .array (vs.map .ofScalar)

theorem Fields.reads_blank : blank.Reads [] := ⟨by simp, rfl, rfl⟩

theorem Fields.Reads.describes (h : fields.Reads root) : Describes root fields.file := by
  refine ⟨h.known, h.template, ?_⟩
  rw [h.arguments, Fields.file]
  cases fields.arguments <;> simp

/-- An entry is taken if it fits and its field is not filled yet. -/
theorem Fields.take?_eq_some_iff : fields.take? e = some fields' ↔
    (∃ t, e = (templateKey, .string t) ∧ fields.template = none ∧
        fields' = { fields with template := some t }) ∨
      ∃ vs, e = (argumentsKey, .array (vs.map .ofScalar)) ∧ fields.arguments = none ∧
        fields' = { fields with arguments := some vs } := by
  obtain ⟨key, v⟩ := e
  constructor
  · intro h
    simp only [take?] at h
    split_ifs at h with htemplate harguments
    · subst htemplate
      split at h
      · cases h
      · next hnone =>
        obtain ⟨t, ht, rfl⟩ := Option.map_eq_some_iff.mp h
        rw [toText?_eq_some_iff.mp ht]
        exact .inl ⟨t, rfl, hnone, rfl⟩
    · subst harguments
      split at h
      · cases h
      · next hnone =>
        obtain ⟨vs, hvs, rfl⟩ := Option.map_eq_some_iff.mp h
        rw [toItems?_bind_eq_some_iff.mp hvs]
        exact .inr ⟨vs, rfl, hnone, rfl⟩
  · rintro (⟨t, heq, hnone, rfl⟩ | ⟨vs, heq, hnone, rfl⟩)
    · cases heq
      simp [take?, hnone, toText?_eq_some_iff.mpr rfl]
    · cases heq
      simp [take?, hnone, templateKey_ne_argumentsKey.symm, toItems?_bind_eq_some_iff.mpr rfl]

/-- One step: an entry at a new key is read as well. -/
theorem Fields.Reads.take? (h : fields.Reads seen) (hnew : e.1 ∉ seen.map Prod.fst)
    (htake : fields.take? e = some fields') : fields'.Reads (seen ++ [e]) := by
  rcases take?_eq_some_iff.mp htake with ⟨t, rfl, -, rfl⟩ | ⟨vs, rfl, -, rfl⟩
  · refine ⟨?_, ?_, ?_⟩
    · simpa [or_imp, forall_and] using h.known
    · rw [Entries.get?_concat hnew, if_pos rfl, Option.map_some]
    · rw [Entries.get?_concat hnew, if_neg templateKey_ne_argumentsKey.symm, h.arguments]
  · refine ⟨?_, ?_, ?_⟩
    · simpa [or_imp, forall_and] using h.known
    · rw [Entries.get?_concat hnew, if_neg templateKey_ne_argumentsKey, h.template]
    · rw [Entries.get?_concat hnew, if_pos rfl, Option.map_some]

theorem Fields.Reads.exists_take? (h : fields.Reads seen) (hnew : e.1 ∉ seen.map Prod.fst)
    (hfits : Fits e) :
    ∃ fields', fields.take? e = some fields' := by
  cases hfits with
  | template t =>
    have hnone : fields.template = none := by
      simpa [Entries.get?_eq_none hnew] using h.template.symm
    exact ⟨_, take?_eq_some_iff.mpr (.inl ⟨t, rfl, hnone, rfl⟩)⟩
  | arguments vs =>
    have hnone : fields.arguments = none := by
      simpa [Entries.get?_eq_none hnew] using h.arguments.symm
    exact ⟨_, take?_eq_some_iff.mpr (.inr ⟨vs, rfl, hnone, rfl⟩)⟩

/-- A whole run over entries with distinct keys goes through if all of them fit, and has read all of
them. -/
theorem Fields.Reads.exists_foldlM (h : fields.Reads seen)
    (hdistinct : Entries.Distinct (seen ++ es)) (hfits : ∀ e ∈ es, Fits e) :
    ∃ fields', es.foldlM Fields.take? fields = some fields' ∧ fields'.Reads (seen ++ es) := by
  -- On the entries to come: as no key comes twice, the field of the next one is still blank.
  induction es generalizing fields seen with
  | nil => exact ⟨fields, rfl, by rwa [List.append_nil]⟩
  | cons e es ih =>
    have hnew : e.1 ∉ seen.map Prod.fst := by
      intro hmem
      rw [Entries.Distinct, List.map_append] at hdistinct
      exact List.disjoint_of_nodup_append hdistinct hmem List.mem_cons_self
    obtain ⟨next, htake⟩ := h.exists_take? hnew (hfits e List.mem_cons_self)
    obtain ⟨fields', hrun, hreads⟩ := ih (h.take? hnew htake) (by simpa using hdistinct)
      fun e hmem => hfits e (List.mem_cons_of_mem _ hmem)
    refine ⟨fields', ?_, by simpa using hreads⟩
    rw [List.foldlM_cons, htake]
    exact hrun

/-- A run that goes through has met nothing but entries that fit. -/
theorem Fields.fits_of_foldlM (hrun : es.foldlM Fields.take? fields = some fields') :
    ∀ e ∈ es, Fits e := by
  induction es generalizing fields with
  | nil => simp
  | cons e es ih =>
    rw [List.foldlM_cons] at hrun
    obtain ⟨next, htake, hrest⟩ := Option.bind_eq_some_iff.mp hrun
    have hfits : Fits e := by
      rcases take?_eq_some_iff.mp htake with ⟨t, rfl, -⟩ | ⟨vs, rfl, -⟩
      · exact .template t
      · exact .arguments vs
    exact List.forall_mem_cons.mpr ⟨hfits, ih hrest⟩

/-- Entries with distinct keys that all fit hold a file, which is the one that is read from them in
turn. -/
theorem exists_describes_of_fits (hdistinct : root.Distinct) (hfits : ∀ e ∈ root, Fits e) :
    ∃ fields, root.foldlM Fields.take? .blank = some fields ∧ Describes root fields.file := by
  obtain ⟨fields, hrun, hreads⟩ := Fields.reads_blank.exists_foldlM hdistinct hfits
  exact ⟨fields, hrun, hreads.describes⟩

theorem map_file_foldlM_eq_toOption (hdistinct : root.Distinct) :
    (root.foldlM Fields.take? .blank).map Fields.file = (ofTable root).toOption := by
  cases hrun : root.foldlM Fields.take? .blank with
  | some fields =>
    obtain ⟨found, hfound, hdescribes⟩ :=
      exists_describes_of_fits hdistinct (Fields.fits_of_foldlM hrun)
    cases hrun.symm.trans hfound
    rw [ofTable_eq_ok_iff.mpr hdescribes]
    rfl
  | none =>
    cases htable : ofTable root with
    | error => rfl
    | ok file =>
      have hfits := (ofTable_eq_ok_iff.mp htable).fits hdistinct
      obtain ⟨fields, hfound, -⟩ := exists_describes_of_fits hdistinct hfits
      cases hrun.symm.trans hfound

end Fields

theorem ofTable_eq_error_iff (hdistinct : root.Distinct) :
    (∃ refusal, ofTable root = .error refusal) ↔ ∃ e ∈ root, Offends e := by
  constructor
  · rintro ⟨refusal, herror⟩
    by_contra hnone
    push Not at hnone
    obtain ⟨fields, -, hdescribes⟩ := exists_describes_of_fits hdistinct fun e hmem =>
      fits_iff_not_offends.mpr (hnone e hmem)
    cases herror.symm.trans (ofTable_eq_ok_iff.mpr hdescribes)
  · rintro ⟨e, hmem, hoffends⟩
    cases htable : ofTable root with
    | error refusal => exact ⟨refusal, rfl⟩
    | ok file =>
      have hfits := (ofTable_eq_ok_iff.mp htable).fits hdistinct e hmem
      exact absurd hoffends (fits_iff_not_offends.mp hfits)

/-- The argument files are exactly the documents whose root table holds a template, arguments, both
or neither, and nothing else; the file then is what that table holds. Any other text is refused as a
whole, for whichever entry offends. An integer that does not have 64 bits is no value of a document,
whatever its base. Taking the entries one after the other and trying the kinds of an item in turn
comes to the same. -/
theorem ofText_accepts_described_files :
    (∀ t file, ofText t = .ok file ↔
      ∃ root, Entries.ofDocument? t = some root ∧ Describes root file) ∧
    (∀ t, (∃ refusal, ofText t = .error refusal) ↔
      ∀ root, Entries.ofDocument? t = some root → ∃ e ∈ root, Offends e) ∧
    (∀ word n, Toml.wholeNumber? word = some n →
      Toml.valueOfWord? word = (Integer.ofInt? .signed64 n).map .integer) ∧
    ∀ t, stepwise? t = (ofText t).toOption := by
  refine ⟨fun t file => ?_, fun t => ?_, fun word n h => Toml.valueOfWord?_of_wholeNumber? h,
    fun t => ?_⟩
  · unfold ofText
    cases Entries.ofDocument? t with
    | none => simp
    | some root => simp [ofTable_eq_ok_iff]
  · unfold ofText
    cases hroot : Entries.ofDocument? t with
    | none => simp
    | some root => simp [ofTable_eq_error_iff (Entries.distinct_ofDocument? hroot)]
  · unfold stepwise? ofText
    cases hroot : Entries.ofDocument? t with
    | none => rfl
    | some root =>
      refine Eq.trans ?_ (map_file_foldlM_eq_toOption (Entries.distinct_ofDocument? hroot))
      exact Option.map_eq_bind.symm

theorem ofText_accepts_described_files_of_mixed_kinds :
    let file : ArgumentFile :=
      ⟨none, [.float (.finite true (.zero _)), .integer ⟨1, by decide, by decide⟩,
        .text "1".toList, .bool true]⟩
    (∃ root, Entries.ofDocument? "args = [-0.0, 0x1, \"1\", true]\n".toList = some root ∧
      Describes root file) ∧
      (∀ root, Entries.ofDocument? "template = \"\"\nargs = [1, [1]]".toList = some root →
        ∃ e ∈ root, Offends e) ∧
      Toml.valueOfWord? "0xFFFF_FFFF_FFFF_FFFF".toList = none ∧
      stepwise? "args = 1".toList = none := by
  intro file
  exact ⟨(ofText_accepts_described_files.1 _ file).mp (by decide +kernel),
    (ofText_accepts_described_files.2.1 _).mp ⟨.argumentNotScalar, by decide +kernel⟩,
    ofText_accepts_described_files.2.2.1 _ 18446744073709551615 (by decide +kernel),
    (ofText_accepts_described_files.2.2.2 _).trans (by decide +kernel)⟩

end TextTemplate.ArgumentFile
