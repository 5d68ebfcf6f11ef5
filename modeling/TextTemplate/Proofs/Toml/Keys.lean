import TextTemplate.Proofs.Toml.Document

/-! The keys of tables are distinct: every change of a table puts one value at one key, in the place
of an earlier value of that key or behind all others. -/
namespace TextTemplate.Toml.Entries

variable {es es' : Entries} {key : Text} {keys : List Text} {v : Value}

/-- No key of the table occurs twice. -/
def Distinct (es : Entries) : Prop := (es.map Prod.fst).Nodup

theorem mem_of_get?_eq_some (h : es.get? key = some v) : (key, v) ∈ es := by
  obtain ⟨⟨found, w⟩, hfind, rfl⟩ := Option.map_eq_some_iff.mp h
  have hkey := List.find?_some hfind
  obtain rfl : found = key := of_decide_eq_true hkey
  exact List.mem_of_find?_eq_some hfind

theorem get?_eq_none_iff : es.get? key = none ↔ key ∉ es.map Prod.fst := by
  refine ⟨?_, get?_eq_none⟩
  intro h hmem
  obtain ⟨e, he, hkey⟩ := List.mem_map.mp hmem
  rw [get?, Option.map_eq_none_iff, List.find?_eq_none] at h
  exact h e he (decide_eq_true hkey)

theorem get?_concat (hnew : key ∉ es.map Prod.fst) (other : Text) (v : Value) :
    get? (es ++ [(key, v)]) other = if other = key then some v else es.get? other := by
  by_cases h : other = key
  · subst h
    have hnone := Option.map_eq_none_iff.mp (get?_eq_none hnew)
    simp [get?, List.find?_append, hnone]
  · simp [get?, List.find?_append, h, Ne.symm h]

theorem Distinct.eq_of_mem {w : Value} (h : es.Distinct) (hv : (key, v) ∈ es) (hw : (key, w) ∈ es) :
    v = w :=
  congrArg Prod.snd (List.inj_on_of_nodup_map h hv hw rfl)

/-- In a table with distinct keys every entry is found. -/
theorem Distinct.get?_eq_some_iff (h : es.Distinct) : es.get? key = some v ↔ (key, v) ∈ es := by
  refine ⟨mem_of_get?_eq_some, ?_⟩
  intro hmem
  cases hget : es.get? key with
  | none => exact absurd (List.mem_map_of_mem hmem) (get?_eq_none_iff.mp hget)
  | some w => rw [h.eq_of_mem (mem_of_get?_eq_some hget) hmem]

theorem distinct_nil : Distinct [] := List.nodup_nil

/-- A value put at a key of the table takes the place of the earlier one. -/
theorem map_fst_put_of_mem (h : key ∈ es.map Prod.fst) :
    (es.put key v).map Prod.fst = es.map Prod.fst := by
  have hsome : (es.get? key).isSome = true :=
    Option.isSome_iff_ne_none.mpr (mt get?_eq_none_iff.mp (not_not.mpr h))
  rw [put, if_pos hsome, List.map_map]
  apply List.map_congr_left
  intro e _
  by_cases hkey : e.1 = key
  · simp [hkey]
  · simp [hkey]

theorem map_fst_put_of_notMem (h : key ∉ es.map Prod.fst) :
    (es.put key v).map Prod.fst = es.map Prod.fst ++ [key] := by
  rw [put, get?_eq_none_iff.mpr h]
  simp

theorem Distinct.put (h : es.Distinct) (key : Text) (v : Value) : (es.put key v).Distinct := by
  unfold Distinct
  by_cases hmem : key ∈ es.map Prod.fst
  · rwa [map_fst_put_of_mem hmem]
  · rw [map_fst_put_of_notMem hmem]
    exact List.concat_eq_append ▸ List.Nodup.concat hmem h

/-- An entry at a dotted key changes the table at the first part of the key alone. -/
theorem exists_eq_put_of_add? (h : es.add? v keys = some es') : ∃ key w, es' = es.put key w := by
  unfold add? at h
  split at h
  · cases h
  · split at h
    · cases h
    · exact ⟨_, _, (Option.some.inj h).symm⟩
  · split at h
    · obtain ⟨sub, -, rfl⟩ := Option.map_eq_some_iff.mp h
      exact ⟨_, _, rfl⟩
    · obtain ⟨sub, -, rfl⟩ := Option.map_eq_some_iff.mp h
      exact ⟨_, _, rfl⟩
    · cases h

/-- A change under a header changes the table at the first part of its key alone. -/
theorem exists_eq_put_of_update? {change : Option Value → Option Value}
    (h : es.update? change keys = some es') : ∃ key w, es' = es.put key w := by
  unfold update? at h
  split at h
  · cases h
  · obtain ⟨w, -, rfl⟩ := Option.map_eq_some_iff.mp h
    exact ⟨_, _, rfl⟩
  · split at h
    · obtain ⟨sub, -, rfl⟩ := Option.map_eq_some_iff.mp h
      exact ⟨_, _, rfl⟩
    · cases h
    · obtain ⟨sub, -, rfl⟩ := Option.map_eq_some_iff.mp h
      exact ⟨_, _, rfl⟩
    · obtain ⟨sub, -, rfl⟩ := Option.map_eq_some_iff.mp h
      exact ⟨_, _, rfl⟩
    · cases h

theorem Distinct.add? (h : es.Distinct) (hadd : es.add? v keys = some es') : es'.Distinct := by
  obtain ⟨key, w, rfl⟩ := exists_eq_put_of_add? hadd
  exact h.put key w

theorem Distinct.addSection? {s : Section} (h : es.Distinct) (hadd : es.addSection? s = some es') :
    es'.Distinct := by
  unfold Entries.addSection? at hadd
  split at hadd
  · cases hadd
  · obtain ⟨key, w, rfl⟩ := exists_eq_put_of_update? hadd
    exact h.put key w
  · obtain ⟨key, w, rfl⟩ := exists_eq_put_of_update? hadd
    exact h.put key w

/-- What each step keeps, a run keeps. -/
theorem Distinct.foldlM {α : Type} {step : Entries → α → Option Entries} {l : List α}
    (hstep : ∀ es a es', es.Distinct → step es a = some es' → es'.Distinct) (h : es.Distinct)
    (hrun : l.foldlM step es = some es') : es'.Distinct := by
  induction l generalizing es with
  | nil =>
    cases hrun
    exact h
  | cons a l ih =>
    rw [List.foldlM_cons] at hrun
    obtain ⟨next, ha, hrest⟩ := Option.bind_eq_some_iff.mp hrun
    exact ih (hstep es a next h ha) hrest

/-- No document has a key of its root table twice. -/
theorem distinct_ofDocument? {t : Text} (h : ofDocument? t = some es) : es.Distinct := by
  obtain ⟨statements, -, hstatements⟩ := Option.bind_eq_some_iff.mp h
  obtain ⟨root, hroot, hrest⟩ := Option.bind_eq_some_iff.mp hstatements
  have hadded : root.Distinct := Distinct.foldlM (fun _ _ _ h => h.add?) distinct_nil hroot
  exact Distinct.foldlM (fun _ _ _ h => h.addSection?) hadded hrest

end TextTemplate.Toml.Entries
