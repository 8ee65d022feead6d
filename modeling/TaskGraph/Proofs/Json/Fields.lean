import TaskGraph.Json.Value

namespace TaskGraph.Json

variable {α : Type}

theorem insertField_perm {key : String} (value : α) {fields : List (String × α)}
    (h : key ∉ fields.map (·.1)) :
    (insertField key value fields).Perm ((key, value) :: fields) := by
  induction fields with
  | nil => exact .refl _
  | cons field rest ih =>
    obtain ⟨k, v⟩ := field
    obtain ⟨hne, hrest⟩ : key ≠ k ∧ key ∉ rest.map (·.1) := by simpa using h
    unfold insertField
    by_cases hlt : key < k
    · rw [if_pos hlt]
    · rw [if_neg hlt, if_neg hne]
      exact ((ih hrest).cons (k, v)).trans (.swap _ _ _)

theorem foldl_insertField_perm {fields : List (String × α)} (built : List (String × α))
    (hnodup : (fields.map (·.1)).Nodup) (hnew : ∀ f ∈ fields, f.1 ∉ built.map (·.1)) :
    (fields.foldl (fun acc f => insertField f.1 f.2 acc) built).Perm (fields ++ built) := by
  induction fields generalizing built with
  | nil => exact .refl _
  | cons field rest ih =>
    obtain ⟨hfield, hrest⟩ := List.nodup_cons.1 hnodup
    have hinsert : (insertField field.1 field.2 built).Perm (field :: built) :=
      insertField_perm field.2 (hnew field List.mem_cons_self)
    have hkeys := hinsert.map (·.1)
    have hlater : ∀ f ∈ rest, f.1 ∉ (insertField field.1 field.2 built).map (·.1) := by
      intro f hf hmem
      rcases List.mem_cons.1 (hkeys.mem_iff.1 hmem) with heq | hbuilt
      · exact hfield (heq ▸ List.mem_map_of_mem hf)
      · exact hnew f (List.mem_cons_of_mem _ hf) hbuilt
    exact ((ih _ hrest hlater).trans (hinsert.append_left rest)).trans List.perm_middle

theorem lookup_of_mem {fields : List (String × α)} (hnodup : (fields.map (·.1)).Nodup)
    {key : String} {value : α} (hmem : (key, value) ∈ fields) :
    fields.lookup key = some value := by
  obtain ⟨before, after, rfl⟩ := List.append_of_mem hmem
  refine List.lookup_eq_some_iff.2 ⟨before, after, rfl, ?_⟩
  intro f hf
  rw [List.map_append, List.nodup_append] at hnodup
  have hne : f.1 ≠ key :=
    hnodup.2.2 f.1 (List.mem_map_of_mem hf) key (by simp)
  simpa using hne.symm

theorem lookup_eq_some_iff_mem {fields : List (String × α)} (hnodup : (fields.map (·.1)).Nodup)
    {key : String} {value : α} : fields.lookup key = some value ↔ (key, value) ∈ fields := by
  constructor
  · intro h
    obtain ⟨before, after, rfl, -⟩ := List.lookup_eq_some_iff.1 h
    exact List.mem_append_right _ List.mem_cons_self
  · exact lookup_of_mem hnodup

/-- With different keys the order of the fields makes no difference to what a key leads to. -/
theorem lookup_eq_of_perm {fields fields' : List (String × α)}
    (hnodup : (fields.map (·.1)).Nodup) (hperm : fields.Perm fields') (key : String) :
    fields'.lookup key = fields.lookup key := by
  have hnodup' : (fields'.map (·.1)).Nodup := (hperm.map (·.1)).nodup_iff.1 hnodup
  apply Option.ext
  intro value
  rw [lookup_eq_some_iff_mem hnodup', lookup_eq_some_iff_mem hnodup, hperm.mem_iff]

namespace Value

theorem at?_cons (v : Value) (key : String) (path : List String) :
    v.at? (key :: path) = (v.get? key).bind fun field => field.at? path := rfl

theorem ofFields_eq {fields : List (String × Value)} (hnodup : (fields.map (·.1)).Nodup) :
    ∃ sorted, ofFields fields = .obj sorted ∧ sorted.Perm fields := by
  refine ⟨_, rfl, ?_⟩
  have hperm := foldl_insertField_perm [] hnodup (fun _ _ hmem => by cases hmem)
  rw [List.append_nil] at hperm
  exact hperm

theorem sortedKeys_of_ofFields_eq {fields sorted : List (String × Value)}
    (h : ofFields fields = .obj sorted) : SortedKeys sorted := by
  have hfold : ∀ built : List (String × Value), SortedKeys built →
      SortedKeys (fields.foldl (fun acc f => insertField f.1 f.2 acc) built) := by
    clear h
    induction fields with
    | nil => exact fun _ hbuilt => hbuilt
    | cons field rest ih => exact fun built hbuilt => ih _ (sortedKeys_insertField hbuilt _ _)
  obtain rfl := Value.obj.inj h
  exact hfold [] .nil

theorem get?_ofFields {fields : List (String × Value)} (hnodup : (fields.map (·.1)).Nodup)
    {key : String} {value : Value} (hmem : (key, value) ∈ fields) :
    (ofFields fields).get? key = some value := by
  obtain ⟨sorted, hobj, hperm⟩ := ofFields_eq hnodup
  rw [hobj]
  exact lookup_of_mem ((hperm.map (·.1)).nodup_iff.2 hnodup) (hperm.mem_iff.2 hmem)

theorem get?_ofFields_eq_none {fields : List (String × Value)} (hnodup : (fields.map (·.1)).Nodup)
    {key : String} (hkey : key ∉ fields.map (·.1)) : (ofFields fields).get? key = none := by
  obtain ⟨sorted, hobj, hperm⟩ := ofFields_eq hnodup
  rw [hobj]
  refine List.lookup_eq_none_iff.2 ?_
  intro f hf
  have hne : f.1 ≠ key := by
    rintro rfl
    exact hkey (List.mem_map_of_mem (hperm.mem_iff.1 hf))
  simpa using hne.symm

end Value

end TaskGraph.Json
