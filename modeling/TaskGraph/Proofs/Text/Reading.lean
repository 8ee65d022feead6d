import TaskGraph.Text.Split

namespace TaskGraph.Text

variable {sep : Char}

/-- The first occurrence of the separator decides where the first part ends. -/
theorem append_cons_inj {before before' after after' : List Char} (hbefore : sep ∉ before)
    (hbefore' : sep ∉ before') (h : before ++ sep :: after = before' ++ sep :: after') :
    before = before' ∧ after = after' := by
  induction before generalizing before' with
  | nil =>
    cases before' with
    | nil => exact ⟨rfl, (List.cons.inj h).2⟩
    | cons c cs =>
      obtain ⟨rfl, -⟩ := List.cons.inj h
      exact absurd List.mem_cons_self hbefore'
  | cons c cs ih =>
    cases before' with
    | nil =>
      obtain ⟨rfl, -⟩ := List.cons.inj h
      exact absurd List.mem_cons_self hbefore
    | cons d ds =>
      obtain ⟨rfl, htail⟩ := List.cons.inj h
      have hcs : sep ∉ cs := fun hmem => hbefore (List.mem_cons_of_mem _ hmem)
      have hds : sep ∉ ds := fun hmem => hbefore' (List.mem_cons_of_mem _ hmem)
      obtain ⟨rfl, rfl⟩ := ih hcs hds htail
      exact ⟨rfl, rfl⟩

theorem splitChars_of_notMem {piece : List Char} (h : sep ∉ piece) :
    splitChars sep piece = [piece] := by
  induction piece with
  | nil => rfl
  | cons c cs ih =>
    obtain ⟨hne, hcs⟩ : sep ≠ c ∧ sep ∉ cs := by simpa using h
    rw [splitChars, if_neg (Ne.symm hne), ih hcs]

theorem splitChars_ne_nil (chars : List Char) : splitChars sep chars ≠ [] := by
  cases chars with
  | nil => simp [splitChars]
  | cons c cs =>
    rw [splitChars]
    split
    · simp
    · split <;> simp

/-- What stands before a separator is cut as if nothing came after it. -/
theorem splitChars_append (front rest : List Char) :
    splitChars sep (front ++ sep :: rest) = splitChars sep front ++ splitChars sep rest := by
  induction front with
  | nil => simp [splitChars]
  | cons c cs ih =>
    obtain ⟨piece, pieces, hpieces⟩ := List.exists_cons_of_ne_nil (@splitChars_ne_nil sep cs)
    by_cases hc : c = sep
    · simp [splitChars, hc, ih]
    · simp [splitChars, hc, ih, hpieces]

theorem splitChars_append_cons {piece rest : List Char} (h : sep ∉ piece) :
    splitChars sep (piece ++ sep :: rest) = piece :: splitChars sep rest := by
  rw [splitChars_append, splitChars_of_notMem h, List.singleton_append]

theorem splitChars_intercalate {pieces : List (List Char)} (hne : pieces ≠ [])
    (h : ∀ piece ∈ pieces, sep ∉ piece) :
    splitChars sep ([sep].intercalate pieces) = pieces := by
  induction pieces with
  | nil => exact absurd rfl hne
  | cons piece rest ih =>
    have hpiece : sep ∉ piece := h piece List.mem_cons_self
    cases rest with
    | nil => rw [List.intercalate_singleton, splitChars_of_notMem hpiece]
    | cons next others =>
      have hrest : ∀ other ∈ next :: others, sep ∉ other :=
        fun other hother => h other (List.mem_cons_of_mem _ hother)
      rw [List.intercalate_cons_cons, List.append_assoc, List.singleton_append,
        splitChars_append_cons hpiece, ih (List.cons_ne_nil _ _) hrest]

/-- Cutting at the separator undoes the join of texts that do not hold it. -/
theorem split_join {texts : List String} (hne : texts ≠ [])
    (h : ∀ text ∈ texts, sep ∉ text.toList) :
    split sep (join (String.singleton sep) texts) = texts := by
  have hpieces : ∀ piece ∈ texts.map String.toList, sep ∉ piece := by
    intro piece hpiece
    obtain ⟨text, htext, rfl⟩ := List.mem_map.1 hpiece
    exact h text htext
  unfold split join
  rw [String.toList_intercalate, String.toList_singleton,
    splitChars_intercalate (by simpa using hne) hpieces, List.map_map]
  simp

/-- The last of the joined texts may hold the separator. -/
theorem join_cons_cons_inj {text text' next next' : String} {rest rest' : List String}
    (htext : sep ∉ text.toList) (htext' : sep ∉ text'.toList)
    (h : join (String.singleton sep) (text :: next :: rest) =
      join (String.singleton sep) (text' :: next' :: rest')) :
    text = text' ∧ join (String.singleton sep) (next :: rest) =
      join (String.singleton sep) (next' :: rest') := by
  unfold join at h ⊢
  rw [String.intercalate_cons_cons, String.intercalate_cons_cons, String.append_assoc,
    String.append_assoc, ← String.toList_inj] at h
  simp only [String.toList_append, String.toList_singleton, List.singleton_append] at h
  obtain ⟨hsame, hrest⟩ := append_cons_inj htext htext' h
  exact ⟨String.toList_inj.1 hsame, String.toList_inj.1 hrest⟩

theorem isDigit_of_mem_toString {i : Nat} {c : Char} (h : c ∈ (toString i).toList) :
    c.isDigit := by
  rw [Nat.toString_eq_repr, Nat.toList_repr] at h
  exact Nat.isDigit_of_mem_toDigits (by omega) (by omega) h

theorem toString_nat_inj {i j : Nat} : toString i = toString j ↔ i = j := by
  constructor
  · intro h
    rw [Nat.toString_eq_repr, Nat.toString_eq_repr] at h
    have hdigits : Nat.toDigits 10 i = Nat.toDigits 10 j := by
      simpa only [Nat.toList_repr] using congrArg String.toList h
    have hvalue := congrArg (fun ds => Nat.ofDigitChars 10 ds 0) hdigits
    simpa only [Nat.ofDigitChars_toDigits (by omega : 1 < 10) (by omega : 10 ≤ 10)] using hvalue
  · intro h
    rw [h]

end TaskGraph.Text
