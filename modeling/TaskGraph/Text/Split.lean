namespace TaskGraph.Text

/-- The pieces between the occurrences of `sep`; one more piece than there are occurrences. -/
def splitChars (sep : Char) : List Char → List (List Char)
  | [] => [[]]
  | c :: cs =>
    if c = sep then
      [] :: splitChars sep cs
    else
      match splitChars sep cs with
      | [] => [[c]]
      | piece :: pieces => (c :: piece) :: pieces

def split (sep : Char) (s : String) : List String :=
  (splitChars sep s.toList).map String.ofList

/-- What stands before and after the last occurrence of `sep`, if there is one. -/
def splitLastChars? (sep : Char) : List Char → Option (List Char × List Char)
  | [] => none
  | c :: cs =>
    match splitLastChars? sep cs with
    | some (before, after) => some (c :: before, after)
    | none => if c = sep then some ([], cs) else none

theorem splitLastChars?_eq_none_iff {sep : Char} {cs : List Char} :
    splitLastChars? sep cs = none ↔ sep ∉ cs := by
  induction cs with
  | nil => simp [splitLastChars?]
  | cons c cs ih => grind [splitLastChars?]

/-- The cut is at an occurrence of `sep` after which there is no other. -/
theorem splitLastChars?_eq_some_iff {sep : Char} {cs before after : List Char} :
    splitLastChars? sep cs = some (before, after) ↔ cs = before ++ sep :: after ∧ sep ∉ after := by
  induction cs generalizing before with
  | nil => simp [splitLastChars?]
  | cons c cs ih =>
    have hnone := @splitLastChars?_eq_none_iff sep cs
    cases before <;> grind [splitLastChars?]

/-- The texts before and after the last occurrence of `sep`, if there is one. -/
def splitLast? (sep : Char) (s : String) : Option (String × String) :=
  (splitLastChars? sep s.toList).map fun (before, after) =>
    (String.ofList before, String.ofList after)

/-- The cut is at the last occurrence of the separator. -/
theorem splitLast?_eq_some_iff {sep : Char} {s before after : String} :
    splitLast? sep s = some (before, after) ↔
      s = before ++ String.singleton sep ++ after ∧ sep ∉ after.toList := by
  unfold splitLast?
  rw [Option.map_eq_some_iff]
  constructor
  · rintro ⟨⟨front, back⟩, hsplit, heq⟩
    obtain ⟨rfl, rfl⟩ := Prod.mk.inj heq
    obtain ⟨hchars, hback⟩ := splitLastChars?_eq_some_iff.1 hsplit
    refine ⟨String.toList_inj.1 ?_, by simpa using hback⟩
    simp [hchars]
  · rintro ⟨rfl, hback⟩
    refine ⟨(before.toList, after.toList), splitLastChars?_eq_some_iff.2 ⟨?_, hback⟩, ?_⟩
    · simp
    · simp

/-- What follows `lead` in a text that starts with it. -/
def restAfter? (lead s : String) : Option String :=
  (lead.toList.isPrefixOf? s.toList).map String.ofList

/-- The texts one after the other with `sep` between them. -/
def join (sep : String) (texts : List String) : String := sep.intercalate texts

/-- Whether the characters `part` stand somewhere in a list, one after the other. -/
def occursChars (part : List Char) : List Char → Bool
  | [] => part.isEmpty
  | c :: cs => part.isPrefixOf (c :: cs) || occursChars part cs

/-- Whether the text `part` stands somewhere in `s`. -/
def occurs (part s : String) : Bool := occursChars part.toList s.toList

end TaskGraph.Text
