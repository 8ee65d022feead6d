import TaskGraph.Proofs.Files.Writing

namespace TaskGraph

namespace Path

/-- Whether a step leads on from a directory. -/
def isMove (step : String) : Bool := step ≠ "" && step ≠ "."

/-- The steps of a path that lead on. -/
def moves (path : String) : List String := (steps path).filter isMove

/-- A path that goes the way of a directory and then on to one name. -/
def LiesIn (path dir : String) : Prop :=
  isAbsolute path = isAbsolute dir ∧ ∃ name, name ≠ ".." ∧ moves path = moves dir ++ [name]

/-- Two paths that start at the same place and make the same moves. -/
def SameWay (path path' : String) : Prop :=
  isAbsolute path = isAbsolute path' ∧ moves path = moves path'

/-- A part that leads to one name, from wherever it is taken. -/
def IsEntry (part : String) : Prop :=
  isAbsolute part = false ∧ ∃ name, name ≠ ".." ∧ moves part = [name]

/-- A name without slashes that is none of the two dotted ones. -/
def IsPlain (part : String) : Prop := '/' ∉ part.toList ∧ part ≠ "." ∧ part ≠ ".."

instance : DecidablePred IsPlain := fun _ => inferInstanceAs (Decidable (_ ∧ _))

variable {dir part : String}

theorem isMove_iff {step : String} : isMove step ↔ step ≠ "" ∧ step ≠ "." := by
  simp [isMove]

theorem steps_append (front rest : String) :
    steps (front ++ "/" ++ rest) = steps front ++ steps rest := by
  unfold steps Text.split
  have hchars : (front ++ "/" ++ rest).toList = front.toList ++ '/' :: rest.toList := by simp
  rw [hchars, Text.splitChars_append, List.map_append]

theorem moves_append (front rest : String) :
    moves (front ++ "/" ++ rest) = moves front ++ moves rest := by
  rw [moves, steps_append, List.filter_append]
  rfl

theorem steps_ne_nil (path : String) : steps path ≠ [] := by
  unfold steps Text.split
  simpa using Text.splitChars_ne_nil path.toList

theorem isAbsolute_append {front : String} (h : front ≠ "") (rest : String) :
    isAbsolute (front ++ rest) = isAbsolute front := by
  have hchars : front.toList ≠ [] := by simpa using h
  unfold isAbsolute
  rw [String.toList_append, List.head?_append, List.head?_eq_some_head hchars]
  rfl

/-- A part that does not start at the root is put after the directory, with one slash between. -/
theorem join_cases (dir : String) (h : isAbsolute part = false) :
    (dir = "" ∧ join dir part = part) ∨
      dir ≠ "" ∧ ∃ front, (dir = front ∨ dir = front ++ "/") ∧
        join dir part = front ++ "/" ++ part := by
  rw [join, if_neg (by simp [h])]
  by_cases hdir : dir = ""
  · subst hdir
    exact .inl ⟨rfl, String.empty_append⟩
  · refine .inr ⟨hdir, ?_⟩
    by_cases hlast : dir.toList.getLast? = some '/'
    · obtain ⟨front, hfront⟩ := List.getLast?_eq_some_iff.1 hlast
      have hslash : dir = String.ofList front ++ "/" := by
        apply String.toList_inj.1
        rw [hfront, String.toList_append, String.toList_ofList]
        rfl
      refine ⟨String.ofList front, .inr hslash, ?_⟩
      rw [if_pos (by simp [hlast]), ← hslash]
    · exact ⟨dir, .inl rfl, by rw [if_neg (by simp [hdir, hlast])]⟩

theorem isAbsolute_join (h : isAbsolute part = false) :
    isAbsolute (join dir part) = isAbsolute dir := by
  obtain ⟨rfl, hjoin⟩ | ⟨hdir, front, rfl | rfl, hjoin⟩ := join_cases dir h
  · rw [hjoin, h]
    rfl
  · rw [hjoin, String.append_assoc, isAbsolute_append hdir]
  · rw [hjoin, isAbsolute_append hdir]

/-- The moves of the part come after those of the directory. -/
theorem moves_join (h : isAbsolute part = false) :
    moves (join dir part) = moves dir ++ moves part := by
  obtain ⟨rfl, hjoin⟩ | ⟨-, front, rfl | rfl, hjoin⟩ := join_cases dir h
  · rw [hjoin]
    rfl
  · rw [hjoin, moves_append]
  · have hfront : moves (front ++ "/") = moves front := by
      have hempty := moves_append front ""
      rwa [String.append_empty, show moves "" = [] from rfl, List.append_nil] at hempty
    rw [hjoin, moves_append, hfront]

/-- What stays in every directory is what leads to one name. -/
theorem liesIn_join_iff : (∀ dir, LiesIn (join dir part) dir) ↔ IsEntry part := by
  constructor
  · intro h
    obtain ⟨habsolute, name, hname, hmoves⟩ := h ""
    have hjoin : join "" part = part := by
      unfold join
      split
      · rfl
      · exact String.empty_append
    rw [hjoin] at habsolute hmoves
    exact ⟨habsolute, name, hname, hmoves⟩
  · rintro ⟨habsolute, name, hname, hmoves⟩ dir
    exact ⟨isAbsolute_join habsolute, name, hname, by rw [moves_join habsolute, hmoves]⟩

theorem sameWay_join_iff {part' : String} (h : isAbsolute part = false)
    (h' : isAbsolute part' = false) :
    SameWay (join dir part) (join dir part') ↔ moves part = moves part' := by
  rw [SameWay, isAbsolute_join h, isAbsolute_join h', moves_join h, moves_join h',
    List.append_cancel_left_eq]
  exact and_iff_right rfl

theorem IsPlain.moves_eq (h : IsPlain part) (hempty : part ≠ "") : moves part = [part] := by
  obtain ⟨hslash, hdot, -⟩ := h
  unfold moves steps Text.split
  rw [Text.splitChars_of_notMem hslash, List.map_singleton, String.ofList_toList]
  exact List.filter_cons_of_pos (isMove_iff.2 ⟨hempty, hdot⟩)

/-- A plain name leads to itself. -/
theorem IsPlain.isEntry (h : IsPlain part) (hempty : part ≠ "") : IsEntry part := by
  refine ⟨eq_false_of_ne_true ?_, part, h.2.2, h.moves_eq hempty⟩
  intro habsolute
  exact h.1 (List.mem_of_mem_head? (eq_of_beq habsolute))

end Path

namespace FileTree

variable {t : FileTree} {dir part name : String} {d place : Place}

/-- Whether a path leads to a place. -/
def LeadsTo (t : FileTree) (path : String) (place : Place) : Prop :=
  t.walk (t.origin path) (Path.steps path) = .ok place

/-- A place right in the directory to which a path leads. -/
def Inside (t : FileTree) (dir : String) (place : Place) : Prop :=
  ∃ parent name, t.LeadsTo dir parent ∧ place = parent ++ [name]

theorem follow_eq_ok (h : t.follow d name = .ok place) : t.isDirectory d := by
  unfold follow at h
  split at h
  · cases h
  next hdirectory => simpa using hdirectory

theorem follow_of_not_isMove (hname : ¬Path.isMove name) (h : t.isDirectory d) :
    t.follow d name = .ok d := by
  have hstay : name = "" ∨ name = "." := by
    rw [Path.isMove_iff] at hname
    by_cases hempty : name = ""
    · exact .inl hempty
    · exact .inr (Decidable.not_not.1 fun hdot => hname ⟨hempty, hdot⟩)
  rw [follow, if_neg (not_not_intro h), if_pos hstay]

theorem follow_name (hname : Path.isMove name) (hup : name ≠ "..")
    (h : t.follow d name = .ok place) : place = d ++ [name] := by
  obtain ⟨hempty, hdot⟩ := Path.isMove_iff.1 hname
  rw [follow, if_neg (not_not_intro (follow_eq_ok h)), if_neg (not_or_intro hempty hdot),
    if_neg hup] at h
  split at h
  · cases h
  split at h
  · exact (Except.ok.inj h).symm
  · cases h

theorem walk_cons_eq_ok_iff {step : String} {steps : List String} :
    t.walk d (step :: steps) = .ok place ↔
      ∃ next, t.follow d step = .ok next ∧ t.walk next steps = .ok place := by
  unfold walk
  rw [List.foldlM_cons, bind_eq_ok_iff]

theorem walk_append_eq_ok_iff {front steps : List String} :
    t.walk d (front ++ steps) = .ok place ↔
      ∃ next, t.walk d front = .ok next ∧ t.walk next steps = .ok place := by
  unfold walk
  rw [List.foldlM_append, bind_eq_ok_iff]

/-- Only the moves among steps matter to where they lead. -/
theorem walk_moves {steps : List String} (h : t.walk d steps = .ok place) :
    t.walk d (steps.filter Path.isMove) = .ok place := by
  induction steps generalizing d with
  | nil => exact h
  | cons step steps ih =>
    obtain ⟨next, hstep, hrest⟩ := walk_cons_eq_ok_iff.1 h
    by_cases hmove : Path.isMove step
    · rw [List.filter_cons_of_pos hmove]
      exact walk_cons_eq_ok_iff.2 ⟨next, hstep, ih hrest⟩
    · rw [List.filter_cons_of_neg hmove]
      have hstay := follow_of_not_isMove hmove (follow_eq_ok hstep)
      rw [hstep] at hstay
      obtain rfl := Except.ok.inj hstay
      exact ih hrest

/-- The way to a joined path goes through the directory, if it is one. -/
theorem exists_front (t : FileTree) (dir : String) (h : Path.isAbsolute part = false) :
    ∃ front, Path.steps (Path.join dir part) = front ++ Path.steps part ∧
      ∀ d, t.walk (t.origin (Path.join dir part)) front = .ok d → t.isDirectory d →
        t.LeadsTo dir d := by
  have horigin : t.origin (Path.join dir part) = t.origin dir := by
    unfold origin
    rw [Path.isAbsolute_join h]
  obtain ⟨rfl, hjoin⟩ | ⟨-, front, hfront, hjoin⟩ := Path.join_cases dir h
  · refine ⟨[], by rw [hjoin]; rfl, ?_⟩
    intro d hd hdirectory
    rw [horigin] at hd
    obtain rfl := Except.ok.inj hd
    have hstay : t.follow (t.origin "") "" = .ok (t.origin "") :=
      follow_of_not_isMove (by decide) hdirectory
    exact walk_cons_eq_ok_iff.2 ⟨_, hstay, rfl⟩
  · refine ⟨Path.steps front, by rw [hjoin, Path.steps_append], ?_⟩
    intro d hd hdirectory
    rw [horigin] at hd
    rcases hfront with rfl | rfl
    · exact hd
    · have hsteps : Path.steps (front ++ "/") = Path.steps front ++ [""] := by
        have hempty := Path.steps_append front ""
        rwa [String.append_empty] at hempty
      have hstay : t.follow d "" = .ok d := follow_of_not_isMove (by decide) hdirectory
      unfold LeadsTo
      rw [hsteps, walk_append_eq_ok_iff]
      exact ⟨d, hd, walk_cons_eq_ok_iff.2 ⟨d, hstay, rfl⟩⟩

/-- A part that leads to one name leads to that name in the directory. -/
theorem leadsTo_join (habsolute : Path.isAbsolute part = false) (hup : name ≠ "..")
    (hmoves : Path.moves part = [name]) (h : t.LeadsTo (Path.join dir part) place) :
    ∃ d, t.LeadsTo dir d ∧ place = d ++ [name] := by
  obtain ⟨front, hsteps, hdir⟩ := t.exists_front dir habsolute
  rw [LeadsTo, hsteps] at h
  obtain ⟨d, hfront, hpart⟩ := walk_append_eq_ok_iff.1 h
  have hdirectory : t.isDirectory d := by
    obtain ⟨step, steps, hcons⟩ := List.exists_cons_of_ne_nil (Path.steps_ne_nil part)
    rw [hcons] at hpart
    obtain ⟨_, hstep, -⟩ := walk_cons_eq_ok_iff.1 hpart
    exact follow_eq_ok hstep
  have hname : Path.isMove name := by
    have hmem : name ∈ Path.moves part := by rw [hmoves]; exact List.mem_cons_self
    exact (List.mem_filter.1 hmem).2
  have hmove := walk_moves hpart
  rw [← Path.moves, hmoves] at hmove
  obtain ⟨next, hstep, hnext⟩ := walk_cons_eq_ok_iff.1 hmove
  obtain rfl := Except.ok.inj hnext
  exact ⟨d, hdir d hfront hdirectory, follow_name hname hup hstep⟩

/-- A file that is written under such a part is put under that name in the directory. -/
theorem placeForFile_join (habsolute : Path.isAbsolute part = false)
    (hmoves : Path.moves part = [name])
    (h : t.placeForFile (Path.join dir part) = .ok place) :
    ∃ d, t.LeadsTo dir d ∧ place = d ++ [name] := by
  obtain ⟨way, last, parent, -, hway, hwalk, hparent, hempty, hdot, -, -, rfl, -⟩ :=
    placeForFile_eq_ok h
  obtain ⟨front, hsteps, hdir⟩ := t.exists_front dir habsolute
  obtain ⟨steps, final, hpart⟩ : ∃ steps final, Path.steps part = steps ++ [final] :=
    ⟨_, _, (List.dropLast_concat_getLast (Path.steps_ne_nil part)).symm⟩
  obtain ⟨rfl, hfinal⟩ : way = front ++ steps ∧ [last] = [final] := by
    refine List.append_inj' ?_ rfl
    rw [← hway, hsteps, hpart, List.append_assoc]
  obtain rfl := (List.cons.inj hfinal).1
  -- Nothing but the last step is a move, so the file is put where the directory is.
  obtain ⟨hstays, hname⟩ : steps.filter Path.isMove = [] ∧ [last] = [name] := by
    have hlast : [last].filter Path.isMove = [last] :=
      List.filter_cons_of_pos (Path.isMove_iff.2 ⟨hempty, hdot⟩)
    rw [Path.moves, hpart, List.filter_append, hlast] at hmoves
    exact List.append_inj' hmoves rfl
  obtain rfl := (List.cons.inj hname).1
  obtain ⟨d, hfront, hstay⟩ := walk_append_eq_ok_iff.1 hwalk
  have hsame := walk_moves hstay
  rw [hstays] at hsame
  obtain rfl := Except.ok.inj hsame
  exact ⟨d, hdir d hfront hparent, rfl⟩

end FileTree

end TaskGraph
