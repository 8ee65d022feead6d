import TaskGraph.Files.Tree
import TaskGraph.Proofs.Text.Reading
import TaskGraph.Routine

namespace TaskGraph

/-- A path that does not end in a slash ends in a name. -/
theorem Path.steps_eq_append {path : String} (hne : path ≠ "")
    (hlast : path.toList.getLast? ≠ some '/') :
    ∃ front name, Path.steps path = front ++ [name] ∧ name ≠ "" := by
  unfold Path.steps Text.split
  cases hcut : Text.splitLastChars? '/' path.toList with
  | none =>
    have hnone := Text.splitLastChars?_eq_none_iff.1 hcut
    refine ⟨[], path, ?_, hne⟩
    rw [Text.splitChars_of_notMem hnone]
    simp
  | some cut =>
    obtain ⟨before, after⟩ := cut
    obtain ⟨hchars, hafter⟩ := Text.splitLastChars?_eq_some_iff.1 hcut
    refine ⟨(Text.splitChars '/' before).map String.ofList, String.ofList after, ?_, ?_⟩
    · rw [hchars, Text.splitChars_append, Text.splitChars_of_notMem hafter]
      simp
    · intro hempty
      have hnil : after = [] := by simpa using congrArg String.toList hempty
      apply hlast
      simp [hchars, hnil]

namespace FileTree

variable {t t' : FileTree} {place p q : Place} {contents : ByteArray} {path text step : String}

theorem isDirectory_set_file (hne : place ≠ []) (hfree : ¬t.isDirectory place) (p : Place) :
    (t.set place (.file contents)).isDirectory p = t.isDirectory p := by
  unfold isDirectory at hfree ⊢
  rw [node?_set t hne]
  by_cases hp : p = place
  · subst hp
    simpa using hfree
  · rw [if_neg hp]

theorem follow_set_file (hne : place ≠ []) (hfree : ¬t.isDirectory place)
    (h : t.follow p step = .ok q) : (t.set place (.file contents)).follow p step = .ok q := by
  unfold follow at h ⊢
  rw [isDirectory_set_file hne hfree, node?_set t hne]
  grind

/-- A file that takes the place of no directory leaves every walk as it was. -/
theorem walk_set_file (hne : place ≠ []) (hfree : ¬t.isDirectory place) {steps : List String}
    (h : t.walk p steps = .ok q) : (t.set place (.file contents)).walk p steps = .ok q := by
  induction steps generalizing p with
  | nil => exact h
  | cons step steps ih =>
    unfold walk at h ⊢
    rw [List.foldlM_cons, bind_eq_ok_iff] at h ⊢
    obtain ⟨between, hstep, hrest⟩ := h
    exact ⟨between, follow_set_file hne hfree hstep, ih hrest⟩

theorem placeForFile_eq_ok (h : t.placeForFile path = .ok place) :
    ∃ front name parent, checkPath path = .ok () ∧ Path.steps path = front ++ [name] ∧
      t.walk (t.origin path) front = .ok parent ∧ t.isDirectory parent ∧
      name ≠ "" ∧ name ≠ "." ∧ name ≠ ".." ∧ name.utf8ByteSize ≤ maxNameBytes ∧
      place = parent ++ [name] ∧ ¬t.isDirectory place := by
  unfold placeForFile at h
  rw [bind_eq_ok_iff] at h
  obtain ⟨⟨⟩, hcheck, h⟩ := h
  rw [bind_eq_ok_iff] at h
  obtain ⟨parent, hparent, h⟩ := h
  dsimp only at h
  split at h
  · cases h
  next hdirectory =>
  split at h
  · cases h
  next hname =>
  split at h
  · cases h
  next hshort =>
  split at h
  · cases h
  next hfree =>
  obtain rfl := Except.ok.inj h
  simp only [not_or] at hname
  obtain ⟨-, hdot, hdots, hslash⟩ := hname
  have hne : path ≠ "" := by
    rintro rfl
    cases hcheck
  obtain ⟨front, name, hsteps, hnonempty⟩ := Path.steps_eq_append hne hslash
  have hlast : (Path.steps path).reverse.dropWhile (·.isEmpty) = name :: front.reverse := by
    simp [hsteps, hnonempty]
  rw [hlast] at hparent hdot hdots hshort hfree ⊢
  refine ⟨front, name, parent, hcheck, hsteps, by simpa using hparent, by simpa using hdirectory,
    hnonempty, hdot, hdots, by simpa using hshort, rfl, hfree⟩

/-- One file of a tree is new or has new contents, and all else is as it was. -/
structure Written (t : FileTree) (path text : String) (t' : FileTree) : Prop where
  current_eq : t'.current = t.current
  node?_eq : ∃ place, t.placeForFile path = .ok place ∧
    ∀ p, t'.node? p = if p = place then some (.file text.toUTF8) else t.node? p
  readText_eq : t'.readText path = .ok text

/-- A path leads to the file that was put where its last step puts files. -/
theorem readBytes_set (h : t.placeForFile path = .ok place) :
    (t.set place (.file contents)).readBytes path = .ok contents := by
  obtain ⟨front, name, parent, hcheck, hsteps, hwalk, hparent, hne, hdot, hdots, hshort, rfl,
    hfree⟩ := placeForFile_eq_ok h
  have hplace : parent ++ [name] ≠ [] := by simp
  have hthere := node?_set t hplace (parent ++ [name]) (.file contents)
  rw [if_pos rfl] at hthere
  have hlast : (t.set (parent ++ [name]) (.file contents)).follow parent name =
      .ok (parent ++ [name]) := by
    unfold follow
    rw [isDirectory_set_file hplace hfree, hthere]
    simp [hparent, hne, hdot, hdots, hshort]
  have hpath : (t.set (parent ++ [name]) (.file contents)).walk (t.origin path)
      (Path.steps path) = .ok (parent ++ [name]) := by
    rw [hsteps, walk, List.foldlM_append, bind_eq_ok_iff]
    refine ⟨parent, walk_set_file hplace hfree hwalk, ?_⟩
    rw [List.foldlM_cons, hlast]
    rfl
  unfold readBytes
  rw [bind_eq_ok_iff]
  refine ⟨(), hcheck, ?_⟩
  rw [bind_eq_ok_iff]
  exact ⟨_, hpath, by rw [hthere]⟩

theorem written_of_writeText (h : t.writeText path text = .ok t') : Written t path text t' := by
  unfold writeText at h
  rw [bind_eq_ok_iff] at h
  obtain ⟨place, hplace, h⟩ := h
  obtain rfl := Except.ok.inj h
  have hne : place ≠ [] := by
    obtain ⟨-, name, parent, -, -, -, -, -, -, -, -, rfl, -⟩ := placeForFile_eq_ok hplace
    simp
  refine ⟨rfl, ⟨place, hplace, fun p => node?_set t hne p _⟩, ?_⟩
  have hdecode : String.fromUTF8? text.toUTF8 = some text := dif_pos text.isValidUTF8
  unfold readText
  rw [bind_eq_ok_iff]
  exact ⟨_, readBytes_set hplace, by rw [hdecode]⟩

end FileTree

end TaskGraph
