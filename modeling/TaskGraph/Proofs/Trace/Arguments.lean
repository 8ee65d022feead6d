import Mathlib.Data.List.Nodup
import TaskGraph.Proofs.Json.Fields
import TaskGraph.Proofs.Lists.Correspondence
import TaskGraph.Routine
import TaskGraph.Trace.Callable

namespace TaskGraph

open Json (Value)

theorem LiteralType.isNullFree_of_accepts {t : LiteralType} {v : Value} (h : t.accepts v) :
    v.isNullFree := by
  cases t <;> cases v <;> first | rfl | cases h

theorem DeclaredType.validate_eq_ok_iff {t : DeclaredType} {v : Value} {u : Unit} :
    t.validate v = .ok u ↔ t.accepts v := by
  cases t with
  | untyped => exact ⟨fun _ => rfl, fun _ => rfl⟩
  | typed t =>
    unfold validate LiteralType.validate accepts
    by_cases h : t.accepts v
    · simp [h]
    · simp [h]

namespace Argument

/-- The value that an argument hands in, unless it is a promise. -/
def value? : Argument → Option Value
  | bound (.promise _) => none
  | bound (.constant value _) => some value
  | literal value => some value

theorem bind_constant_eq_ok_iff {v : Value} {own t : DeclaredType} {b : Binding} :
    (bound (.constant v own)).bind t = .ok b ↔ t.accepts v ∧
      .constant v (match t with | .untyped => own | .typed type => .typed type) = b := by
  unfold bind
  rw [bind_eq_ok_iff]
  constructor
  · rintro ⟨_, hvalid, hbound⟩
    exact ⟨DeclaredType.validate_eq_ok_iff.1 hvalid, Except.ok.inj hbound⟩
  · rintro ⟨haccepts, rfl⟩
    exact ⟨(), DeclaredType.validate_eq_ok_iff.2 haccepts, rfl⟩

theorem bind_literal_eq_ok_iff {v : Value} {t : DeclaredType} {b : Binding} :
    (literal v).bind t = .ok b ↔ v.isNullFree ∧ t.accepts v ∧ .constant v t = b := by
  rw [bind]
  by_cases hnull : v.isNullFree
  · rw [if_pos hnull, bind_eq_ok_iff]
    constructor
    · rintro ⟨_, hvalid, hbound⟩
      exact ⟨hnull, DeclaredType.validate_eq_ok_iff.1 hvalid, Except.ok.inj hbound⟩
    · rintro ⟨-, haccepts, rfl⟩
      exact ⟨(), DeclaredType.validate_eq_ok_iff.2 haccepts, rfl⟩
  · rw [if_neg hnull]
    constructor
    · intro h
      cases h
    · rintro ⟨h, -⟩
      exact absurd h hnull

/-- What is bound to a typed variable: any promise, and any value of the type. That a literal holds
    no null need not be asked, since no value of a literal type does. -/
theorem exists_bind_typed_iff {a : Argument} {t : LiteralType} :
    (∃ b, a.bind (.typed t) = .ok b) ↔ ∀ v, a.value? = some v → t.accepts v := by
  cases a with
  | bound b =>
    cases b with
    | promise p =>
      refine ⟨?_, fun _ => ⟨_, rfl⟩⟩
      rintro - v ⟨⟩
    | constant value own =>
      constructor
      · rintro ⟨b, hb⟩ v ⟨⟩
        exact (bind_constant_eq_ok_iff.1 hb).1
      · intro h
        exact ⟨_, bind_constant_eq_ok_iff.2 ⟨h value rfl, rfl⟩⟩
  | literal value =>
    constructor
    · rintro ⟨b, hb⟩ v ⟨⟩
      exact (bind_literal_eq_ok_iff.1 hb).2.1
    · intro h
      have haccepts := h value rfl
      exact ⟨_, bind_literal_eq_ok_iff.2
        ⟨LiteralType.isNullFree_of_accepts haccepts, haccepts, rfl⟩⟩

end Argument

theorem Convention.takesPositional_iff {convention : Convention} :
    convention.takesPositional ↔
      convention = .positional ∨ convention = .positionalOrKeyword := by
  cases convention <;> simp [takesPositional]

theorem Convention.takesKeyword_iff {convention : Convention} :
    convention.takesKeyword ↔ convention = .keyword ∨ convention = .positionalOrKeyword := by
  cases convention <;> simp [takesKeyword]

namespace Callable

theorem go_eq_none_iff {seen names : List String} :
    repeatedName?.go seen names = none ↔ names.Nodup ∧ ∀ name ∈ names, name ∉ seen := by
  induction names generalizing seen with
  | nil => simp [repeatedName?.go]
  | cons name names ih =>
    rw [repeatedName?.go]
    by_cases hseen : name ∈ seen
    · simp [hseen]
    · rw [if_neg hseen, ih, List.nodup_cons, List.forall_mem_cons]
      constructor
      · rintro ⟨hnodup, hnew⟩
        refine ⟨⟨fun hmem => hnew name hmem List.mem_cons_self, hnodup⟩, hseen, ?_⟩
        exact fun other hother hmem => hnew other hother (List.mem_cons_of_mem _ hmem)
      · rintro ⟨⟨hname, hnodup⟩, -, hnew⟩
        refine ⟨hnodup, fun other hother hmem => ?_⟩
        rcases List.mem_cons.1 hmem with rfl | hmem
        · exact hname hother
        · exact hnew other hother hmem

theorem repeatedName?_eq_none_iff {names : List String} :
    repeatedName? names = none ↔ names.Nodup := by
  unfold repeatedName?
  simp [go_eq_none_iff]

/-- Names without repetition that lie within each other are the same names. -/
theorem sameNames_iff {given names : List String} (hgiven : given.Nodup) (hnames : names.Nodup) :
    (given.all (· ∈ names) && names.all (· ∈ given)) ↔ given.Perm names := by
  rw [List.perm_ext_iff_of_nodup hgiven hnames]
  simp only [Bool.and_eq_true, List.all_eq_true, decide_eq_true_eq]
  constructor
  · rintro ⟨hwithin, hall⟩ name
    exact ⟨hwithin name, hall name⟩
  · intro h
    exact ⟨fun name => (h name).1, fun name => (h name).2⟩

theorem eraseDups_of_nodup {names : List String} (h : names.Nodup) : names.eraseDups = names := by
  induction names with
  | nil => rfl
  | cons name names ih =>
    obtain ⟨hname, hnodup⟩ := List.nodup_cons.1 h
    have hfilter : names.filter (fun other => !other == name) = names := by
      refine List.filter_eq_self.2 fun other hother => ?_
      have hne : other ≠ name := ne_of_mem_of_not_mem hother hname
      simpa using hne
    rw [List.eraseDups_cons, hfilter, ih hnodup]

variable {c : Callable} {args : Arguments}

/-- Whether the arguments have the shape that a callable asks for: as many as there are inputs, or
    the name of each input once and no other name. Where there are inputs, the callable must
    understand this form of arguments; where there are none, nothing is handed in and either form
    will do. -/
def Fits (c : Callable) : Arguments → Prop
  | .positional given => given.length = c.interface.inputs.length ∧
      (c.interface.inputs ≠ [] →
        c.convention = .positional ∨ c.convention = .positionalOrKeyword)
  | .keyword given => (given.map (·.1)).Perm c.interface.inputNames ∧
      (c.interface.inputs ≠ [] → c.convention = .keyword ∨ c.convention = .positionalOrKeyword)

/-- Whether a call hands in `a` for the input `v`: at its position, or under its name. -/
def HandsIn (c : Callable) : Arguments → Variable → Argument → Prop
  | .positional given, v, a => (v, a) ∈ c.interface.inputs.zip given
  | .keyword given, v, a => (v.name, a) ∈ given

theorem inputNames_isEmpty : c.interface.inputNames.isEmpty = c.interface.inputs.isEmpty :=
  List.isEmpty_map

theorem length_inputNames : c.interface.inputNames.length = c.interface.inputs.length :=
  List.length_map _

/-- Arguments that fit hand in one argument for each input. -/
theorem handsIn_unique (hnodup : c.interface.inputNames.Nodup) (hfits : c.Fits args) :
    Relator.RightUnique (c.HandsIn args) := by
  intro v a a' ha ha'
  cases args with
  | positional given =>
    have hinputs : ((c.interface.inputs.zip given).map Prod.fst).Nodup := by
      rw [List.map_fst_zip (Nat.le_of_eq hfits.1.symm)]
      exact hnodup.of_map _
    exact congrArg Prod.snd (List.inj_on_of_nodup_map hinputs ha ha' rfl)
  | keyword given =>
    have hgiven : (given.map (·.1)).Nodup := hfits.1.nodup_iff.2 hnodup
    exact congrArg Prod.snd (List.inj_on_of_nodup_map hgiven ha ha' rfl)

theorem order_positional_cases (c : Callable) (given : List Argument) :
    (c.Fits (.positional given) ∧ c.order (.positional given) = .ok given) ∨
      (¬c.Fits (.positional given) ∧ ∃ fault, c.order (.positional given) = .error fault) := by
  unfold Fits order
  dsimp only
  rw [inputNames_isEmpty, length_inputNames, ← Convention.takesPositional_iff]
  cases hinputs : c.interface.inputs with
  | nil =>
    cases given with
    | nil => exact .inl ⟨⟨rfl, fun h => absurd rfl h⟩, rfl⟩
    | cons a as => exact .inr ⟨fun h => absurd h.1 (Nat.succ_ne_zero _), _, rfl⟩
  | cons v vs =>
    rw [List.isEmpty_cons, if_neg Bool.false_ne_true]
    by_cases hform : c.convention.takesPositional
    · rw [if_neg (not_not_intro hform)]
      by_cases hlength : given.length = (v :: vs).length
      · rw [if_neg (not_not_intro hlength)]
        exact .inl ⟨⟨hlength, fun _ => hform⟩, rfl⟩
      · rw [if_pos hlength]
        exact .inr ⟨fun h => hlength h.1, _, rfl⟩
    · rw [if_pos hform]
      exact .inr ⟨fun h => hform (h.2 (List.cons_ne_nil v vs)), _, rfl⟩

theorem isSome_lookup_of_perm {given : List (String × Argument)}
    (hnodup : c.interface.inputNames.Nodup)
    (hperm : (given.map (·.1)).Perm c.interface.inputNames) :
    ∀ v ∈ c.interface.inputs, (given.lookup v.name).isSome := by
  intro v hv
  have hname : v.name ∈ given.map (·.1) := hperm.mem_iff.2 (List.mem_map_of_mem hv)
  obtain ⟨⟨_, a⟩, ha, hkey⟩ := List.mem_map.1 hname
  rw [← hkey, Json.lookup_of_mem (hperm.nodup_iff.2 hnodup) ha]
  rfl

theorem order_keyword_cases (hnodup : c.interface.inputNames.Nodup)
    (given : List (String × Argument)) :
    (c.Fits (.keyword given) ∧ ∃ ordered, c.order (.keyword given) = .ok ordered ∧
        List.Forall₂ (fun v a => given.lookup v.name = some a) c.interface.inputs ordered) ∨
      (¬c.Fits (.keyword given) ∧ ∃ fault, c.order (.keyword given) = .error fault) := by
  have hfound : (given.map (·.1)).Perm c.interface.inputNames → List.Forall₂
      (fun v a => given.lookup v.name = some a) c.interface.inputs
      (c.interface.inputNames.filterMap fun name => given.lookup name) := by
    intro hperm
    rw [Interface.inputNames, List.filterMap_map]
    exact forall₂_filterMap (isSome_lookup_of_perm hnodup hperm)
  unfold Fits order
  dsimp only
  rw [eraseDups_of_nodup hnodup, inputNames_isEmpty, ← Convention.takesKeyword_iff]
  cases hinputs : c.interface.inputs with
  | nil =>
    have hnames : c.interface.inputNames = [] := by rw [Interface.inputNames, hinputs, List.map_nil]
    cases given with
    | nil => exact .inl ⟨⟨hnames ▸ .nil, fun h => absurd rfl h⟩, _, rfl, .nil⟩
    | cons a as =>
      refine .inr ⟨fun h => ?_, _, rfl⟩
      rw [hnames] at h
      exact List.cons_ne_nil _ _ (List.perm_nil.1 h.1)
  | cons v vs =>
    rw [List.isEmpty_cons, if_neg Bool.false_ne_true, ← hinputs]
    by_cases hform : c.convention.takesKeyword
    · rw [if_neg (not_not_intro hform)]
      split
      · next name hrepeated =>
        refine .inr ⟨fun h => ?_, _, rfl⟩
        rw [repeatedName?_eq_none_iff.2 (h.1.nodup_iff.2 hnodup)] at hrepeated
        cases hrepeated
      · next hnone =>
        have hsame := sameNames_iff (repeatedName?_eq_none_iff.1 hnone) hnodup
        by_cases hperm : (given.map (·.1)).Perm c.interface.inputNames
        · rw [if_pos (hsame.2 hperm)]
          exact .inl ⟨⟨hperm, fun _ => hform⟩, _, rfl, hfound hperm⟩
        · rw [if_neg (mt hsame.1 hperm)]
          exact .inr ⟨fun h => hperm h.1, _, rfl⟩
    · rw [if_pos hform]
      exact .inr ⟨fun h => hform (h.2 (hinputs ▸ List.cons_ne_nil v vs)), _, rfl⟩

/-- Arguments that fit are put in the order of the inputs, each against its own input, and all
    others are refused. -/
theorem order_cases (hnodup : c.interface.inputNames.Nodup) (args : Arguments) :
    (c.Fits args ∧ ∃ ordered, c.order args = .ok ordered ∧
        List.Forall₂ (c.HandsIn args) c.interface.inputs ordered) ∨
      (¬c.Fits args ∧ ∃ fault, c.order args = .error fault) := by
  cases args with
  | positional given =>
    rcases order_positional_cases c given with ⟨hfits, horder⟩ | hmisfit
    · refine .inl ⟨hfits, given, horder, List.forall₂_iff_zip.2 ⟨hfits.1.symm, ?_⟩⟩
      exact fun hmem => hmem
    · exact .inr hmisfit
  | keyword given =>
    rcases order_keyword_cases hnodup given with ⟨hfits, ordered, horder, hlookup⟩ | hmisfit
    · refine .inl ⟨hfits, ordered, horder, hlookup.imp fun v a hfound => ?_⟩
      have hgiven : (given.map (·.1)).Nodup := hfits.1.nodup_iff.2 hnodup
      exact (Json.lookup_eq_some_iff_mem hgiven).1 hfound
    · exact .inr hmisfit

/-- Arguments in the order of the inputs are all bound, or the first one that is not good for its
    input is reported. -/
theorem bindInputs_cases {R : Variable → Argument → Prop} {inputs : List Variable}
    {ordered : List Argument} (label : String) (h : List.Forall₂ R inputs ordered) :
    (∃ bound, bindInputs label ordered inputs = .ok bound ∧
        List.Forall₂ (fun v p => p.1 = v.name ∧ ∃ a, R v a ∧ a.bind v.type = .ok p.2)
          inputs bound) ∨
      ∃ before v after a source, inputs = before ++ v :: after ∧ R v a ∧
        a.bind v.type = .error source ∧
        bindInputs label ordered inputs = .error (.invalidArgument label v.name source) ∧
        ∀ w ∈ before, ∃ a b, R w a ∧ a.bind w.type = .ok b := by
  induction h with
  | nil => exact .inl ⟨[], rfl, .nil⟩
  | @cons v a inputs ordered hR _ ih =>
    unfold bindInputs
    cases hbind : a.bind v.type with
    | error source => exact .inr ⟨[], v, inputs, a, source, rfl, hR, hbind, rfl, by simp⟩
    | ok b =>
      rcases ih with ⟨bound, hbound, hall⟩ |
        ⟨before, w, after, a', source, rfl, hR', hsource, hbound, hbefore⟩
      · rw [hbound]
        exact .inl ⟨_, rfl, .cons ⟨rfl, a, hR, hbind⟩ hall⟩
      · rw [hbound]
        refine .inr ⟨v :: before, w, after, a', source, rfl, hR', hsource, rfl, ?_⟩
        exact List.forall_mem_cons.2 ⟨⟨a, b, hR, hbind⟩, hbefore⟩

/-- The arguments of a call, each beside the input that it is for. -/
def handed (c : Callable) (args : Arguments) : List (Variable × Argument) :=
  match c.order args with
  | .ok ordered => c.interface.inputs.zip ordered
  | .error _ => []

/-- Whether an input is bound to what an argument for a variable comes to. -/
def BoundTo (handed : Variable × Argument) (input : String × Binding) : Prop :=
  input.1 = handed.1.name ∧ handed.2.bind handed.1.type = .ok input.2

theorem forall₂_of_bindInputs {label : String} {ordered : List Argument} {inputs : List Variable}
    {bound : List (String × Binding)} (h : bindInputs label ordered inputs = .ok bound) :
    List.Forall₂ BoundTo (inputs.zip ordered) bound := by
  induction ordered generalizing inputs bound with
  | nil =>
    obtain rfl := Except.ok.inj h
    rw [List.zip_nil_right]
    exact .nil
  | cons a ordered ih =>
    cases inputs with
    | nil =>
      obtain rfl := Except.ok.inj h
      exact .nil
    | cons v inputs =>
      rw [bindInputs, bind_eq_ok_iff] at h
      obtain ⟨b, hb, h⟩ := h
      rw [bind_eq_ok_iff] at h
      obtain ⟨rest, hrest, h⟩ := h
      obtain rfl := Except.ok.inj h
      exact .cons ⟨rfl, mapError_eq_ok_iff.1 hb⟩ (ih hrest)

/-- A call that is bound binds what it is handed, one by one, whatever the names of the inputs. -/
theorem forall₂_handed {bound : List (String × Binding)} (h : c.bind args = .ok bound) :
    List.Forall₂ BoundTo (c.handed args) bound := by
  rw [bind, bind_eq_ok_iff] at h
  obtain ⟨ordered, horder, h⟩ := h
  rw [handed, mapError_eq_ok_iff.1 horder]
  exact forall₂_of_bindInputs h

/-- A call never binds anything but inputs of its target. -/
theorem names_of_bind {bound : List (String × Binding)} (h : c.bind args = .ok bound) :
    ∀ name ∈ bound.map (·.1), name ∈ c.interface.inputNames := by
  intro name hname
  obtain ⟨input, hinput, rfl⟩ := List.mem_map.1 hname
  obtain ⟨⟨v, a⟩, hmem, heq, -⟩ := exists_of_forall₂_right (forall₂_handed h) hinput
  rw [heq]
  unfold handed at hmem
  split at hmem
  · exact List.mem_map_of_mem (List.of_mem_zip hmem).1
  · cases hmem

/-- What a call with arguments of the right or the wrong shape comes to. -/
theorem bind_cases (hnodup : c.interface.inputNames.Nodup) (args : Arguments) :
    (c.Fits args ∧ ∃ bound, c.bind args = .ok bound ∧
        List.Forall₂ (fun v p => p.1 = v.name ∧ ∃ a, c.HandsIn args v a ∧ a.bind v.type = .ok p.2)
          c.interface.inputs bound) ∨
      (c.Fits args ∧ ∃ before v after a source, c.interface.inputs = before ++ v :: after ∧
        c.HandsIn args v a ∧ a.bind v.type = .error source ∧
        c.bind args = .error (.invalidArgument c.label v.name source) ∧
        ∀ w ∈ before, ∃ a b, c.HandsIn args w a ∧ a.bind w.type = .ok b) ∨
      (¬c.Fits args ∧ ∃ fault, c.bind args = .error (.arityMismatch c.label fault)) := by
  unfold bind
  rcases order_cases hnodup args with ⟨hfits, ordered, horder, hall⟩ | ⟨hmisfit, fault, horder⟩
  · rw [horder]
    rcases bindInputs_cases c.label hall with hbound | hrefused
    · exact .inl ⟨hfits, hbound⟩
    · exact .inr (.inl ⟨hfits, hrefused⟩)
  · rw [horder]
    exact .inr (.inr ⟨hmisfit, fault, rfl⟩)

/-- A call that is bound pairs every input, in order, with what its own argument came to. -/
theorem matched_of_bind (hnodup : c.interface.inputNames.Nodup) {bound : List (String × Binding)}
    (h : c.bind args = .ok bound) :
    List.Forall₂ (fun v p => p.1 = v.name ∧ ∃ a, c.HandsIn args v a ∧ a.bind v.type = .ok p.2)
      c.interface.inputs bound := by
  rcases bind_cases hnodup args with ⟨-, found, hfound, hall⟩ |
    ⟨-, _, _, _, _, _, -, -, -, herror, -⟩ | ⟨-, _, herror⟩
  · obtain rfl := Except.ok.inj (h.symm.trans hfound)
    exact hall
  · cases h.symm.trans herror
  · cases h.symm.trans herror

theorem names_eq_of_bind (hnodup : c.interface.inputNames.Nodup) {bound : List (String × Binding)}
    (h : c.bind args = .ok bound) : bound.map (·.1) = c.interface.inputNames := by
  have hnames : List.Forall₂ (· = ·) (c.interface.inputs.map (·.name)) (bound.map (·.1)) := by
    rw [List.forall₂_map_left_iff, List.forall₂_map_right_iff]
    exact (matched_of_bind hnodup h).imp fun _ _ hpair => hpair.1.symm
  rw [List.forall₂_eq_eq_eq] at hnames
  exact hnames.symm

/-- A call is bound exactly when its arguments fit and each is good for its own input. -/
theorem exists_bind_iff (hnodup : c.interface.inputNames.Nodup) :
    (∃ bound, c.bind args = .ok bound) ↔ c.Fits args ∧
      ∀ v ∈ c.interface.inputs, ∀ a, c.HandsIn args v a → ∃ b, a.bind v.type = .ok b := by
  rcases bind_cases hnodup args with ⟨hfits, bound, hbound, hall⟩ |
    ⟨hfits, before, v, after, a, source, hinputs, ha, hsource, hbind, -⟩ | ⟨hmisfit, fault, hbind⟩
  · refine iff_of_true ⟨bound, hbound⟩ ⟨hfits, fun v hv a ha => ?_⟩
    obtain ⟨p, -, -, own, hown, hp⟩ := exists_of_forall₂_left hall hv
    obtain rfl := handsIn_unique hnodup hfits hown ha
    exact ⟨p.2, hp⟩
  · have hv : v ∈ c.interface.inputs := hinputs ▸ List.mem_append_right _ List.mem_cons_self
    refine iff_of_false ?_ ?_
    · rintro ⟨bound, hbound⟩
      rw [hbind] at hbound
      cases hbound
    · rintro ⟨-, hgood⟩
      obtain ⟨b, hb⟩ := hgood v hv a ha
      rw [hsource] at hb
      cases hb
  · refine iff_of_false ?_ fun h => hmisfit h.1
    rintro ⟨bound, hbound⟩
    rw [hbind] at hbound
    cases hbound

/-- A call by name is bound exactly when it names every input once and nothing else, and every
    argument is good for the input of its name. -/
theorem exists_bind_keyword_iff {given : List (String × Argument)}
    (hnodup : c.interface.inputNames.Nodup)
    (hc : c.convention = .keyword ∨ c.convention = .positionalOrKeyword) :
    (∃ bound, c.bind (.keyword given) = .ok bound) ↔
      (given.map (·.1)).Perm c.interface.inputNames ∧
        ∀ v ∈ c.interface.inputs, ∀ a, (v.name, a) ∈ given → ∃ b, a.bind v.type = .ok b := by
  rw [exists_bind_iff hnodup, Fits, and_iff_left fun _ => hc]
  rfl

end Callable

end TaskGraph
