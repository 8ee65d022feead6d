import TaskGraph.Proofs.Trace.Arguments

namespace TaskGraph.Callable

variable {c : Callable}

/-- Arguments by name come out the same in whatever order they are given. A repeated name would not:
    the failure reports the name whose second occurrence comes first. -/
theorem order_keyword_perm {given given' : List (String × Argument)}
    (hnodup : (given.map (·.1)).Nodup) (hperm : given.Perm given') :
    c.order (.keyword given') = c.order (.keyword given) := by
  have hnames : (given.map (·.1)).Perm (given'.map (·.1)) := hperm.map (·.1)
  have hempty : (Arguments.keyword given').isEmpty = (Arguments.keyword given).isEmpty :=
    hperm.isEmpty_eq.symm
  have hnone := repeatedName?_eq_none_iff.2 hnodup
  have hnone' := repeatedName?_eq_none_iff.2 (hnames.nodup_iff.1 hnodup)
  have hwithin : (given'.map (·.1)).all (· ∈ c.interface.inputNames) =
      (given.map (·.1)).all (· ∈ c.interface.inputNames) := hnames.all_eq.symm
  have hcovered : c.interface.inputNames.all (· ∈ given'.map (·.1)) =
      c.interface.inputNames.all (· ∈ given.map (·.1)) := by
    congr 1
    funext name
    exact decide_eq_decide.2 hnames.mem_iff.symm
  have hlookup : (fun name => given'.lookup name) = fun name => given.lookup name :=
    funext (Json.lookup_eq_of_perm hnodup hperm)
  unfold order
  dsimp only
  rw [hempty, hnone, hnone', hwithin, hcovered, hlookup]

/-- Where both forms are understood, a list of arguments stands for the same arguments under the
    names of the inputs. -/
theorem order_keyword_zip (hnodup : c.interface.inputNames.Nodup)
    (hc : c.convention = .positionalOrKeyword) {given : List Argument}
    (hlength : given.length = c.interface.inputs.length) :
    c.order (.keyword (c.interface.inputNames.zip given)) = c.order (.positional given) := by
  have hpositional : c.Fits (.positional given) := ⟨hlength, fun _ => .inr hc⟩
  have hkeyword : c.Fits (.keyword (c.interface.inputNames.zip given)) := by
    refine ⟨?_, fun _ => .inr hc⟩
    rw [List.map_fst_zip (Nat.le_of_eq (length_inputNames.trans hlength.symm))]
  rcases order_cases hnodup (.positional given) with ⟨-, first, hfirst, hbyPosition⟩ | ⟨hmisfit, -⟩
  · rcases order_cases hnodup (.keyword (c.interface.inputNames.zip given)) with
      ⟨-, second, hsecond, hbyName⟩ | ⟨hmisfit, -⟩
    · have hsame : List.Forall₂ (c.HandsIn (.keyword (c.interface.inputNames.zip given)))
          c.interface.inputs first := by
        refine hbyPosition.imp fun v a hmem => ?_
        rw [HandsIn, Interface.inputNames, List.zip_map_left]
        exact List.mem_map.2 ⟨(v, a), hmem, rfl⟩
      rw [hfirst, hsecond,
        List.right_unique_forall₂' (handsIn_unique hnodup hkeyword) hbyName hsame]
    · exact absurd hkeyword hmisfit
  · exact absurd hpositional hmisfit

/-- What a callable with different input names binds. A call is bound exactly when its arguments fit
    and each is good for its own input, and then every input stands once and in order with what its
    own argument came to. Arguments that do not fit are refused as such; else the first input whose
    argument is not good for it is named. Names may be given in any order, and a list of arguments
    stands for these arguments by name. -/
theorem bind_exact (c : Callable) (hnodup : c.interface.inputNames.Nodup) :
    (∀ args, (∃ bound, c.bind args = .ok bound) ↔ c.Fits args ∧
      ∀ v ∈ c.interface.inputs, ∀ a, c.HandsIn args v a → ∃ b, a.bind v.type = .ok b) ∧
    (∀ args, c.Fits args → ∀ v ∈ c.interface.inputs, ∃! a, c.HandsIn args v a) ∧
    (∀ args bound, c.bind args = .ok bound →
      List.Forall₂ (fun v p => p.1 = v.name ∧ ∃ a, c.HandsIn args v a ∧ a.bind v.type = .ok p.2)
        c.interface.inputs bound) ∧
    (∀ args e, c.bind args = .error e →
      (¬c.Fits args ∧ ∃ fault, e = .arityMismatch c.label fault) ∨
      (c.Fits args ∧ ∃ before v after a source, c.interface.inputs = before ++ v :: after ∧
        c.HandsIn args v a ∧ a.bind v.type = .error source ∧
        e = .invalidArgument c.label v.name source ∧
        ∀ w ∈ before, ∃ a b, c.HandsIn args w a ∧ a.bind w.type = .ok b)) ∧
    (∀ given given', (given.map (·.1)).Nodup → given.Perm given' →
      c.bind (.keyword given') = c.bind (.keyword given)) ∧
    (c.convention = .positionalOrKeyword → ∀ given : List Argument,
      given.length = c.interface.inputs.length →
      c.bind (.keyword (c.interface.inputNames.zip given)) = c.bind (.positional given)) := by
  refine ⟨fun args => exists_bind_iff hnodup, ?_, fun args bound => matched_of_bind hnodup, ?_, ?_,
    ?_⟩
  · intro args hfits v hv
    rcases order_cases hnodup args with ⟨-, ordered, -, hall⟩ | ⟨hmisfit, -⟩
    · obtain ⟨a, -, ha⟩ := exists_of_forall₂_left hall hv
      exact ⟨a, ha, fun other hother => handsIn_unique hnodup hfits hother ha⟩
    · exact absurd hfits hmisfit
  · intro args e he
    rcases bind_cases hnodup args with ⟨-, _, hfound, -⟩ |
      ⟨hfits, before, v, after, a, source, hinputs, ha, hsource, herror, hbefore⟩ |
      ⟨hmisfit, fault, herror⟩
    · cases he.symm.trans hfound
    · obtain rfl := Except.error.inj (he.symm.trans herror)
      exact .inr ⟨hfits, before, v, after, a, source, hinputs, ha, hsource, rfl, hbefore⟩
    · exact .inl ⟨hmisfit, fault, Except.error.inj (he.symm.trans herror)⟩
  · intro given given' hgiven hperm
    unfold bind
    rw [order_keyword_perm hgiven hperm]
  · intro hc given hlength
    unfold bind
    rw [order_keyword_zip hnodup hc hlength]

/-- A callable with two inputs that understands both forms of arguments. -/
def repeating : Callable where
  name := "repeat"
  kind := .taskReference
  interface := ⟨[⟨"text", .typed .text⟩, ⟨"times", .typed .integer⟩], ⟨"result", .typed .text⟩⟩
  convention := .positionalOrKeyword

theorem repeating_bind_exact :
    repeating.interface.inputNames.Nodup ∧
      (∃ bound, repeating.bind (.keyword [("times", .literal (.num (.int 3 (by decide)))),
        ("text", .bound (.ofInput "line"))]) = .ok bound) ∧
      (∀ e, repeating.bind (.positional [.literal .null, .literal .null]) = .error e →
        ∃ source, e = .invalidArgument "task reference `repeat`" "text" source) := by
  have hnodup : repeating.interface.inputNames.Nodup := by decide
  obtain ⟨hbound, -, -, herror, -, -⟩ := bind_exact repeating hnodup
  refine ⟨hnodup, (hbound _).2 ⟨⟨by decide, fun _ => .inr rfl⟩, ?_⟩, ?_⟩
  · intro v hv a ha
    obtain rfl | rfl : v = ⟨"text", .typed .text⟩ ∨ v = ⟨"times", .typed .integer⟩ := by
      simpa [repeating] using hv
    · obtain rfl : a = .bound (.ofInput "line") := by simpa [HandsIn] using ha
      exact ⟨_, rfl⟩
    · obtain rfl : a = .literal (.num (.int 3 (by decide))) := by simpa [HandsIn] using ha
      exact ⟨_, rfl⟩
  · intro e he
    rcases herror _ e he with ⟨hmisfit, -⟩ |
      ⟨-, before, v, after, _, source, hinputs, -, -, rfl, hbefore⟩
    · exact absurd ⟨rfl, fun _ => .inr rfl⟩ hmisfit
    · cases before with
      | nil =>
        obtain ⟨rfl, -⟩ := List.cons.inj hinputs
        exact ⟨source, rfl⟩
      | cons w ws =>
        obtain ⟨rfl, -⟩ := List.cons.inj hinputs
        obtain ⟨a, b, ha, hb⟩ := hbefore _ List.mem_cons_self
        obtain rfl : a = .literal .null := by simpa [HandsIn, repeating] using ha
        cases hb

end TaskGraph.Callable
