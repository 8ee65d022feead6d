import TaskGraph.Json.Token

namespace TaskGraph.Json.Value

/-- What holds of values without parts, and of arrays and objects when it holds of their parts,
    holds of all values. -/
@[elab_as_elim] theorem induction {P : Value → Prop} (null : P .null) (bool : ∀ b, P (.bool b))
    (num : ∀ n, P (.num n)) (str : ∀ s, P (.str s))
    (arr : ∀ items, (∀ v ∈ items, P v) → P (.arr items))
    (obj : ∀ fields, (∀ f ∈ fields, P f.2) → P (.obj fields)) (v : Value) : P v := by
  refine @Value.rec P (fun items => ∀ v ∈ items, P v) (fun fields => ∀ f ∈ fields, P f.2)
    (fun f => P f.2) null bool num str arr obj ?_ ?_ ?_ ?_ ?_ v
  · exact List.forall_mem_nil _
  · exact fun v vs hv hvs => List.forall_mem_cons.2 ⟨hv, hvs⟩
  · exact List.forall_mem_nil _
  · exact fun f fs hf hfs => List.forall_mem_cons.2 ⟨hf, hfs⟩
  · exact fun _ _ hv => hv

/-- How many arrays and objects are nested in each other. -/
def depth : Value → Nat
  | .arr items => itemsDepth items + 1
  | .obj fields => fieldsDepth fields + 1
  | _ => 0
where
  /-- The depth of the deepest item. -/
  itemsDepth : List Value → Nat
    | [] => 0
    | v :: vs => max v.depth (itemsDepth vs)
  /-- The depth of the deepest value of a field. -/
  fieldsDepth : List (String × Value) → Nat
    | [] => 0
    | (_, v) :: fs => max v.depth (fieldsDepth fs)

theorem depth_le_itemsDepth {items : List Value} {v : Value} (hv : v ∈ items) :
    v.depth ≤ depth.itemsDepth items := by
  induction items with
  | nil => cases hv
  | cons first rest ih =>
    rw [depth.itemsDepth]
    rcases List.mem_cons.1 hv with rfl | hv
    · exact Nat.le_max_left _ _
    · exact Nat.le_trans (ih hv) (Nat.le_max_right _ _)

theorem depth_le_fieldsDepth {fields : List (String × Value)} {f : String × Value}
    (hf : f ∈ fields) : f.2.depth ≤ depth.fieldsDepth fields := by
  induction fields with
  | nil => cases hf
  | cons first rest ih =>
    rw [depth.fieldsDepth]
    rcases List.mem_cons.1 hf with rfl | hf
    · exact Nat.le_max_left _ _
    · exact Nat.le_trans (ih hf) (Nat.le_max_right _ _)

/-- A value whose objects keep their fields in the order of the keys, at every depth. -/
inductive Canonical : Value → Prop
  | null : Canonical .null
  | bool (b : Bool) : Canonical (.bool b)
  | num (n : Number) : Canonical (.num n)
  | str (s : String) : Canonical (.str s)
  | arr {items : List Value} : (∀ v ∈ items, Canonical v) → Canonical (.arr items)
  | obj {fields : List (String × Value)} : SortedKeys fields → (∀ f ∈ fields, Canonical f.2) →
      Canonical (.obj fields)

variable {v w : Value}

theorem Canonical.keys_nodup {fields : List (String × Value)} (h : Canonical (.obj fields)) :
    (fields.map (·.1)).Nodup := by
  cases h with | obj hsorted _ =>
  refine List.pairwise_map.2 (hsorted.imp ?_)
  intro f g hlt heq
  exact String.lt_irrefl g.1 (heq ▸ hlt)

theorem Canonical.of_get? (h : v.Canonical) {key : String} (hw : v.get? key = some w) :
    w.Canonical := by
  cases h with
  | obj _ hfields =>
    obtain ⟨before, after, rfl, -⟩ := List.lookup_eq_some_iff.1 hw
    exact hfields (key, w) (List.mem_append_right _ List.mem_cons_self)
  | _ => cases hw

/-- What is reached inside a canonical value is canonical. -/
theorem Canonical.of_at? (h : v.Canonical) {path : List String} (hw : v.at? path = some w) :
    w.Canonical := by
  induction path generalizing v with
  | nil =>
    obtain rfl := Option.some.inj hw
    exact h
  | cons key path ih =>
    obtain ⟨field, hfield, hrest⟩ := Option.bind_eq_some_iff.1 hw
    exact ih (h.of_get? hfield) hrest

end TaskGraph.Json.Value
