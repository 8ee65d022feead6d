import Mathlib.Data.List.Forall2

namespace TaskGraph

variable {α β γ ε : Type} {R : α → β → Prop} {S : β → γ → Prop} {T : α → γ → Prop}

theorem forall₂_trans {as : List α} {bs : List β} {cs : List γ} (hfirst : List.Forall₂ R as bs)
    (hsecond : List.Forall₂ S bs cs)
    (h : ∀ a ∈ as, ∀ c ∈ cs, ∀ b, R a b → S b c → T a c) : List.Forall₂ T as cs := by
  induction hfirst generalizing cs with
  | nil =>
    cases hsecond
    exact .nil
  | cons hR _ ih =>
    cases hsecond with
    | cons hS hsecond =>
      refine .cons (h _ List.mem_cons_self _ List.mem_cons_self _ hR hS) (ih hsecond ?_)
      intro a ha c hc
      exact h a (List.mem_cons_of_mem _ ha) c (List.mem_cons_of_mem _ hc)

theorem exists_mapM_of_forall₂ {f : β → Except ε γ} {as : List α} {bs : List β}
    (h : List.Forall₂ R as bs) (hf : ∀ a ∈ as, ∀ b, R a b → ∃ c, f b = .ok c ∧ T a c) :
    ∃ cs, bs.mapM f = .ok cs ∧ List.Forall₂ T as cs := by
  induction h with
  | nil => exact ⟨[], rfl, .nil⟩
  | cons hR _ ih =>
    obtain ⟨c, hc, hT⟩ := hf _ List.mem_cons_self _ hR
    obtain ⟨cs, hcs, hrest⟩ := ih fun a ha => hf a (List.mem_cons_of_mem _ ha)
    refine ⟨c :: cs, ?_, .cons hT hrest⟩
    rw [List.mapM_cons, hc, hcs]
    rfl

theorem exists_of_forall₂_left {as : List α} {bs : List β} (h : List.Forall₂ R as bs) {a : α}
    (ha : a ∈ as) : ∃ b ∈ bs, R a b := by
  induction h with
  | nil => cases ha
  | cons hR _ ih =>
    rcases List.mem_cons.1 ha with rfl | ha
    · exact ⟨_, List.mem_cons_self, hR⟩
    · obtain ⟨b, hb, hR⟩ := ih ha
      exact ⟨b, List.mem_cons_of_mem _ hb, hR⟩

theorem exists_of_forall₂_right {as : List α} {bs : List β} (h : List.Forall₂ R as bs) {b : β}
    (hb : b ∈ bs) : ∃ a ∈ as, R a b :=
  exists_of_forall₂_left h.flip hb

/-- Members that have counterparts make up lists that correspond. -/
theorem exists_forall₂ {as : List α} (h : ∀ a ∈ as, ∃ b, R a b) : ∃ bs, List.Forall₂ R as bs := by
  induction as with
  | nil => exact ⟨[], .nil⟩
  | cons a as ih =>
    obtain ⟨⟨b, hb⟩, has⟩ := List.forall_mem_cons.1 h
    obtain ⟨bs, hbs⟩ := ih has
    exact ⟨b :: bs, .cons hb hbs⟩

/-- What members that correspond have in common holds of all of one list when it holds of all of
    the other. -/
theorem forall_iff_of_forall₂ {as : List α} {bs : List β} (h : List.Forall₂ R as bs)
    {P : α → Prop} {Q : β → Prop} (hsame : ∀ a b, R a b → (P a ↔ Q b)) :
    (∀ a ∈ as, P a) ↔ ∀ b ∈ bs, Q b := by
  constructor
  · intro hP b hb
    obtain ⟨a, ha, hR⟩ := exists_of_forall₂_right h hb
    exact (hsame a b hR).1 (hP a ha)
  · intro hQ a ha
    obtain ⟨b, hb, hR⟩ := exists_of_forall₂_left h ha
    exact (hsame a b hR).2 (hQ b hb)

/-- A list is matched by what is found for each of its members, when nothing is missing. -/
theorem forall₂_filterMap {f : α → Option β} {as : List α} (h : ∀ a ∈ as, (f a).isSome) :
    List.Forall₂ (fun a b => f a = some b) as (as.filterMap f) := by
  induction as with
  | nil => exact .nil
  | cons a as ih =>
    obtain ⟨ha, has⟩ := List.forall_mem_cons.1 h
    obtain ⟨b, hb⟩ := Option.isSome_iff_exists.1 ha
    rw [List.filterMap_cons_some hb]
    exact .cons hb (ih has)

end TaskGraph
