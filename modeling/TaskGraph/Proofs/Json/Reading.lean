import TaskGraph.Json.Reader
import TaskGraph.Proofs.Json.Lexing

namespace TaskGraph.Json

theorem insertField_of_lt {α : Type} {key : String} {value : α} {fields : List (String × α)}
    (h : ∀ f ∈ fields, f.1 < key) : insertField key value fields = fields ++ [(key, value)] := by
  induction fields with
  | nil => rfl
  | cons f fields ih =>
    obtain ⟨hf, hrest⟩ := List.forall_mem_cons.1 h
    have hne : key ≠ f.1 := fun heq => String.lt_irrefl key (heq ▸ hf)
    rw [insertField, if_neg (String.lt_asymm hf), if_neg hne, ih hrest]
    rfl

namespace Reading

variable {limit : Nat} {state next : Reading} {outer stack : List Frame}

theorem foldlM_cons {t : Token} (h : step limit state t = some next) (ts : List Token) :
    (t :: ts).foldlM (step limit) state = ts.foldlM (step limit) next := by
  rw [List.foldlM_cons, h]
  rfl

/-- The tokens of a value bring the reader from where the value is due to where it was read. -/
def Takes (limit : Nat) (v : Value) (stack : List Frame) : Prop :=
  ∀ ts, (v.tokens ++ ts).foldlM (step limit) (.value stack) =
    ts.foldlM (step limit) (complete v stack)

/-- The first token of a value does not close an array. -/
theorem exists_tokens_eq_cons (v : Value) : ∃ t ts, v.tokens = t :: ts ∧ t ≠ .closeArr := by
  cases v with
  | null | bool b | num n | str s => exact ⟨_, _, rfl, by simp⟩
  | arr items =>
    cases items with
    | nil => exact ⟨_, _, rfl, by simp⟩
    | cons v vs => exact ⟨_, _, rfl, by simp⟩
  | obj fields =>
    cases fields with
    | nil => exact ⟨_, _, rfl, by simp⟩
    | cons f fs => exact ⟨_, _, rfl, by simp⟩

/-- The first item of an array is read like any other one. -/
theorem step_first {t : Token} (h : t ≠ .closeArr) :
    step limit (.first outer) t = start limit (.arr [] :: outer) t := by
  cases t with
  | closeArr => exact absurd rfl h
  | _ => rfl

theorem foldlM_first (v : Value) (ts : List Token) :
    (v.tokens ++ ts).foldlM (step limit) (.first outer) =
      (v.tokens ++ ts).foldlM (step limit) (.value (.arr [] :: outer)) := by
  obtain ⟨t, rest, htokens, hne⟩ := exists_tokens_eq_cons v
  rw [htokens, List.cons_append, List.foldlM_cons, List.foldlM_cons, step_first hne]
  rfl

theorem foldlM_moreItems {items : List Value}
    (hitems : ∀ v ∈ items, ∀ before, Takes limit v (.arr before :: outer)) (before : List Value)
    (ts : List Token) :
    (moreItems items ++ ts).foldlM (step limit) (.item before outer) =
      ts.foldlM (step limit) (.item (items.reverse ++ before) outer) := by
  induction items generalizing before with
  | nil => rfl
  | cons v vs ih =>
    obtain ⟨hv, hvs⟩ := List.forall_mem_cons.1 hitems
    rw [moreItems, List.append_assoc, List.cons_append, foldlM_cons rfl, hv before,
      List.reverse_cons, List.append_assoc]
    exact ih hvs (v :: before)

theorem foldlM_moreFields {fields : List (String × Value)}
    (hfields : ∀ f ∈ fields, ∀ before key, Takes limit f.2 (.obj before key :: outer))
    {before : List (String × Value)} (hsorted : SortedKeys (before ++ fields)) (ts : List Token) :
    (moreFields fields ++ ts).foldlM (step limit) (.field before outer) =
      ts.foldlM (step limit) (.field (before ++ fields) outer) := by
  induction fields generalizing before with
  | nil =>
    rw [List.append_nil]
    rfl
  | cons f fs ih =>
    obtain ⟨hf, hfs⟩ := List.forall_mem_cons.1 hfields
    have hlt : ∀ g ∈ before, g.1 < f.1 := by
      obtain ⟨-, -, hkeys⟩ := List.pairwise_append.1 hsorted
      exact fun g hg => hkeys g hg f List.mem_cons_self
    have happend : before ++ f :: fs = (before ++ [f]) ++ fs := by simp
    rw [happend] at hsorted ⊢
    rw [moreFields, List.append_assoc, List.cons_append, List.cons_append, List.cons_append,
      foldlM_cons rfl, foldlM_cons rfl, foldlM_cons rfl, hf before f.1, complete,
      insertField_of_lt hlt]
    exact ih hfs hsorted

/-- A value that fits under the limit is taken, whatever is open around it. -/
theorem takes (v : Value) (hcanonical : v.Canonical) {stack : List Frame}
    (hdepth : v.depth + stack.length ≤ limit) : Takes limit v stack := by
  induction v using Value.induction generalizing stack with
  | null => exact fun ts => foldlM_cons rfl ts
  | bool b => exact fun ts => foldlM_cons rfl ts
  | num n => exact fun ts => foldlM_cons rfl ts
  | str s => exact fun ts => foldlM_cons rfl ts
  | arr items ih =>
    intro ts
    rw [Value.depth] at hdepth
    have hopen : step limit (.value stack) .openArr = some (.first stack) :=
      if_pos (by omega)
    cases hcanonical with | arr hitems =>
    have hall : ∀ v ∈ items, ∀ before, Takes limit v (.arr before :: stack) := by
      intro v hv before
      have hle := Value.depth_le_itemsDepth hv
      exact ih v hv (hitems v hv) (by rw [List.length_cons]; omega)
    cases items with
    | nil =>
      rw [Value.tokens, List.cons_append, foldlM_cons hopen]
      exact foldlM_cons rfl ts
    | cons v vs =>
      obtain ⟨hv, hvs⟩ := List.forall_mem_cons.1 hall
      have hclose : step limit (.item (vs.reverse ++ [v]) stack) .closeArr =
          some (complete (.arr (v :: vs)) stack) := by
        rw [step, List.reverse_append, List.reverse_reverse]
        rfl
      rw [Value.tokens, List.append_assoc, List.append_assoc, List.cons_append,
        foldlM_cons hopen, foldlM_first, hv [], complete, foldlM_moreItems hvs]
      exact foldlM_cons hclose ts
  | obj fields ih =>
    intro ts
    rw [Value.depth] at hdepth
    have hopen : step limit (.value stack) .openObj = some (.key [] true stack) :=
      if_pos (by omega)
    cases hcanonical with | obj hsorted hfields =>
    have hall : ∀ f ∈ fields, ∀ before key, Takes limit f.2 (.obj before key :: stack) := by
      intro f hf before key
      have hle := Value.depth_le_fieldsDepth hf
      exact ih f hf (hfields f hf) (by rw [List.length_cons]; omega)
    cases fields with
    | nil =>
      rw [Value.tokens, List.cons_append, foldlM_cons hopen]
      exact foldlM_cons rfl ts
    | cons f fs =>
      obtain ⟨hf, hfs⟩ := List.forall_mem_cons.1 hall
      rw [Value.tokens, List.append_assoc, List.append_assoc, List.cons_append, List.cons_append,
        List.cons_append, foldlM_cons hopen, foldlM_cons rfl, foldlM_cons rfl, hf [] f.1, complete,
        insertField, foldlM_moreFields hfs hsorted]
      exact foldlM_cons rfl ts

end Reading

namespace Value

/-- A value that is not nested deeper than the limit is read back from its tokens. -/
theorem ofTokens?_tokens {limit : Nat} {v : Value} (hcanonical : v.Canonical)
    (hdepth : v.depth ≤ limit) : ofTokens? limit v.tokens = some v := by
  have htakes : Reading.Takes limit v [] := Reading.takes v hcanonical hdepth
  have hall := htakes []
  rw [List.append_nil] at hall
  rw [ofTokens?, hall]
  rfl

/-- A value is read back from its text when it is not nested too deep and each of its numbers is
    read back. -/
theorem parse?_render {v : Value} (hcanonical : v.Canonical) (hdepth : v.depth ≤ nestingLimit)
    (hnumbers : ∀ n, .num n ∈ v.tokens → n.ReadsBack) : parse? v.render = some v := by
  unfold parse? parseWithin? render chars
  rw [String.toList_ofList, Lexing.tokens?_flatMap (separated_tokens v) hnumbers,
    Option.bind_some, ofTokens?_tokens hcanonical hdepth]

end Value

/-- An open array or object of which all that was read is canonical. -/
def Frame.Canonical : Frame → Prop
  | arr items => ∀ v ∈ items, v.Canonical
  | obj fields _ => SortedKeys fields ∧ ∀ f ∈ fields, f.2.Canonical

namespace Reading

/-- A state in which all that was read is canonical. -/
def Canonical : Reading → Prop
  | value stack => ∀ f ∈ stack, f.Canonical
  | first outer => ∀ f ∈ outer, f.Canonical
  | item items outer => ∀ f ∈ Frame.arr items :: outer, f.Canonical
  | key fields _ outer => ∀ f ∈ Frame.obj fields "" :: outer, f.Canonical
  | colon fields k outer => ∀ f ∈ Frame.obj fields k :: outer, f.Canonical
  | field fields outer => ∀ f ∈ Frame.obj fields "" :: outer, f.Canonical
  | done v => v.Canonical

variable {limit : Nat} {state next : Reading} {stack : List Frame} {t : Token}

theorem canonical_complete {v : Value} (hv : v.Canonical)
    (hstack : ∀ f ∈ stack, f.Canonical) : (complete v stack).Canonical := by
  cases stack with
  | nil => exact hv
  | cons f outer =>
    obtain ⟨hf, houter⟩ := List.forall_mem_cons.1 hstack
    cases f with
    | arr items => exact List.forall_mem_cons.2 ⟨List.forall_mem_cons.2 ⟨hv, hf⟩, houter⟩
    | obj fields k =>
      obtain ⟨hsorted, hfields⟩ := hf
      refine List.forall_mem_cons.2 ⟨⟨sortedKeys_insertField hsorted k v, ?_⟩, houter⟩
      intro g hg
      rcases mem_insertField hg with rfl | hg
      · exact hv
      · exact hfields g hg

theorem canonical_start (hstack : ∀ f ∈ stack, f.Canonical)
    (h : start limit stack t = some next) : next.Canonical := by
  cases t with
  | null | bool b | num n | str s =>
    obtain rfl := Option.some.inj h
    exact canonical_complete (by constructor) hstack
  | openArr =>
    rw [start] at h
    split at h
    · obtain rfl := Option.some.inj h
      exact hstack
    · cases h
  | openObj =>
    rw [start] at h
    split at h
    · obtain rfl := Option.some.inj h
      exact List.forall_mem_cons.2 ⟨⟨.nil, List.forall_mem_nil _⟩, hstack⟩
    · cases h
  | closeArr | closeObj | comma | colon => cases h

theorem canonical_step (hstate : state.Canonical) (h : step limit state t = some next) :
    next.Canonical := by
  cases state with
  | value stack => exact canonical_start hstate h
  | first outer =>
    by_cases hclose : t = .closeArr
    · subst hclose
      obtain rfl := Option.some.inj h
      exact canonical_complete (.arr (List.forall_mem_nil _)) hstate
    · have hempty : (Frame.arr []).Canonical := List.forall_mem_nil _
      rw [step_first hclose] at h
      exact canonical_start (List.forall_mem_cons.2 ⟨hempty, hstate⟩) h
  | item items outer =>
    cases t with
    | comma =>
      obtain rfl := Option.some.inj h
      exact hstate
    | closeArr =>
      obtain rfl := Option.some.inj h
      obtain ⟨hitems, houter⟩ := List.forall_mem_cons.1 hstate
      exact canonical_complete (.arr fun v hv => hitems v (List.mem_reverse.1 hv)) houter
    | _ => cases h
  | key fields closable outer =>
    obtain ⟨⟨hsorted, hfields⟩, houter⟩ := List.forall_mem_cons.1 hstate
    cases t with
    | str k =>
      obtain rfl := Option.some.inj h
      exact List.forall_mem_cons.2 ⟨⟨hsorted, hfields⟩, houter⟩
    | closeObj =>
      rw [step] at h
      split at h
      · obtain rfl := Option.some.inj h
        exact canonical_complete (.obj hsorted hfields) houter
      · cases h
    | _ => cases h
  | colon fields k outer =>
    cases t with
    | colon =>
      obtain rfl := Option.some.inj h
      exact hstate
    | _ => cases h
  | field fields outer =>
    obtain ⟨⟨hsorted, hfields⟩, houter⟩ := List.forall_mem_cons.1 hstate
    cases t with
    | comma =>
      obtain rfl := Option.some.inj h
      exact List.forall_mem_cons.2 ⟨⟨hsorted, hfields⟩, houter⟩
    | closeObj =>
      obtain rfl := Option.some.inj h
      exact canonical_complete (.obj hsorted hfields) houter
    | _ => cases h
  | done v => cases h

theorem canonical_foldlM {tokens : List Token} (hstate : state.Canonical)
    (h : tokens.foldlM (step limit) state = some next) : next.Canonical := by
  induction tokens generalizing state with
  | nil =>
    obtain rfl := Option.some.inj h
    exact hstate
  | cons t ts ih =>
    rw [List.foldlM_cons] at h
    obtain ⟨between, hstep, hrest⟩ := Option.bind_eq_some_iff.1 h
    exact ih (canonical_step hstate hstep) hrest

end Reading

/-- What is read from a text keeps the fields of its objects in the order of the keys. -/
theorem Value.canonical_of_parse? {text : String} {v : Value} (h : parse? text = some v) :
    v.Canonical := by
  obtain ⟨tokens, -, hvalue⟩ := Option.bind_eq_some_iff.1 h
  obtain ⟨last, hfold, hlast⟩ := Option.bind_eq_some_iff.1 hvalue
  have hstart : (Reading.value []).Canonical := List.forall_mem_nil _
  have hcanonical := Reading.canonical_foldlM hstart hfold
  cases last with
  | done w =>
    obtain rfl := Option.some.inj hlast
    exact hcanonical
  | _ => cases hlast

end TaskGraph.Json
