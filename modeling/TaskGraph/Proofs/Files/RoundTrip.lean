import TaskGraph.Proofs.Files.Delivery

namespace TaskGraph.DeclaredType

open Json (Number Value)

/-- What a file is read as: the text that it holds at the type of texts, and at another type the
    JSON that stands in it between blanks, if that is of the type. Without a type it is JSON where
    it can be, and else a text. -/
inductive Reads : DeclaredType → String → Value → Prop where
  | text (raw : String) : Reads (.typed .text) raw (.str raw)
  | typed {type : LiteralType} {raw : String} {v : Value} : type ≠ .text →
      Value.parse? (Text.trim raw) = some v → type.accepts v → Reads (.typed type) raw v
  | json {raw : String} {v : Value} : Value.parse? raw = some v → Reads .untyped raw v
  | plain {raw : String} : Value.parse? raw = none → Reads .untyped raw (.str raw)

variable {t : DeclaredType} {v : Value} {text raw : String}

theorem decode_eq_ok_iff : t.decode raw = .ok v ↔ t.Reads raw v := by
  constructor
  · intro h
    cases t with
    | untyped =>
      obtain rfl := Except.ok.inj h
      cases hparse : Value.parse? raw with
      | some value => exact .json hparse
      | none => exact .plain hparse
    | typed type =>
      by_cases htext : type = .text
      · subst htext
        obtain rfl := Except.ok.inj h
        exact .text raw
      · obtain ⟨hparse, haccepts⟩ := (decode_typed_eq_ok_iff htext).1 h
        exact .typed htext hparse haccepts
  · intro h
    cases h with
    | text => rfl
    | typed htext hparse haccepts => exact (decode_typed_eq_ok_iff htext).2 ⟨hparse, haccepts⟩
    | json hparse => rw [decode, hparse, Option.getD_some]
    | plain hparse => rw [decode, hparse, Option.getD_none]

theorem Reads.accepts (h : t.Reads raw v) : t.accepts v := by
  cases h with
  | text | json | plain => rfl
  | typed _ _ haccepts => exact haccepts

/-- What a file holds for a value: a text at the type of texts, and JSON otherwise. -/
def contents (t : DeclaredType) (v : Value) : String :=
  match t, v with
  | .typed .text, .str text => text
  | _, v => v.render

theorem contents_of_ne_text (h : t ≠ .typed .text) : t.contents v = v.render := by
  unfold contents
  split
  · exact absurd rfl h
  · rfl

theorem encode_eq (t : DeclaredType) (v : Value) :
    t.encode v = (t.validate v).map fun _ => t.contents v := by
  unfold encode
  cases t.validate v with
  | error e => rfl
  | ok =>
    split
    · rfl
    · next hother =>
      have hcontents : t.contents v = v.render := by
        unfold contents
        split
        · next text => exact absurd rfl (hother text rfl)
        · rfl
      rw [hcontents]
      rfl

/-- Every good value is written. -/
theorem encode_eq_ok_iff : t.encode v = .ok text ↔ t.validate v = .ok () ∧ text = t.contents v := by
  rw [encode_eq]
  cases t.validate v with
  | error e => simp [Except.map]
  | ok => simp [Except.map, eq_comm]

theorem exists_encode_iff : (∃ text, t.encode v = .ok text) ↔ t.validate v = .ok () := by
  simp [encode_eq_ok_iff]

/-- Only texts are good for the type of texts. -/
theorem exists_str_of_accepts (h : accepts (.typed .text) v) : ∃ s, v = .str s := by
  cases v with
  | str s => exact ⟨s, rfl⟩
  | _ => cases h

/-- The JSON of a good value is read as the value at any type but text. -/
theorem decode_render (htext : t ≠ .typed .text) (haccepts : t.accepts v) (hcanonical : v.Canonical)
    (hdepth : v.depth ≤ Json.nestingLimit) (hnumbers : ∀ n, .num n ∈ v.tokens → n.ReadsBack) :
    t.decode v.render = .ok v := by
  cases t with
  | untyped =>
    rw [decode, Value.parse?_render hcanonical hdepth hnumbers]
    rfl
  | typed t =>
    cases v with
    | num n =>
      have htype : t ≠ .text := fun h => htext (congrArg _ h)
      exact decode_render_num htype (hnumbers n List.mem_cons_self) haccepts
    | bool b =>
      cases t with
      | boolean => exact decode_render_bool b
      | _ => cases haccepts
    | str s =>
      cases t with
      | text => exact absurd rfl htext
      | _ => cases haccepts
    | _ => cases t <;> cases haccepts

/-- Files are read back as the values that were written. Exactly the values that are good for a type
    can be written at it, and reading what was written gives the value itself, as long as it is not
    nested too deep and its binary64 numbers are read back from their texts. Whatever is read at a
    type is good for it, and where texts are good for it everything can be read. -/
theorem decode_encode (t : DeclaredType) :
    (∀ v, (∃ text, t.encode v = .ok text) ↔ t.validate v = .ok ()) ∧
    (∀ v text, v.Canonical → v.depth ≤ Json.nestingLimit →
      (∀ x, .num (.float x) ∈ v.tokens → (Number.float x).ReadsBack) →
      t.encode v = .ok text → t.decode text = .ok v) ∧
    (∀ raw v, t.decode raw = .ok v → t.validate v = .ok ()) ∧
    (t = .untyped ∨ t = .typed .text → ∀ raw, ∃ v, t.decode raw = .ok v) := by
  refine ⟨fun v => exists_encode_iff, ?_, ?_, ?_⟩
  · intro v text hcanonical hdepth hfloats h
    obtain ⟨hvalid, rfl⟩ := encode_eq_ok_iff.1 h
    have haccepts := validate_eq_ok_iff.1 hvalid
    by_cases htext : t = .typed .text
    · subst htext
      obtain ⟨s, rfl⟩ := exists_str_of_accepts haccepts
      rfl
    · rw [contents_of_ne_text htext]
      exact decode_render htext haccepts hcanonical hdepth (Value.readsBack_of_floats hfloats)
  · intro raw v h
    exact validate_eq_ok_iff.2 (decode_eq_ok_iff.1 h).accepts
  · rintro (rfl | rfl) raw
    · exact ⟨_, rfl⟩
    · exact ⟨_, rfl⟩

/-- A text that looks like a number, and a number that is kept as a binary64 number at the type of
    integers. -/
theorem decode_encode_two :
    untyped.decode "\"2\"" = .ok (.str "2") ∧
      ∃ text, (typed .integer).encode (.num (.float .two)) = .ok text ∧
        (typed .integer).decode text = .ok (.num (.float .two)) := by
  constructor
  · refine (decode_encode .untyped).2.1 (.str "2") _ (.str "2") (Nat.zero_le _) ?_ rfl
    intro x hx
    cases List.mem_singleton.1 hx
  · obtain ⟨hwritten, hread, -, -⟩ := decode_encode (typed .integer)
    have hvalid : (typed .integer).validate (.num (.float .two)) = .ok () :=
      validate_eq_ok_iff.2 (by decide +kernel)
    obtain ⟨text, htext⟩ := (hwritten _).2 hvalid
    refine ⟨text, htext, hread _ _ (.num _) (Nat.zero_le _) ?_ htext⟩
    intro x hx
    obtain rfl : x = .two := Number.float.inj (Json.Token.num.inj (List.mem_singleton.1 hx))
    unfold Number.ReadsBack
    decide +kernel

end TaskGraph.DeclaredType
