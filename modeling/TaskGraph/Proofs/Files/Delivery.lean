import TaskGraph.Files.Contents
import TaskGraph.Proofs.Json.NumberValue
import TaskGraph.Proofs.Json.Reading
import TaskGraph.Proofs.Trace.Arguments

namespace TaskGraph

open Json (Number Value)

theorem Text.isBlankChar_of_isNumberChar {c : Char} (h : Json.Lexing.isNumberChar c) :
    Text.isBlankChar c = false := by
  simp only [Json.Lexing.isNumberChar, Bool.or_eq_true, decide_eq_true_eq] at h
  rcases h with ((((hdigit | rfl) | rfl) | rfl) | rfl) | rfl
  · simp only [Char.isDigit, Bool.and_eq_true, decide_eq_true_eq] at hdigit
    have hleast : 0x30 ≤ c.toNat := hdigit.1
    have hmost : c.toNat ≤ 0x39 := hdigit.2
    simp [Text.isBlankChar]
    omega
  all_goals rfl

namespace Json

variable {n : Number}

theorem Value.chars_num : (Value.num n).chars = n.chars := List.append_nil _

theorem Value.trim_render_num (h : n.ReadsBack) :
    Text.trim (Value.num n).render = (Value.num n).render := by
  obtain ⟨-, -, -, -, hchars⟩ := Number.exists_of_ofChars? h
  refine Text.trim_eq_self fun c hc => Text.isBlankChar_of_isNumberChar (hchars c ?_)
  rwa [render, String.toList_ofList, chars_num] at hc

theorem Value.parse?_render_num (h : n.ReadsBack) :
    parse? (Value.num n).render = some (.num n) := by
  refine parse?_render (.num n) (Nat.zero_le _) fun m hm => ?_
  obtain rfl := Token.num.inj (List.mem_singleton.1 hm)
  exact h

theorem Number.readsBack_int {i : Int} (h : fits64 i) : (int i h).ReadsBack := ofChars?_intChars h

/-- Only for the binary64 numbers in a value has it to be said that they are read back. -/
theorem Value.readsBack_of_floats {v : Value}
    (hfloats : ∀ x, .num (.float x) ∈ v.tokens → (Number.float x).ReadsBack) :
    ∀ n, .num n ∈ v.tokens → n.ReadsBack := by
  rintro (⟨i, hi⟩ | x) hmem
  · exact Number.readsBack_int hi
  · exact hfloats x hmem

end Json

/-- The text of a primitive as it is delivered: text as it is, any other value as JSON. -/
def Json.Value.primitiveText? : Value → Option String
  | .obj [("string_value", .str s)] => some s
  | .obj [("integer", v)] | .obj [("float_value", v)] | .obj [("boolean", v)] => some v.render
  | _ => none

/-- What the input file of a task holds for a binding; only a constant is delivered. -/
def Binding.delivered? (b : Binding) : Option String :=
  (b.toWire.at? ["scalar", "primitive"]).bind Value.primitiveText?

namespace DeclaredType

/-- What a task sees of a literal: the literal itself, or for an integer that was kept as a binary64
    number the integer of its value. -/
inductive Seen : DeclaredType → Value → Value → Prop
  | same {t : DeclaredType} {v : Value} :
    (t = .typed .integer → ∀ x, v ≠ .num (.float x)) → Seen t v v
  | integer {x : Binary64} {i : Int} {h : Json.fits64 i} :
    (Number.int i h).toRat = (Number.float x).toRat →
      Seen (.typed .integer) (.num (.float x)) (.num (.int i h))

/-- A file is read at a literal type other than text as the JSON that stands in it between blanks,
    if that is of the type. -/
theorem decode_typed_eq_ok_iff {t : LiteralType} {raw : String} {v : Value} (htext : t ≠ .text) :
    (typed t).decode raw = .ok v ↔ Value.parse? (Text.trim raw) = some v ∧ t.accepts v := by
  have hdecode : (typed t).decode raw = (match Value.parse? (Text.trim raw) with
      | some value => do
        t.validate value
        return value
      | none => .error .serialization) := by
    cases t with
    | text => exact absurd rfl htext
    | float | boolean | integer =>
      unfold decode
      dsimp only
      cases Value.parse? (Text.trim raw) with
      | some value => rfl
      | none => rfl
  rw [hdecode]
  cases Value.parse? (Text.trim raw) with
  | none => exact ⟨nofun, fun h => nomatch h.1⟩
  | some value =>
    dsimp only
    rw [bind_eq_ok_iff]
    constructor
    · rintro ⟨_, hvalid, h⟩
      obtain rfl := Except.ok.inj h
      exact ⟨rfl, (validate_eq_ok_iff (t := typed t)).1 hvalid⟩
    · rintro ⟨h, haccepts⟩
      obtain rfl := Option.some.inj h
      exact ⟨(), (validate_eq_ok_iff (t := typed t)).2 haccepts, rfl⟩

/-- The text of a number is read as the number where the type takes it. -/
theorem decode_render_num {t : LiteralType} {n : Number} (htext : t ≠ .text) (h : n.ReadsBack)
    (haccepts : t.accepts (.num n)) : (typed t).decode (Value.num n).render = .ok (.num n) := by
  refine (decode_typed_eq_ok_iff htext).2 ⟨?_, haccepts⟩
  rw [Value.trim_render_num h]
  exact Value.parse?_render_num h

theorem decode_render_bool (b : Bool) :
    (typed .boolean).decode (Value.bool b).render = .ok (.bool b) := by
  cases b with
  | true => rfl
  | false => rfl

end DeclaredType

namespace LiteralType

theorem exists_of_accepts_integer {v : Value} (h : integer.accepts v) :
    ∃ n i, v = .num n ∧ n.toInt64? = some i := by
  cases v with
  | num n =>
    obtain ⟨i, hi⟩ := Option.isSome_iff_exists.1 h
    exact ⟨n, i, rfl, hi⟩
  | _ => cases h

/-- An integer is written as the integer that it is taken for. -/
theorem primitive_integer {n : Number} {i : Int} (h : n.toInt64? = some i) (hi : Json.fits64 i) :
    integer.primitive (.num n) = .obj [("integer", .num (.int i hi))] := by
  rw [primitive, h, Option.bind_some, Number.ofInt?_of_fits hi]
  rfl

/-- An integer is delivered as the integer that it is taken for, and is read as that. -/
theorem exists_delivered_integer {n : Number} {i : Int} (h : n.toInt64? = some i) :
    ∃ text hi, (Binding.constant (.num n) (.typed integer)).delivered? = some text ∧
      (DeclaredType.typed integer).decode text = .ok (.num (.int i hi)) := by
  have hsigned := Number.isInt64_of_toInt64? h
  have hi := Number.fits64_of_isInt64 hsigned
  have hdelivered : (Binding.constant (.num n) (.typed integer)).delivered? =
      (integer.primitive (.num n)).primitiveText? := rfl
  have haccepts : integer.accepts (.num (.int i hi)) :=
    Option.isSome_iff_exists.2 ⟨i, Number.toInt64?_int hsigned⟩
  refine ⟨(Value.num (.int i hi)).render, hi, ?_, ?_⟩
  · rw [hdelivered, primitive_integer h hi]
    rfl
  · exact DeclaredType.decode_render_num nofun (Number.readsBack_int hi) haccepts

end LiteralType

/-- A literal that is bound to a variable is what a task sees in its place. Its objects keep their
    fields in the order of the keys, as all that is read does (`Json.Value.canonical_of_parse?`),
    and its binary64 numbers are read back from their texts. -/
theorem Argument.decode_delivered {t : DeclaredType} {v : Value} {b : Binding}
    (hcanonical : v.Canonical) (hdepth : v.depth ≤ Json.nestingLimit)
    (hfloats : ∀ x, .num (.float x) ∈ v.tokens → (Number.float x).ReadsBack)
    (hbind : (literal v).bind t = .ok b) :
    ∃ text v', b.delivered? = some text ∧ t.decode text = .ok v' ∧ t.Seen v v' := by
  obtain ⟨-, haccepts, rfl⟩ := bind_literal_eq_ok_iff.1 hbind
  have hnumbers := Value.readsBack_of_floats hfloats
  cases t with
  | untyped =>
    refine ⟨v.render, v, rfl, ?_, .same nofun⟩
    rw [DeclaredType.decode, Value.parse?_render hcanonical hdepth hnumbers]
    rfl
  | typed t =>
    cases t with
    | text =>
      cases v with
      | str s => exact ⟨s, .str s, rfl, rfl, .same nofun⟩
      | _ => cases haccepts
    | boolean =>
      cases v with
      | bool b => exact ⟨_, .bool b, rfl, DeclaredType.decode_render_bool b, .same nofun⟩
      | _ => cases haccepts
    | float =>
      cases v with
      | num n =>
        have hn := hnumbers n List.mem_cons_self
        exact ⟨_, .num n, rfl, DeclaredType.decode_render_num nofun hn haccepts, .same nofun⟩
      | _ => cases haccepts
    | integer =>
      obtain ⟨n, i, rfl, hi⟩ := LiteralType.exists_of_accepts_integer haccepts
      obtain ⟨text, _, htext, hdecode⟩ := LiteralType.exists_delivered_integer hi
      refine ⟨text, _, htext, hdecode, ?_⟩
      rcases Number.toInt64?_cases hi with ⟨_, rfl⟩ | ⟨x, _, rfl, hvalue⟩
      · exact .same fun _ x hx => by cases hx
      · exact .integer hvalue

/-- Two, kept as a binary64 number. -/
def Binary64.two : Binary64 := ⟨false, ⟨1024, by decide⟩, ⟨0, by decide⟩⟩

/-- A report with texts that look like JSON. -/
def Json.Value.report : Value :=
  .obj [("id", .str "5"), ("rows", .arr [.str "null", .num (.float .two), .bool true])]

theorem Argument.decode_delivered_report :
    (∃ text, (Binding.constant .report .untyped).delivered? = some text ∧
      DeclaredType.untyped.decode text = .ok .report) ∧
    ∃ text i hi, (Binding.constant (.num (.float .two)) (.typed .integer)).delivered? = some text ∧
      (DeclaredType.typed .integer).decode text = .ok (.num (.int i hi)) ∧
      (Number.int i hi).toRat = (Number.float .two).toRat := by
  have hfloat : (Number.float .two).ReadsBack := by
    unfold Number.ReadsBack
    decide +kernel
  have hcanonical : Value.report.Canonical := by
    refine .obj (by unfold Json.SortedKeys; decide) ?_
    rintro f (⟨⟩ | ⟨_, ⟨⟩ | ⟨_, ⟨⟩⟩⟩)
    · exact .str _
    · refine .arr ?_
      rintro v (⟨⟩ | ⟨_, ⟨⟩ | ⟨_, ⟨⟩ | ⟨_, ⟨⟩⟩⟩⟩)
      · exact .str _
      · exact .num _
      · exact .bool _
  constructor
  · have hfloats : ∀ x, .num (.float x) ∈ Value.report.tokens → (Number.float x).ReadsBack := by
      intro x hx
      obtain rfl : x = .two := by
        simpa [Value.report, Value.tokens, Json.moreItems, Json.moreFields] using hx
      exact hfloat
    obtain ⟨text, v, htext, hdecode, hseen⟩ :=
      decode_delivered (t := .untyped) hcanonical (by decide) hfloats rfl
    cases hseen
    exact ⟨text, htext, hdecode⟩
  · have hfloats : ∀ x, .num (.float x) ∈ (Value.num (.float .two)).tokens →
        (Number.float x).ReadsBack := by
      intro x hx
      obtain rfl : x = .two := by simpa [Value.tokens] using hx
      exact hfloat
    have hbind := bind_literal_eq_ok_iff.2
      ⟨rfl, (by decide +kernel : (DeclaredType.typed .integer).accepts (.num (.float .two))), rfl⟩
    obtain ⟨text, v, htext, hdecode, hseen⟩ :=
      decode_delivered (.num _) (by decide) hfloats hbind
    cases hseen with
    | same h => exact absurd rfl (h rfl _)
    | integer hvalue => exact ⟨text, _, _, htext, hdecode, hvalue⟩

end TaskGraph
