import Mathlib.Data.List.Chain
import TaskGraph.Proofs.Json.NumberText
import TaskGraph.Proofs.Json.Structure

namespace TaskGraph.Json

/-- Whether only the next character ends a token. -/
def Token.isBare : Token → Bool
  | null => true
  | bool _ => true
  | num _ => true
  | _ => false

/-- Tokens of which no two that stand side by side run into each other. -/
def Separated (tokens : List Token) : Prop := tokens.IsChain fun t u => ¬(t.isBare ∧ u.isBare)

/-- A number that is read back from its text. -/
def Number.ReadsBack (n : Number) : Prop := Number.ofChars? n.chars = some n

namespace Lexing

variable {state next : Lexing} {c : Char} {cs : List Char} {out : List Token}

theorem tokens?_cons (h : state.step c = some (next, out)) :
    tokens? state (c :: cs) = (tokens? next cs).map (out ++ ·) := by
  rw [tokens?, h]
  change ((tokens? next cs).bind fun tokens => some (out ++ tokens)) = _
  cases tokens? next cs with
  | none => rfl
  | some tokens => rfl

theorem tokens?_cons_nil (h : state.step c = some (next, [])) :
    tokens? state (c :: cs) = tokens? next cs := by
  rw [tokens?_cons h]
  exact Option.map_id'

theorem hexValue?_hexDigit {n : Nat} (h : n < 16) : hexValue? (hexDigit n) = some n := by
  have hall : ∀ k : Fin 16, hexValue? (hexDigit k.val) = some k.val := by decide
  exact hall ⟨n, h⟩

theorem tokens?_letterEscape {c letter : Char} (h : unescape? letter = some c) (hne : letter ≠ 'u')
    (read rest : List Char) :
    tokens? (.text read) (['\\', letter] ++ rest) = tokens? (.text (c :: read)) rest := by
  have hslash : (text read).step '\\' = some (.escape read, []) := rfl
  have hletter : (escape read).step letter = some (.text (c :: read), []) := by
    rw [step, if_neg hne, h]
    rfl
  exact (tokens?_cons_nil hslash).trans (tokens?_cons_nil hletter)

theorem tokens?_controlEscape {c : Char} (h : c.toNat < 0x20) (read rest : List Char) :
    tokens? (.text read)
        (['\\', 'u', '0', '0', hexDigit (c.toNat / 16), hexDigit (c.toNat % 16)] ++ rest) =
      tokens? (.text (c :: read)) rest := by
  have hslash : (text read).step '\\' = some (.escape read, []) := rfl
  have hletter : (escape read).step 'u' = some (.unicode read none 0 0, []) := rfl
  have hfirst : (unicode read none 0 0).step '0' = some (.unicode read none 1 0, []) := rfl
  have hsecond : (unicode read none 1 0).step '0' = some (.unicode read none 2 0, []) := rfl
  have hthird : (unicode read none 2 0).step (hexDigit (c.toNat / 16)) =
      some (.unicode read none 3 (c.toNat / 16), []) := by
    rw [step, hexValue?_hexDigit (by omega)]
    simp
  have hclose : closeUnicode read none c.toNat = some (.text (c :: read)) := by
    rw [closeUnicode, if_neg (by omega), if_neg (by omega), Char.ofNat_toNat]
  have hfourth : (unicode read none 3 (c.toNat / 16)).step (hexDigit (c.toNat % 16)) =
      some (.text (c :: read), []) := by
    have hcode : c.toNat / 16 * 16 + c.toNat % 16 = c.toNat := by omega
    rw [step, hexValue?_hexDigit (by omega)]
    simp [hcode, hclose]
  simp only [List.cons_append, List.nil_append, tokens?_cons_nil hslash, tokens?_cons_nil hletter,
    tokens?_cons_nil hfirst, tokens?_cons_nil hsecond, tokens?_cons_nil hthird,
    tokens?_cons_nil hfourth]

/-- A character is read back from the way it stands in a quoted string. -/
theorem tokens?_escapeChar (c : Char) (read rest : List Char) :
    tokens? (.text read) (escapeChar c ++ rest) = tokens? (.text (c :: read)) rest := by
  unfold escapeChar
  split
  · next h => exact tokens?_letterEscape (by rw [h]; rfl) (by decide) read rest
  split
  · next h => exact tokens?_letterEscape (by rw [h]; rfl) (by decide) read rest
  split
  · next h => exact tokens?_letterEscape (by rw [h]; rfl) (by decide) read rest
  split
  · next h => exact tokens?_letterEscape (by rw [h]; rfl) (by decide) read rest
  split
  · next h => exact tokens?_letterEscape (by rw [h]; rfl) (by decide) read rest
  split
  · next h => exact tokens?_letterEscape (by rw [h]; rfl) (by decide) read rest
  split
  · next h => exact tokens?_letterEscape (by rw [h]; rfl) (by decide) read rest
  split
  · next hcontrol => exact tokens?_controlEscape hcontrol read rest
  · next hquote hslash _ _ _ _ _ hcontrol =>
    exact tokens?_cons_nil (by rw [step, if_neg hquote, if_neg hslash, if_neg hcontrol])

theorem tokens?_escaped (chars read rest : List Char) :
    tokens? (.text read) (chars.flatMap escapeChar ++ rest) =
      tokens? (.text (chars.reverse ++ read)) rest := by
  induction chars generalizing read with
  | nil => rfl
  | cons c chars ih =>
    rw [List.flatMap_cons, List.append_assoc, tokens?_escapeChar, ih, List.reverse_cons,
      List.append_assoc]
    rfl

/-- A string is read back from its quoted form, whatever follows it. -/
theorem tokens?_quote (s : String) (cs : List Char) :
    tokens? .between (quote s ++ cs) = (tokens? .between cs).map (.str s :: ·) := by
  have hopen : between.step '"' = some (.text [], []) := rfl
  have hclose : (text s.toList.reverse).step '"' = some (.between, [.str s]) := by
    rw [step, if_pos rfl, List.reverse_reverse, String.ofList_toList]
  unfold quote
  rw [List.cons_append, List.cons_append, tokens?_cons_nil hopen, List.append_assoc,
    tokens?_escaped, List.append_nil, List.singleton_append, tokens?_cons hclose]
  rfl

/-- A text whose first character belongs to no word or number that ends before it. -/
def Breaks (cs : List Char) : Prop := ∀ c ∈ cs.head?, ¬c.isLower ∧ ¬isNumberChar c

/-- A state in which a token has been read that only the next character ends. -/
structure Ending (state : Lexing) (token : Token) : Prop where
  finish_eq : state.finish = some [token]
  step_eq : ∀ c, ¬c.isLower → ¬isNumberChar c →
    state.step c = (start c).map fun (next, tokens) => (next, token :: tokens)

theorem Ending.tokens?_eq {token : Token} (h : Ending state token) (hcs : Breaks cs) :
    tokens? state cs = (tokens? .between cs).map (token :: ·) := by
  cases cs with
  | nil => exact h.finish_eq
  | cons c cs =>
    obtain ⟨hlower, hnumber⟩ := hcs c rfl
    have hstep := h.step_eq c hlower hnumber
    cases hstart : start c with
    | none =>
      rw [hstart] at hstep
      rw [tokens?, tokens?, hstep, show between.step c = none from hstart]
      rfl
    | some reached =>
      obtain ⟨next, out⟩ := reached
      rw [hstart] at hstep
      rw [tokens?_cons hstep, tokens?_cons (show between.step c = _ from hstart), Option.map_map]
      rfl

theorem ending_word {letters : List Char} {token : Token}
    (h : wordToken? letters.reverse = some token) : Ending (.word letters) token where
  finish_eq := by rw [finish, h]; rfl
  step_eq c hlower _ := by
    rw [step, if_neg hlower, h]
    cases start c <;> rfl

theorem ending_number {lexeme : List Char} {n : Number}
    (h : Number.ofChars? lexeme.reverse = some n) : Ending (.number lexeme) (.num n) where
  finish_eq := by rw [finish, h]; rfl
  step_eq c _ hnumber := by
    rw [step, if_neg hnumber, h]
    cases start c <;> rfl

theorem tokens?_letters {letters read : List Char} (h : ∀ c ∈ letters, c.isLower)
    (cs : List Char) :
    tokens? (.word read) (letters ++ cs) = tokens? (.word (letters.reverse ++ read)) cs := by
  induction letters generalizing read with
  | nil => rfl
  | cons c letters ih =>
    obtain ⟨hc, hrest⟩ := List.forall_mem_cons.1 h
    have hstep : (word read).step c = some (.word (c :: read), []) := by rw [step, if_pos hc]
    rw [List.cons_append, tokens?_cons_nil hstep, ih hrest, List.reverse_cons, List.append_assoc]
    rfl

theorem tokens?_lexeme {lexeme read : List Char} (h : ∀ c ∈ lexeme, isNumberChar c)
    (cs : List Char) :
    tokens? (.number read) (lexeme ++ cs) = tokens? (.number (lexeme.reverse ++ read)) cs := by
  induction lexeme generalizing read with
  | nil => rfl
  | cons c lexeme ih =>
    obtain ⟨hc, hrest⟩ := List.forall_mem_cons.1 h
    have hstep : (number read).step c = some (.number (c :: read), []) := by rw [step, if_pos hc]
    rw [List.cons_append, tokens?_cons_nil hstep, ih hrest, List.reverse_cons, List.append_assoc]
    rfl

/-- A word is read back where it ends. -/
theorem tokens?_word {c : Char} {letters : List Char} {token : Token}
    (hstart : start c = some (.word [c], [])) (hletters : letters.all Char.isLower)
    (htoken : wordToken? (c :: letters) = some token) (hcs : Breaks cs) :
    tokens? .between (c :: letters ++ cs) = (tokens? .between cs).map (token :: ·) := by
  rw [List.cons_append, tokens?_cons_nil (show between.step c = _ from hstart),
    tokens?_letters (List.all_eq_true.1 hletters)]
  refine (ending_word ?_).tokens?_eq hcs
  rw [List.reverse_append, List.reverse_reverse]
  exact htoken

theorem start_of_isDigit {c : Char} (h : c.isDigit ∨ c = '-') :
    start c = some (.number [c], []) := by
  rcases h with h | rfl
  · have hne : ∀ d : Char, d.isDigit = false → c ≠ d := by
      rintro d hd rfl
      rw [h] at hd
      cases hd
    simp [start, isSpace, h, hne ' ' rfl, hne '\n' rfl, hne '\r' rfl, hne '\t' rfl, hne '[' rfl,
      hne ']' rfl, hne '\x7b' rfl, hne '\x7d' rfl, hne ',' rfl, hne ':' rfl, hne '"' rfl]
  · rfl

/-- A number that is read back from its text is read back where its text ends. -/
theorem tokens?_number {n : Number} (h : n.ReadsBack) (hcs : Breaks cs) :
    tokens? .between (n.chars ++ cs) = (tokens? .between cs).map (.num n :: ·) := by
  obtain ⟨c, rest, hchars, hfirst, hall⟩ := Number.exists_of_ofChars? h
  unfold Number.ReadsBack at h
  rw [hchars] at h hall ⊢
  rw [List.cons_append, tokens?_cons_nil (show between.step c = _ from start_of_isDigit hfirst),
    tokens?_lexeme (List.forall_mem_cons.1 hall).2]
  refine (ending_number ?_).tokens?_eq hcs
  rw [List.reverse_append, List.reverse_reverse]
  exact h

theorem tokens?_mark {c : Char} {token : Token} (h : start c = some (.between, [token]))
    (cs : List Char) : tokens? .between (c :: cs) = (tokens? .between cs).map (token :: ·) :=
  tokens?_cons (show between.step c = _ from h)

/-- A token is read back from its characters where they end. -/
theorem tokens?_token {token : Token} (hnumber : ∀ n, token = .num n → n.ReadsBack)
    (hcs : token.isBare → Breaks cs) :
    tokens? .between (token.chars ++ cs) = (tokens? .between cs).map (token :: ·) := by
  cases token with
  | openArr => exact tokens?_mark rfl cs
  | closeArr => exact tokens?_mark rfl cs
  | openObj => exact tokens?_mark rfl cs
  | closeObj => exact tokens?_mark rfl cs
  | comma => exact tokens?_mark rfl cs
  | colon => exact tokens?_mark rfl cs
  | null => exact tokens?_word rfl rfl rfl (hcs rfl)
  | bool b =>
    cases b with
    | true => exact tokens?_word rfl rfl rfl (hcs rfl)
    | false => exact tokens?_word rfl rfl rfl (hcs rfl)
  | num n => exact tokens?_number (hnumber n rfl) (hcs rfl)
  | str s => exact tokens?_quote s cs

theorem breaks_of_not_isBare {token : Token} (h : ¬token.isBare) (cs : List Char) :
    Breaks (token.chars ++ cs) := by
  rintro c hc
  cases token with
  | null | bool b | num n => exact absurd rfl h
  | str s =>
    obtain rfl := Option.some.inj hc
    decide
  | openArr | closeArr | openObj | closeObj | comma | colon =>
    obtain rfl := Option.some.inj hc
    decide

/-- The text of separated tokens is cut where it was put together. -/
theorem tokens?_flatMap {tokens : List Token} (hseparated : Separated tokens)
    (hnumbers : ∀ n, .num n ∈ tokens → n.ReadsBack) :
    tokens? .between (tokens.flatMap Token.chars) = some tokens := by
  induction tokens with
  | nil => rfl
  | cons token tokens ih =>
    have hrest := ih hseparated.tail fun n hn => hnumbers n (List.mem_cons_of_mem _ hn)
    have hbreaks : token.isBare → Breaks (tokens.flatMap Token.chars) := by
      intro hbare
      cases tokens with
      | nil => rintro c ⟨⟩
      | cons other tokens =>
        have hother := (List.isChain_cons_cons.1 hseparated).1
        exact breaks_of_not_isBare (fun h => hother ⟨hbare, h⟩) _
    rw [List.flatMap_cons, tokens?_token ?_ hbreaks, hrest]
    · rfl
    · rintro n rfl
      exact hnumbers n List.mem_cons_self

end Lexing

/-- Separated tokens of which the first does not run into any token before it. -/
structure Following (tokens : List Token) : Prop where
  separated : Separated tokens
  head : ∀ t ∈ tokens.head?, ¬t.isBare

theorem following_nil : Following [] := ⟨.nil, fun _ h => by cases h⟩

theorem separated_cons (token : Token) {tokens : List Token} (h : Following tokens) :
    Separated (token :: tokens) :=
  List.isChain_cons.2 ⟨fun t ht hbare => h.head t ht hbare.2, h.separated⟩

theorem following_cons {token : Token} {tokens : List Token} (htoken : ¬token.isBare)
    (h : Separated tokens) : Following (token :: tokens) where
  separated := List.isChain_cons.2 ⟨fun _ _ hbare => htoken hbare.1, h⟩
  head := by
    rintro t ht
    obtain rfl := Option.some.inj ht
    exact htoken

theorem following_moreItems {items : List Value} {after : List Token}
    (hitems : ∀ v ∈ items, ∀ {rest}, Following rest → Separated (v.tokens ++ rest))
    (h : Following after) : Following (moreItems items ++ after) := by
  induction items with
  | nil => exact h
  | cons v vs ih =>
    obtain ⟨hv, hvs⟩ := List.forall_mem_cons.1 hitems
    rw [moreItems, List.append_assoc]
    exact following_cons Bool.false_ne_true (hv (ih hvs))

theorem following_moreFields {fields : List (String × Value)} {after : List Token}
    (hfields : ∀ f ∈ fields, ∀ {rest}, Following rest → Separated (f.2.tokens ++ rest))
    (h : Following after) : Following (moreFields fields ++ after) := by
  induction fields with
  | nil => exact h
  | cons f fs ih =>
    obtain ⟨hf, hfs⟩ := List.forall_mem_cons.1 hfields
    have hvalue : Following (.colon :: (f.2.tokens ++ (moreFields fs ++ after))) :=
      following_cons Bool.false_ne_true (hf (ih hfs))
    rw [moreFields, List.append_assoc]
    exact following_cons Bool.false_ne_true (separated_cons _ hvalue)

theorem separated_tokens_append (v : Value) {after : List Token} (h : Following after) :
    Separated (v.tokens ++ after) := by
  induction v using Value.induction generalizing after with
  | null => exact separated_cons _ h
  | bool b => exact separated_cons _ h
  | num n => exact separated_cons _ h
  | str s => exact separated_cons _ h
  | arr items ih =>
    have hclose : Following (.closeArr :: after) := following_cons Bool.false_ne_true h.separated
    cases items with
    | nil => exact separated_cons _ hclose
    | cons v vs =>
      obtain ⟨hv, hvs⟩ := List.forall_mem_cons.1 ih
      have hall : Following (.openArr :: (v.tokens ++ (moreItems vs ++ .closeArr :: after))) :=
        following_cons Bool.false_ne_true (hv (following_moreItems hvs hclose))
      rw [Value.tokens, List.append_assoc, List.append_assoc]
      exact hall.separated
  | obj fields ih =>
    have hclose : Following (.closeObj :: after) := following_cons Bool.false_ne_true h.separated
    cases fields with
    | nil => exact separated_cons _ hclose
    | cons f fs =>
      obtain ⟨hf, hfs⟩ := List.forall_mem_cons.1 ih
      have hvalue : Following (.colon :: (f.2.tokens ++ (moreFields fs ++ .closeObj :: after))) :=
        following_cons Bool.false_ne_true (hf (following_moreFields hfs hclose))
      have hkey : Following (.str f.1 :: .colon :: _) :=
        following_cons Bool.false_ne_true hvalue.separated
      rw [Value.tokens, List.append_assoc, List.append_assoc]
      exact separated_cons .openObj hkey

/-- In the tokens of a value no two stand side by side that would run into each other. -/
theorem separated_tokens (v : Value) : Separated v.tokens := by
  simpa using separated_tokens_append v following_nil

end TaskGraph.Json
