import Mathlib.Data.List.TakeWhile
import TaskGraph.Json.Lexer

namespace TaskGraph.Json.Number

open Lexing (isNumberChar)

/-- The values of decimal digits. -/
def digitValues (cs : List Char) : List Nat := cs.map fun c => c.toNat - '0'.toNat

theorem isNumberChar_of_isDigit {c : Char} (h : c.isDigit) : isNumberChar c := by
  simp [isNumberChar, h]

/-- The digits that were cut off, and the characters that they stand for. -/
theorem exists_of_spanDigits {cs rest : List Char} {ds : List Nat}
    (h : spanDigits cs = (ds, rest)) :
    ∃ lead, cs = lead ++ rest ∧ (∀ c ∈ lead, c.isDigit) ∧ ds = digitValues lead := by
  obtain ⟨hds, hrest⟩ := Prod.mk.inj h
  refine ⟨cs.takeWhile Char.isDigit, ?_, fun c hc => List.mem_takeWhile_imp hc, hds.symm⟩
  rw [← hrest, List.takeWhile_append_dropWhile]

theorem exists_of_wholePart? {cs rest : List Char} {ds : List Nat}
    (h : wholePart? cs = some (ds, rest)) :
    ∃ lead, cs = lead ++ rest ∧ lead ≠ [] ∧ ∀ c ∈ lead, c.isDigit := by
  unfold wholePart? at h
  split at h
  · cases h
  · cases h
  · next hnonempty _ =>
    have hspan := Option.some.inj h
    obtain ⟨lead, hcs, hdigits, hds⟩ := exists_of_spanDigits hspan
    refine ⟨lead, hcs, ?_, hdigits⟩
    rintro rfl
    rw [hds] at hspan
    exact hnonempty rest hspan

theorem exists_of_fractionPart? {cs rest : List Char} {fraction : Option (List Nat)}
    (h : fractionPart? cs = some (fraction, rest)) :
    ∃ lead, cs = lead ++ rest ∧ ∀ c ∈ lead, isNumberChar c := by
  unfold fractionPart? at h
  split at h
  · next after =>
    split at h
    · cases h
    · next ds rest' _ hspan =>
      obtain ⟨-, rfl⟩ := Prod.mk.inj (Option.some.inj h)
      obtain ⟨lead, rfl, hdigits, -⟩ := exists_of_spanDigits hspan
      refine ⟨'.' :: lead, rfl, List.forall_mem_cons.2 ⟨rfl, ?_⟩⟩
      exact fun c hc => isNumberChar_of_isDigit (hdigits c hc)
  · obtain ⟨-, rfl⟩ := Prod.mk.inj (Option.some.inj h)
    exact ⟨[], rfl, List.forall_mem_nil _⟩

theorem isNumberChar_of_exponentDigits? {cs : List Char} {e : Int}
    (h : exponentDigits? cs = some e) : ∀ c ∈ cs, isNumberChar c := by
  unfold exponentDigits? at h
  split at h
  · cases h
  · next ds _ hspan =>
    obtain ⟨lead, rfl, hdigits, -⟩ := exists_of_spanDigits hspan
    rw [List.append_nil]
    exact fun c hc => isNumberChar_of_isDigit (hdigits c hc)
  · cases h

theorem isNumberChar_of_exponentPart? {cs : List Char} {exponent : Option Int}
    (h : exponentPart? cs = some exponent) : ∀ c ∈ cs, isNumberChar c := by
  unfold exponentPart? at h
  split at h
  · exact List.forall_mem_nil _
  · next c rest =>
    split at h
    · next hletter =>
      have hc : isNumberChar c := by
        rcases hletter with rfl | rfl
        · rfl
        · rfl
      refine List.forall_mem_cons.2 ⟨hc, ?_⟩
      split at h
      · obtain ⟨e, he, -⟩ := Option.map_eq_some_iff.1 h
        exact List.forall_mem_cons.2 ⟨rfl, isNumberChar_of_exponentDigits? he⟩
      · obtain ⟨e, he, -⟩ := Option.map_eq_some_iff.1 h
        exact List.forall_mem_cons.2 ⟨rfl, isNumberChar_of_exponentDigits? he⟩
      · obtain ⟨e, he, -⟩ := Option.map_eq_some_iff.1 h
        exact isNumberChar_of_exponentDigits? he
    · cases h

/-- What is read as a number is made of number characters, and its first one is a digit or a
    minus. -/
theorem exists_of_ofChars? {cs : List Char} {n : Number} (h : ofChars? cs = some n) :
    ∃ c rest, cs = c :: rest ∧ (c.isDigit ∨ c = '-') ∧ ∀ d ∈ cs, isNumberChar d := by
  obtain ⟨l, hlexeme, -⟩ := Option.bind_eq_some_iff.1 h
  unfold Lexeme.ofChars? at hlexeme
  obtain ⟨⟨whole, afterWhole⟩, hwhole, hlexeme⟩ := Option.bind_eq_some_iff.1 hlexeme
  obtain ⟨⟨fraction, afterFraction⟩, hfraction, hlexeme⟩ := Option.bind_eq_some_iff.1 hlexeme
  obtain ⟨exponent, hexponent, -⟩ := Option.bind_eq_some_iff.1 hlexeme
  obtain ⟨lead, hbody, hlead, hdigits⟩ := exists_of_wholePart? hwhole
  obtain ⟨middle, rfl, hmiddle⟩ := exists_of_fractionPart? hfraction
  have hlast := isNumberChar_of_exponentPart? hexponent
  have hall : ∀ d ∈ lead ++ (middle ++ afterFraction), isNumberChar d := by
    intro d hd
    rcases List.mem_append.1 hd with hd | hd
    · exact isNumberChar_of_isDigit (hdigits d hd)
    · rcases List.mem_append.1 hd with hd | hd
      · exact hmiddle d hd
      · exact hlast d hd
  obtain ⟨first, others, rfl⟩ := List.exists_cons_of_ne_nil hlead
  split at hbody
  · next hminus =>
    cases cs with
    | nil => cases hminus
    | cons c rest =>
      obtain rfl : c = '-' := by simpa using hminus
      have hrest : rest = _ := hbody
      rw [hrest]
      exact ⟨_, _, rfl, .inr rfl, List.forall_mem_cons.2 ⟨rfl, hall⟩⟩
  · subst hbody
    exact ⟨first, _, rfl, .inl (hdigits first List.mem_cons_self), hall⟩

/-- Digits are gathered into the number that they denote, as long as it fits 64 bits. -/
theorem gather_of_lt {ds : List Nat} {significand : Nat}
    (h : ds.foldl (fun n d => n * 10 + d) significand < 0x10000000000000000) :
    gather significand ds = (ds.foldl (fun n d => n * 10 + d) significand, 0) := by
  induction ds generalizing significand with
  | nil => rfl
  | cons d ds ih =>
    have hgrows : ∀ (ds : List Nat) (n : Nat), n ≤ ds.foldl (fun n d => n * 10 + d) n := by
      intro ds
      induction ds with
      | nil => exact fun n => Nat.le_refl n
      | cons d ds ih => exact fun n => Nat.le_trans (by omega) (ih (n * 10 + d))
    have hnext : significand * 10 + d < 0x10000000000000000 := Nat.lt_of_le_of_lt (hgrows ds _) h
    rw [gather, if_pos hnext, ih h]
    rfl

theorem foldl_digitValues (n : Nat) :
    (digitValues (Nat.toDigits 10 n)).foldl (fun n d => n * 10 + d) 0 = n := by
  have hvalue := Nat.ofDigitChars_ten_toDigits (n := n)
  rw [Nat.ofDigitChars_eq_foldl] at hvalue
  unfold digitValues
  rw [List.foldl_map]
  simpa only [Nat.mul_comm] using hvalue

theorem isDigit_of_mem_digits {n : Nat} {c : Char} (h : c ∈ Nat.toDigits 10 n) : c.isDigit :=
  Nat.isDigit_of_mem_toDigits (by omega) (by omega) h

/-- The digits of a positive number do not start with a zero. -/
theorem head?_toDigits_ne {n : Nat} (h : 0 < n) : (Nat.toDigits 10 n).head? ≠ some '0' := by
  induction n using Nat.base_induction 10 (by omega) with
  | single m hm =>
    rw [Nat.toDigits_of_lt_base hm]
    simp
    omega
  | digit m k hk hm ih =>
    obtain ⟨c, cs, hcs⟩ := List.exists_cons_of_ne_nil
      (List.length_pos_iff.1 (Nat.length_toDigits_pos (b := 10) (n := m)))
    rw [← Nat.toDigits_append_toDigits (by omega) hm hk, hcs]
    rw [hcs] at ih
    exact ih hm

theorem head?_toDigits_ne_minus (n : Nat) : ((Nat.toDigits 10 n).head? == some '-') = false := by
  cases hds : Nat.toDigits 10 n with
  | nil => rfl
  | cons c rest =>
    have hdigit : c.isDigit := isDigit_of_mem_digits (hds ▸ List.mem_cons_self)
    have hne : c ≠ '-' := by
      rintro rfl
      cases hdigit
    simpa using hne

theorem wholePart?_toDigits (n : Nat) :
    wholePart? (Nat.toDigits 10 n) = some (digitValues (Nat.toDigits 10 n), []) := by
  have hspan : spanDigits (Nat.toDigits 10 n) = (digitValues (Nat.toDigits 10 n), []) := by
    unfold spanDigits
    rw [List.takeWhile_eq_self_iff.2 fun c hc => isDigit_of_mem_digits hc,
      List.dropWhile_eq_nil_iff.2 fun c hc => isDigit_of_mem_digits hc]
    rfl
  unfold wholePart?
  rw [hspan]
  split
  · next hempty =>
    have hnil := List.map_eq_nil_iff.1 (Prod.mk.inj hempty).1
    exact absurd hnil (List.length_pos_iff.1 Nat.length_toDigits_pos)
  · next hzero =>
    obtain ⟨c, rest, hds, hc, hrest⟩ := List.map_eq_cons_iff.1 (Prod.mk.inj hzero).1
    obtain ⟨d, others, rfl, -, -⟩ := List.map_eq_cons_iff.1 hrest
    rcases Nat.eq_zero_or_pos n with rfl | hpos
    · cases hds
    · have hdigit : c.isDigit := isDigit_of_mem_digits (hds ▸ List.mem_cons_self)
      have hleast : 48 ≤ c.toNat := by
        unfold Char.isDigit at hdigit
        simp only [Bool.and_eq_true, decide_eq_true_eq] at hdigit
        exact hdigit.1
      have hc : c = '0' := by
        apply Char.toNat_inj.1
        change c.toNat - 48 = 0 at hc
        change c.toNat = 48
        omega
      have hhead := head?_toDigits_ne hpos
      rw [hds, hc] at hhead
      exact absurd rfl hhead
  · rfl

theorem ofChars?_digits {cs : List Char} {negative : Bool} {n : Nat}
    (hsign : (cs.head? == some '-') = negative)
    (hbody : (if negative then cs.drop 1 else cs) = Nat.toDigits 10 n) :
    Lexeme.ofChars? cs = some ⟨negative, digitValues (Nat.toDigits 10 n), none, none⟩ := by
  unfold Lexeme.ofChars?
  rw [hsign]
  dsimp only
  rw [hbody, wholePart?_toDigits]
  rfl

theorem toNumber?_digits {negative : Bool} {n : Nat} (h : n < 0x10000000000000000) :
    Lexeme.toNumber? ⟨negative, digitValues (Nat.toDigits 10 n), none, none⟩ =
      if ¬negative then ofInt? n
      else if 0 < n ∧ n ≤ 0x8000000000000000 then ofInt? (-n)
      else (scale? n 0).map fun x => .float (x.withSign negative) := by
  unfold Lexeme.toNumber?
  rw [gather_of_lt (by rw [foldl_digitValues]; exact h), foldl_digitValues]
  simp

theorem ofInt?_of_fits {i : Int} (h : fits64 i) : ofInt? i = some (.int i h) := dif_pos h

/-- An integer that fits 64 bits is read back from its text. -/
theorem ofChars?_intChars {i : Int} (h : fits64 i) : ofChars? (intChars i) = some (.int i h) := by
  obtain ⟨hleast, hmost⟩ := id h
  unfold intChars ofChars?
  split
  · next hnegative =>
    have hlexeme : Lexeme.ofChars? ('-' :: Nat.toDigits 10 i.natAbs) =
        some ⟨true, digitValues (Nat.toDigits 10 i.natAbs), none, none⟩ := ofChars?_digits rfl rfl
    have hvalue : -(i.natAbs : Int) = i := by omega
    rw [hlexeme, Option.bind_some, toNumber?_digits (by omega), if_neg (by simp),
      if_pos (by omega), hvalue, ofInt?_of_fits h]
  · next hnonneg =>
    have hlexeme : Lexeme.ofChars? (Nat.toDigits 10 i.natAbs) =
        some ⟨false, digitValues (Nat.toDigits 10 i.natAbs), none, none⟩ :=
      ofChars?_digits (head?_toDigits_ne_minus _) rfl
    have hvalue : (i.natAbs : Int) = i := by omega
    rw [hlexeme, Option.bind_some, toNumber?_digits (by omega), if_pos (by simp), hvalue,
      ofInt?_of_fits h]

end TaskGraph.Json.Number
