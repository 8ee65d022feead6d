import Mathlib.Algebra.Order.Ring.Rat
import Mathlib.Tactic.Ring
import Mathlib.Tactic.NormNum
import TaskGraph.Proofs.Files.Delivery

namespace TaskGraph

open Json (Number Value)

namespace Binary64

variable {x : Binary64} {i : Int}

theorem cast_one_shiftLeft (k : Nat) : ((1 <<< k : Nat) : Rat) = 2 ^ k := by
  rw [Nat.one_shiftLeft, Nat.cast_pow, Nat.cast_ofNat]

/-- The exact value is the significand, scaled by the exponent, under the sign. -/
theorem toRat_eq_dyadic (x : Binary64) :
    x.toRat = (if x.negative then -1 else 1) * x.significand * 2 ^ ((x.shift : Int) - 1074) := by
  have hunits : (x.units : Rat) = x.significand * 2 ^ x.shift := by
    rw [units, Nat.shiftLeft_eq, Nat.cast_mul, Nat.cast_pow, Nat.cast_ofNat]
  have hsigned : (((if x.negative then -x.units else x.units : Int)) : Rat) =
      (if x.negative then -1 else 1) * x.significand * 2 ^ x.shift := by
    split <;> simp [hunits]
  have hone : (unitsPerOne : Rat) = 2 ^ 1074 := cast_one_shiftLeft 1074
  rw [toRat, Rat.mkRat_eq_div, hsigned, hone, mul_div_assoc, zpow_sub₀ two_ne_zero, zpow_natCast]
  rfl

/-- A number is read off as a whole number exactly when that is its exact value. -/
theorem toInt?_eq_some_iff : x.toInt? = some i ↔ x.toRat = i := by
  constructor
  · intro h
    rw [← toRat_of_toInt? h, Rat.mkRat_one]
  · intro h
    have hpos := unitsPerOne_pos
    rw [toRat, ← Rat.mkRat_one, Rat.mkRat_eq_iff (Nat.ne_of_gt hpos) Nat.one_ne_zero] at h
    have hquotient : ∀ j : Int, (x.units : Int) = j * unitsPerOne →
        x.units % unitsPerOne = 0 ∧ ((x.units / unitsPerOne : Nat) : Int) = j := by
      intro j hj
      constructor
      · apply Int.natCast_inj.1
        rw [Int.natCast_emod, hj]
        simp
      · rw [Int.natCast_ediv, hj, Int.mul_ediv_cancel _ (by omega)]
    rw [toInt?]
    by_cases hnegative : x.negative
    · obtain ⟨hwhole, hvalue⟩ := hquotient (-i) (by simp [hnegative] at h ⊢; omega)
      simp [hwhole, hvalue, hnegative]
    · obtain ⟨hwhole, hvalue⟩ := hquotient i (by simpa [hnegative] using h)
      simp [hwhole, hvalue, hnegative]

/-- Rounding a whole number to binary64 does not take it below a power of two. -/
theorem two_pow_le_of_ofInt? {k : Nat} (hi : 2 ^ k ≤ i) (h : ofInt? i = some x) :
    2 ^ k ≤ x.toRat := by
  have hpos : 0 < i := lt_of_lt_of_le (by positivity) hi
  have hk : k ≤ i.natAbs.log2 := by
    rw [Nat.le_log2 (by omega)]
    have hcast : ((2 ^ k : Nat) : Int) ≤ i := by exact_mod_cast hi
    omega
  obtain ⟨hnegative, hunits⟩ := le_units_of_ofRatio (by omega) h
  have hnonneg : ¬x.negative := by
    rw [hnegative]
    simp only [decide_eq_true_eq]
    omega
  have hone : (0 : Rat) < unitsPerOne := by exact_mod_cast unitsPerOne_pos
  rw [toRat, if_neg hnonneg, Rat.mkRat_eq_div, le_div_iff₀ hone, mul_comm]
  rw [Nat.shiftLeft_eq] at hunits
  have hpow : (2 : Rat) ^ k ≤ 2 ^ i.natAbs.log2 := pow_le_pow_right₀ one_le_two hk
  calc (unitsPerOne : Rat) * 2 ^ k ≤ unitsPerOne * 2 ^ i.natAbs.log2 :=
        mul_le_mul_of_nonneg_left hpow hone.le
    _ ≤ ((x.units : Int) : Rat) := by exact_mod_cast hunits

end Binary64

/-- A number is taken for an integer exactly when that is its exact value and fits a signed 64-bit
    word. -/
theorem Json.Number.toInt64?_eq_some_iff {n : Number} {i : Int} :
    n.toInt64? = some i ↔ n.toRat = i ∧ Number.isInt64 i := by
  constructor
  · intro h
    refine ⟨?_, isInt64_of_toInt64? h⟩
    rcases toInt64?_cases h with ⟨hi, rfl⟩ | ⟨x, hi, rfl, hvalue⟩
    · exact Rat.mkRat_one i
    · rw [← hvalue]
      exact Rat.mkRat_one i
  · rintro ⟨hvalue, hsigned⟩
    cases n with
    | int j hj =>
      have heq : j = i := by
        rw [toRat, Rat.mkRat_one] at hvalue
        exact_mod_cast hvalue
      subst heq
      exact toInt64?_int hsigned
    | float x =>
      have hwhole : x.toInt? = some i := Binary64.toInt?_eq_some_iff.2 hvalue
      simp [toInt64?, hwhole, hsigned]

theorem Json.Number.isInt64_iff {i : Int} : Number.isInt64 i ↔ -2 ^ 63 ≤ i ∧ i < 2 ^ 63 := by
  simp [Number.isInt64]

namespace LiteralType

theorem validate_integer_num_iff {n : Number} : integer.validate (.num n) = .ok () ↔
    ∃ i : Int, n.toRat = i ∧ -2 ^ 63 ≤ i ∧ i < 2 ^ 63 := by
  have haccepts : integer.validate (.num n) = .ok () ↔ n.toInt64?.isSome :=
    DeclaredType.validate_eq_ok_iff (t := .typed .integer)
  rw [haccepts, Option.isSome_iff_exists]
  apply exists_congr
  intro i
  rw [Number.toInt64?_eq_some_iff, Number.isInt64_iff]

/-- The type of integers takes exactly the numbers whose exact value is a signed 64-bit integer, and
    writes this very value, so that nothing is rounded, clipped or wrapped. Nothing but numbers is
    taken. An unsigned integer past the signed ones is not taken either: its binary64 number, by
    which it is judged, lies past them too. -/
theorem integer_exact :
    (∀ n : Number, integer.validate (.num n) = .ok () ↔
      ∃ i : Int, n.toRat = i ∧ -2 ^ 63 ≤ i ∧ i < 2 ^ 63) ∧
    (∀ (n : Number) (i : Int), n.toRat = i → -2 ^ 63 ≤ i → i < 2 ^ 63 →
      ∃ hi, integer.primitive (.num n) = .obj [("integer", .num (.int i hi))]) ∧
    (∀ v, integer.validate v = .ok () → ∃ n, v = .num n) ∧
    (∀ i hi x, 2 ^ 63 ≤ i → (Number.int i hi).toBinary64? = some x →
      2 ^ 63 ≤ x.toRat ∧ integer.validate (.num (.int i hi)) ≠ .ok ()) ∧
    ∀ x : Binary64, (Number.float x).toRat =
      (if x.negative then -1 else 1) * x.significand * 2 ^ ((x.shift : Int) - 1074) := by
  refine ⟨fun n => validate_integer_num_iff, ?_, ?_, ?_, Binary64.toRat_eq_dyadic⟩
  · intro n i hvalue hleast hmost
    have hsigned := Number.isInt64_iff.2 ⟨hleast, hmost⟩
    have hi := Number.fits64_of_isInt64 hsigned
    exact ⟨hi, primitive_integer (Number.toInt64?_eq_some_iff.2 ⟨hvalue, hsigned⟩) hi⟩
  · intro v hvalid
    have haccepts := (DeclaredType.validate_eq_ok_iff (t := .typed .integer)).1 hvalid
    obtain ⟨n, -, rfl, -⟩ := exists_of_accepts_integer haccepts
    exact ⟨n, rfl⟩
  · intro i hi x hlarge hrounded
    refine ⟨Binary64.two_pow_le_of_ofInt? hlarge hrounded, ?_⟩
    rw [Ne, validate_integer_num_iff]
    rintro ⟨j, hvalue, -, hmost⟩
    have heq : i = j := by
      rw [Number.toRat, Rat.mkRat_one] at hvalue
      exact_mod_cast hvalue
    omega

/-- The largest binary64 number below `2 ^ 63`, and the largest unsigned integer, which rounds to
    `2 ^ 64`. -/
theorem integer_exact_edges :
    (∃ hi, integer.primitive (.num (.float ⟨false, 1085, 0xFFFFFFFFFFFFF⟩)) =
      .obj [("integer", .num (.int 0x7FFFFFFFFFFFFC00 hi))]) ∧
    ∃ hi, (Number.int 0xFFFFFFFFFFFFFFFF hi).toBinary64? = some ⟨false, 1087, 0⟩ ∧
      integer.validate (.num (.int 0xFFFFFFFFFFFFFFFF hi)) ≠ .ok () := by
  constructor
  · have hvalue : (Number.float ⟨false, 1085, 0xFFFFFFFFFFFFF⟩).toRat =
        (0x7FFFFFFFFFFFFC00 : Int) := Binary64.toInt?_eq_some_iff.1 (by decide +kernel)
    exact integer_exact.2.1 _ _ hvalue (by norm_num) (by norm_num)
  · have hrounded : (Number.int 0xFFFFFFFFFFFFFFFF (by decide)).toBinary64? =
        some ⟨false, 1087, 0⟩ := by decide +kernel
    exact ⟨_, hrounded, (integer_exact.2.2.2.1 _ _ _ (by norm_num) hrounded).2⟩

end LiteralType

end TaskGraph
