import TaskGraph.Json.Number

namespace TaskGraph

namespace Binary64

/-- The exact value of a number. -/
def toRat (x : Binary64) : Rat :=
  mkRat (if x.negative then -(x.units : Int) else x.units) unitsPerOne

theorem units_of_encode {negative : Bool} {m s : Nat} {x : Binary64}
    (h : encode negative m s = some x) (hm : leadingBit ≤ m) :
    x.negative = negative ∧ x.units = m <<< s := by
  unfold encode at h
  rw [dif_neg (Nat.not_lt.2 hm)] at h
  split at h
  · obtain rfl := Option.some.inj h
    refine ⟨rfl, ?_⟩
    have hsignificand : leadingBit + (m - leadingBit) = m := by omega
    unfold units significand shift
    rw [if_neg (Nat.succ_ne_zero s)]
    dsimp only
    rw [hsignificand]
    rfl
  · cases h

theorem div_le_roundHalfEven (num den : Nat) : num / den ≤ roundHalfEven num den := by
  unfold roundHalfEven
  dsimp only
  split
  · exact Nat.le_refl _
  · exact Nat.le_succ _

theorem one_shiftLeft_pos (k : Nat) : 0 < 1 <<< k := Nat.one_shiftLeft k ▸ Nat.two_pow_pos k

theorem log2_mul_one_shiftLeft {n : Nat} (hn : 0 < n) (k : Nat) :
    (n * 1 <<< k).log2 = n.log2 + k := by
  rw [Nat.log2_eq_iff (Nat.ne_of_gt (Nat.mul_pos hn (one_shiftLeft_pos k))), Nat.one_shiftLeft]
  constructor
  · rw [Nat.pow_add]
    exact Nat.mul_le_mul_right _ (Nat.log2_self_le (Nat.ne_of_gt hn))
  · rw [Nat.add_right_comm, Nat.pow_add]
    exact Nat.mul_lt_mul_of_pos_right Nat.lt_log2_self (Nat.two_pow_pos k)

theorem unitsPerOne_pos : 0 < unitsPerOne := one_shiftLeft_pos 1074

theorem log2_mul_unitsPerOne {n : Nat} (hn : 0 < n) :
    (n * unitsPerOne).log2 = n.log2 + 1074 := log2_mul_one_shiftLeft hn 1074

theorem leadingBit_shiftLeft (k l : Nat) : leadingBit <<< (k + l) = 1 <<< (52 + l) <<< k := by
  have hbit : leadingBit = 1 <<< 52 := rfl
  rw [hbit, ← Nat.shiftLeft_add, ← Nat.shiftLeft_add]
  congr 1
  omega

/-- A whole number is not rounded below the power of two of its first bit. -/
theorem le_units_of_ofRatio {negative : Bool} {n : Nat} {x : Binary64} (hn : 0 < n)
    (h : ofRatio negative n 1 = some x) :
    x.negative = negative ∧ unitsPerOne <<< n.log2 ≤ x.units := by
  have hlog : (n * unitsPerOne / 1).log2 - 52 = n.log2 + 1022 := by
    rw [Nat.div_one, log2_mul_unitsPerOne hn]
    omega
  have hleading : leadingBit <<< (n.log2 + 1022) = unitsPerOne <<< n.log2 :=
    leadingBit_shiftLeft n.log2 1022
  unfold ofRatio at h
  rw [hlog] at h
  dsimp only at h
  rw [← hleading]
  split at h
  · obtain ⟨hnegative, hunits⟩ := units_of_encode h (Nat.le_refl _)
    refine ⟨hnegative, ?_⟩
    rw [hunits, Nat.shiftLeft_eq, Nat.shiftLeft_eq]
    exact Nat.mul_le_mul_left _ (Nat.pow_le_pow_right (by omega) (Nat.le_succ _))
  · have hm : leadingBit ≤ roundHalfEven (n * unitsPerOne) (1 <<< (n.log2 + 1022)) := by
      refine Nat.le_trans ?_ (div_le_roundHalfEven _ _)
      rw [Nat.one_shiftLeft, Nat.le_div_iff_mul_le (Nat.two_pow_pos _), ← Nat.shiftLeft_eq,
        hleading, Nat.shiftLeft_eq, Nat.mul_comm]
      exact Nat.mul_le_mul_right _ (Nat.log2_self_le (Nat.ne_of_gt hn))
    obtain ⟨hnegative, hunits⟩ := units_of_encode h hm
    refine ⟨hnegative, ?_⟩
    rw [hunits, Nat.shiftLeft_eq, Nat.shiftLeft_eq]
    exact Nat.mul_le_mul_right _ hm

/-- A whole number that is read off is the exact value. -/
theorem toRat_of_toInt? {x : Binary64} {i : Int} (h : x.toInt? = some i) : mkRat i 1 = x.toRat := by
  unfold toInt? at h
  split at h
  · next hwhole =>
    have hunits : x.units / unitsPerOne * unitsPerOne = x.units :=
      Nat.div_mul_cancel (Nat.dvd_of_mod_eq_zero hwhole)
    obtain rfl := Option.some.inj h
    unfold toRat
    rw [Rat.mkRat_eq_iff Nat.one_ne_zero (Nat.ne_of_gt unitsPerOne_pos)]
    split
    · rw [Int.neg_mul, ← Int.natCast_mul, hunits, Int.natCast_one, Int.mul_one]
    · rw [← Int.natCast_mul, hunits, Int.natCast_one, Int.mul_one]
  · cases h

end Binary64

namespace Json.Number

/-- The exact value of a number. -/
def toRat : Number → Rat
  | int i _ => mkRat i 1
  | float x => x.toRat

/-- An integer past the signed 64-bit integers is not taken for one of them: its binary64 number is
    not below `2 ^ 63` either. -/
theorem toInt64?_eq_none {i : Int} (h : fits64 i) (hlarge : ¬isInt64 i) :
    (Number.int i h).toInt64? = none := by
  have hleast : 0x8000000000000000 ≤ i := by
    obtain ⟨hleast, -⟩ := h
    simp only [isInt64, Bool.and_eq_true, decide_eq_true_eq, not_and] at hlarge
    omega
  have hlog : i.natAbs.log2 = 63 := by
    obtain ⟨-, hmost⟩ := h
    rw [Nat.log2_eq_iff (by omega)]
    constructor <;> omega
  unfold toInt64?
  dsimp only
  rw [if_neg hlarge, toBinary64?, Binary64.ofInt?]
  cases hratio : Binary64.ofRatio (decide (i < 0)) i.natAbs 1 with
  | none => rfl
  | some x =>
    obtain ⟨hnegative, hunits⟩ := Binary64.le_units_of_ofRatio (by omega) hratio
    rw [hlog, Nat.shiftLeft_eq, Nat.mul_comm] at hunits
    have hvalue : 0x8000000000000000 ≤ x.units / Binary64.unitsPerOne :=
      (Nat.le_div_iff_mul_le Binary64.unitsPerOne_pos).2 hunits
    rw [Option.bind_some, Binary64.toInt?]
    split
    · have hnonneg : ¬i < 0 := by omega
      dsimp only
      rw [hnegative, decide_eq_false hnonneg, if_neg Bool.false_ne_true, Option.filter_some, if_neg]
      simp only [isInt64, Bool.and_eq_true, decide_eq_true_eq]
      omega
    · rfl

theorem isInt64_of_toInt64? {n : Number} {i : Int} (h : n.toInt64? = some i) : isInt64 i := by
  cases n with
  | int j hj =>
    rw [toInt64?] at h
    split at h
    · next hsigned => exact Option.some.inj h ▸ hsigned
    · exact (Option.filter_eq_some_iff.1 h).2
  | float x => exact (Option.filter_eq_some_iff.1 h).2

theorem fits64_of_isInt64 {i : Int} (h : isInt64 i) : fits64 i := by
  simp only [isInt64, Bool.and_eq_true, decide_eq_true_eq] at h
  exact ⟨h.1, by omega⟩

theorem toInt64?_int {i : Int} {h : fits64 i} (hsigned : isInt64 i) :
    (Number.int i h).toInt64? = some i := if_pos hsigned

/-- A number that is taken for an integer is kept as this integer or as a binary64 number of its
    value. -/
theorem toInt64?_cases {n : Number} {i : Int} (h : n.toInt64? = some i) :
    (∃ hi, n = .int i hi) ∨ ∃ x hi, n = .float x ∧ (Number.int i hi).toRat = (float x).toRat := by
  have hsigned := isInt64_of_toInt64? h
  cases n with
  | int j hj =>
    by_cases hsmall : isInt64 j
    · rw [toInt64?_int hsmall] at h
      obtain rfl := Option.some.inj h
      exact .inl ⟨hj, rfl⟩
    · rw [toInt64?_eq_none hj hsmall] at h
      cases h
  | float x =>
    have hwhole : x.toInt? = some i := (Option.filter_eq_some_iff.1 h).1
    exact .inr ⟨x, fits64_of_isInt64 hsigned, rfl, Binary64.toRat_of_toInt? hwhole⟩

end Json.Number

end TaskGraph
