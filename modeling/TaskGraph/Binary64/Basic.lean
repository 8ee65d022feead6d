namespace TaskGraph

/-- A finite binary64 number by its sign, its biased exponent and the 52 bits of its fraction. Its
    magnitude is a whole count of the least positive one, `2 ^ -1074`, so everything here is exact
    arithmetic on natural numbers but for one rounding, in `ofRatio`. -/
structure Binary64 where
  negative : Bool
  exponent : Fin 2047
  fraction : Fin 0x10000000000000
  deriving DecidableEq

namespace Binary64

def zero (negative : Bool) : Binary64 := ⟨negative, 0, 0⟩

/-- The leading bit of a significand of full length, `2 ^ 52`. -/
def leadingBit : Nat := 0x10000000000000

/-- The significand: the fraction, with the leading bit that a normal number leaves unwritten. -/
def significand (x : Binary64) : Nat :=
  if x.exponent.val = 0 then x.fraction.val else leadingBit + x.fraction.val

/-- One unit of the significand is `2 ^ shift` times the least positive magnitude. -/
def shift (x : Binary64) : Nat := x.exponent.val - 1

/-- The magnitude as a count of the least positive magnitude. -/
def units (x : Binary64) : Nat := x.significand <<< x.shift

/-- How many times the least positive magnitude goes into one, `2 ^ 1074`. -/
def unitsPerOne : Nat := 1 <<< 1074

/-- The number with the same sign bit as `negative` and the magnitude of `x`. -/
def withSign (x : Binary64) (negative : Bool) : Binary64 := { x with negative := negative }

/-- `num / den` as a whole number; a half goes to the even neighbour. -/
def roundHalfEven (num den : Nat) : Nat :=
  let quotient := num / den
  let twice := 2 * (num % den)
  if twice < den ∨ twice = den ∧ quotient % 2 = 0 then quotient else quotient + 1

/-- The number whose significand is `m` and whose last significand bit counts `2 ^ s` least
    magnitudes. There is none when `m` has more than 53 bits or `s` passes the largest exponent. -/
def encode (negative : Bool) (m s : Nat) : Option Binary64 :=
  if hm : m < leadingBit then
    some ⟨negative, 0, ⟨m, hm⟩⟩
  else if h : s + 1 < 2047 ∧ m - leadingBit < leadingBit then
    some ⟨negative, ⟨s + 1, h.1⟩, ⟨m - leadingBit, h.2⟩⟩
  else
    none

/-- The binary64 number nearest to `num / den`, a tie going to the even significand. There is none
    when the quotient rounds past the largest finite number. -/
def ofRatio (negative : Bool) (num den : Nat) : Option Binary64 :=
  let s := (num * unitsPerOne / den).log2 - 52
  let m := roundHalfEven (num * unitsPerOne) (den <<< s)
  if m = 2 * leadingBit then encode negative leadingBit (s + 1) else encode negative m s

/-- The binary64 number nearest to a whole number. -/
def ofInt? (i : Int) : Option Binary64 := ofRatio (decide (i < 0)) i.natAbs 1

/-- The product, rounded once. -/
def mul? (x y : Binary64) : Option Binary64 :=
  ofRatio (x.negative != y.negative) (x.units * y.units) (unitsPerOne * unitsPerOne)

/-- The quotient by a nonzero number, rounded once. -/
def div? (x y : Binary64) : Option Binary64 :=
  ofRatio (x.negative != y.negative) x.units y.units

/-- The exact value, when it is a whole number. -/
def toInt? (x : Binary64) : Option Int :=
  if x.units % unitsPerOne = 0 then
    let magnitude : Int := (x.units / unitsPerOne : Nat)
    some (if x.negative then -magnitude else magnitude)
  else
    none

end Binary64

end TaskGraph
