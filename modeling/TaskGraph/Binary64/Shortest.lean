import TaskGraph.Binary64.Basic

namespace TaskGraph

/-- The positive decimal number `digits * 10 ^ exponent`. -/
structure Decimal where
  digits : Nat
  exponent : Int
  deriving DecidableEq

namespace Decimal

def powerOfTen (k : Nat) : Nat := Nat.pow 10 k

/-- The value as a quotient of natural numbers. -/
def ratio (d : Decimal) : Nat × Nat :=
  if 0 ≤ d.exponent then (d.digits * powerOfTen d.exponent.toNat, 1)
  else (d.digits, powerOfTen (-d.exponent).toNat)

def toBinary64? (d : Decimal) : Option Binary64 :=
  Binary64.ofRatio false d.ratio.1 d.ratio.2

/-- The number of decimal digits of a natural number; zero has one. -/
def digitCount (n : Nat) : Nat := (Nat.toDigits 10 n).length

/-- The exponent of the leading decimal digit of the positive quotient `num / den`. -/
def leadingExponent (num den : Nat) : Int :=
  if den ≤ num then (digitCount (num / den) : Int) - 1
  else -(digitCount ((den - 1) / num) : Int)

/-- The neighbours of `num / den` among the multiples of `10 ^ exponent`, the nearer one first. Of
    two at the same distance the even multiple comes first. -/
def neighbours (num den : Nat) (exponent : Int) : List Decimal :=
  let n := if 0 ≤ exponent then num else num * powerOfTen (-exponent).toNat
  let d := if 0 ≤ exponent then den * powerOfTen exponent.toNat else den
  let lower : Decimal := ⟨n / d, exponent⟩
  let upper : Decimal := ⟨n / d + 1, exponent⟩
  if Binary64.roundHalfEven n d = n / d then [lower, upper] else [upper, lower]

end Decimal

namespace Binary64

/-- All digits of a magnitude; only the last resort of `shortest`. -/
def exactDecimal (x : Binary64) : Decimal := ⟨x.units * Nat.pow 5 1074, -1074⟩

/-- The decimal with the fewest digits that reads back as the magnitude of a nonzero number, and
    of those the nearest to it. Grids of 1, 2, … 17 significant digits are tried in turn, and on
    each only the two neighbours of the magnitude are near enough. -/
def shortest (x : Binary64) : Decimal :=
  let leading := Decimal.leadingExponent x.units unitsPerOne
  let readsBack (d : Decimal) : Bool := d.toBinary64? = some (x.withSign false)
  let found := (List.range 17).findSome? fun (i : Nat) =>
    (Decimal.neighbours x.units unitsPerOne (leading - i)).find? readsBack
  found.getD x.exactDecimal

end Binary64

end TaskGraph
