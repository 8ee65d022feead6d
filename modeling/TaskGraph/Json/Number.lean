import TaskGraph.Binary64.Shortest

namespace TaskGraph.Json

/-- The integers that JSON numbers keep exactly, from `-2 ^ 63` to `2 ^ 64 - 1`. -/
def fits64 (i : Int) : Prop := -0x8000000000000000 ≤ i ∧ i < 0x10000000000000000

instance (i : Int) : Decidable (fits64 i) := inferInstanceAs (Decidable (_ ∧ _))

/-- A JSON number: an integer of at most 64 bits, or a finite binary64 number. The two are never
    merged: `2` and `2.0` are different values with different texts. -/
inductive Number where
  | int (value : Int) (inRange : fits64 value)
  | float (value : Binary64)
  deriving DecidableEq

namespace Number

/-- The integer `i`, when it fits. -/
def ofInt? (i : Int) : Option Number :=
  if h : fits64 i then some (.int i h) else none

/-- A 64-bit word as a number. -/
def ofUInt64 (n : UInt64) : Number :=
  .int n.toNat (by
    have := n.toNat_lt
    unfold fits64
    omega)

def toBinary64? : Number → Option Binary64
  | .int i _ => Binary64.ofInt? i
  | .float x => some x

/-- The integers of a signed 64-bit word, from `-2 ^ 63` to `2 ^ 63 - 1`. -/
def isInt64 (i : Int) : Bool := -0x8000000000000000 ≤ i && i < 0x8000000000000000

/-- The value as a signed 64-bit integer. An integer kept as one is taken as it is; any other
    number goes through binary64 and must come out whole and in range. -/
def toInt64? (n : Number) : Option Int :=
  match n with
  | .int i _ => if isInt64 i then some i else (n.toBinary64?.bind Binary64.toInt?).filter isInt64
  | .float x => x.toInt?.filter isInt64

/-- Exponents of the leading digit from which, and below which, a number is written without an
    exponent. -/
def positionalFrom : Int := -5

@[inherit_doc positionalFrom]
def positionalBelow : Int := 16

/-- Significant digits `ds` with the leading one at `10 ^ e`, written with a fraction part. -/
def positional (ds : List Char) (e : Int) : List Char :=
  if e < 0 then
    ['0', '.'] ++ List.replicate (-e - 1).toNat '0' ++ ds
  else
    let whole := e.toNat + 1
    if ds.length ≤ whole then ds ++ List.replicate (whole - ds.length) '0' ++ ['.', '0']
    else ds.take whole ++ ['.'] ++ ds.drop whole

/-- Significant digits `ds` with the leading one at `10 ^ e`, written with an exponent. The sign of
    the exponent is always there, the point only when more than one digit is. -/
def scientific (ds : List Char) (e : Int) : List Char :=
  let fraction := if ds.length ≤ 1 then [] else '.' :: ds.drop 1
  ds.take 1 ++ fraction ++ ['e', if e < 0 then '-' else '+'] ++ Nat.toDigits 10 e.natAbs

/-- The text of a binary64 number: its shortest digits, in one of the two notations. -/
def floatChars (x : Binary64) : List Char :=
  let magnitude :=
    if x.units = 0 then
      ['0', '.', '0']
    else
      let d := x.shortest
      let e := d.exponent + Decimal.digitCount d.digits - 1
      let ds := ((Nat.toDigits 10 d.digits).reverse.dropWhile (· == '0')).reverse
      if positionalFrom ≤ e ∧ e < positionalBelow then positional ds e else scientific ds e
  if x.negative then '-' :: magnitude else magnitude

/-- The text of an integer. -/
def intChars (i : Int) : List Char :=
  if i < 0 then '-' :: Nat.toDigits 10 i.natAbs else Nat.toDigits 10 i.natAbs

/-- The text of a number. -/
def chars : Number → List Char
  | .int i _ => intChars i
  | .float x => floatChars x

/-- The parts of a written number, each as the digits that stand there. -/
structure Lexeme where
  negative : Bool
  whole : List Nat
  fraction : Option (List Nat)
  exponent : Option Int
  deriving DecidableEq

/-- The values of the decimal digits at the head of `cs`, and what follows them. -/
def spanDigits (cs : List Char) : List Nat × List Char :=
  ((cs.takeWhile Char.isDigit).map (fun c => c.toNat - '0'.toNat), cs.dropWhile Char.isDigit)

/-- The number that decimal digits denote. -/
def ofDigits (ds : List Nat) : Nat := ds.foldl (fun n d => n * 10 + d) 0

/-- The whole part at the head of `cs`: one zero, or digits that do not start with zero. -/
def wholePart? (cs : List Char) : Option (List Nat × List Char) :=
  match spanDigits cs with
  | ([], _) => none
  | (0 :: _ :: _, _) => none
  | part => some part

/-- The fraction part at the head of `cs`, if a point stands there; digits must follow it. -/
def fractionPart? (cs : List Char) : Option (Option (List Nat) × List Char) :=
  match cs with
  | '.' :: rest =>
    match spanDigits rest with
    | ([], _) => none
    | (ds, rest) => some (some ds, rest)
  | _ => some (none, cs)

/-- The digits of an exponent, all that is left of the number. -/
def exponentDigits? (cs : List Char) : Option Int :=
  match spanDigits cs with
  | ([], _) => none
  | (ds, []) => some (ofDigits ds : Nat)
  | _ => none

/-- The exponent that ends a number, if there is one. -/
def exponentPart? (cs : List Char) : Option (Option Int) :=
  match cs with
  | [] => some none
  | c :: rest =>
    if c = 'e' ∨ c = 'E' then
      match rest with
      | '-' :: rest => (exponentDigits? rest).map (some <| - ·)
      | '+' :: rest => (exponentDigits? rest).map some
      | _ => (exponentDigits? rest).map some
    else
      none

/-- The parts of a written number. The sign may only be a minus. -/
def Lexeme.ofChars? (cs : List Char) : Option Lexeme := do
  let negative := cs.head? == some '-'
  let (whole, rest) ← wholePart? (if negative then cs.drop 1 else cs)
  let (fraction, rest) ← fractionPart? rest
  let exponent ← exponentPart? rest
  return ⟨negative, whole, fraction, exponent⟩

/-- Appends digits to a significand while it stays below `2 ^ 64`, and counts the digits from the
    first one that does not fit. -/
def gather (significand : Nat) : List Nat → Nat × Nat
  | [] => (significand, 0)
  | d :: ds =>
    let next := significand * 10 + d
    if next < 0x10000000000000000 then gather next ds else (significand, ds.length + 1)

/-- `10 ^ k` rounded to binary64. -/
def powerOfTen? (k : Nat) : Option Binary64 := Binary64.ofRatio false (Decimal.powerOfTen k) 1

/-- A significand of 64 bits times `10 ^ e`, each step rounded, so that the result of a long one may
    miss the nearest number by one place. Past `10 ^ 308` only zero is left in range; a division by
    more than `10 ^ 308` takes two steps, and after more than twice that nothing is left. -/
def scale? (significand : Nat) (e : Int) : Option Binary64 := do
  let x ← Binary64.ofInt? significand
  if 308 < e then
    if significand = 0 then some x else none
  else if 0 ≤ e then
    x.mul? (← powerOfTen? e.toNat)
  else if -308 ≤ e then
    x.div? (← powerOfTen? (-e).toNat)
  else if -616 ≤ e then
    (← x.div? (← powerOfTen? 308)).div? (← powerOfTen? (-e - 308).toNat)
  else
    some (Binary64.zero false)

/-- The number that a lexeme denotes; none when it is too large. Without point and exponent it is
    an integer if it fits, except that minus zero is a binary64 number. -/
def Lexeme.toNumber? (l : Lexeme) : Option Number :=
  let (whole, beyond) := gather 0 l.whole
  let float (significand : Nat) (e : Int) : Option Number :=
    (scale? significand e).map fun x => .float (x.withSign l.negative)
  match l.fraction, l.exponent with
  | none, none =>
    if beyond = 0 ∧ ¬l.negative then
      ofInt? whole
    else if beyond = 0 ∧ 0 < whole ∧ whole ≤ 0x8000000000000000 then
      ofInt? (-whole)
    else
      float whole beyond
  | fraction, exponent =>
    let ds := fraction.getD []
    let (significand, unread) := gather whole ds
    float significand (beyond - (ds.length - unread : Nat) + exponent.getD 0)

/-- The number written by `cs`. -/
def ofChars? (cs : List Char) : Option Number := (Lexeme.ofChars? cs).bind Lexeme.toNumber?

end Number

end TaskGraph.Json
