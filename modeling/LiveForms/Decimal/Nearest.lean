/-!
# Live forms: the double nearest to a decimal

The non-negative doubles, in increasing order, are numbered by their bit patterns; this
number is the *rank* of a double. Reading a decimal means finding the rank whose double
is nearest, and of two equally near ones the even rank.

Main definitions:

* `Binary64.magnitude`: the value of a rank, counted in units of `2 ^ (-1074)`, the
  least positive double.
* `Binary64.nearestRank`: the rank nearest to a quotient of naturals.
* `Decimal`: an integer times a power of ten.
* `Decimal.toFloat`: the nearest double, infinity when the decimal is too large.
-/

namespace LiveForms
namespace Binary64

/-- The rank of positive infinity, one more than that of the largest finite double. -/
def infinityRank : Nat :=
  0x7FF0000000000000

/--
The value of a rank in units of `2 ^ (-1074)`.

Bits 0 to 51 hold the fraction and the bits above it the exponent field. A rank with
exponent field zero is its own value; any other has the implicit leading bit.
-/
def magnitude (rank : Nat) : Nat :=
  let exponent := rank / Nat.pow 2 52
  let fraction := rank % Nat.pow 2 52
  if exponent = 0 then
    fraction
  else
    (Nat.pow 2 52 + fraction) * Nat.pow 2 (exponent - 1)

/-- The largest rank whose magnitude is at most `units`, if exponents had no bound. -/
def floorRank (units : Nat) : Nat :=
  let shift := units.log2 - 52
  shift * Nat.pow 2 52 + units / Nat.pow 2 shift

/--
The rank nearest to `num / den`; the even one of two equally near ranks.

The quotient lies between `floorRank` and the next rank, which is `2 ^ shift` units
above it, so comparing twice the remainder with that step decides.
-/
def nearestRank (num den : Nat) : Nat :=
  let scaled := num * Nat.pow 2 1074
  let units := scaled / den
  let shift := units.log2 - 52
  let low := floorRank units
  let gap := Nat.pow 2 shift
  let rest := scaled - units / gap * gap * den
  let step := den * gap
  let roundsUp := step < 2 * rest || (2 * rest = step && low % 2 = 1)
  min (if roundsUp then low + 1 else low) infinityRank

/-- The double of a rank. -/
def ofRank (rank : Nat) : Float :=
  Float.ofBits (UInt64.ofNat rank)

/-- The rank of a double without its sign. -/
def rank (x : Float) : Nat :=
  x.toBits.toNat % Nat.pow 2 63

/-- Whether the sign bit of a double is set. -/
def signBit (x : Float) : Bool :=
  Nat.pow 2 63 ≤ x.toBits.toNat

end Binary64

/-- The number `digits * 10 ^ exponent`. -/
structure Decimal where
  /-- The digits, read as one natural number. -/
  digits : Nat
  /-- The power of ten that the digits are multiplied by. -/
  exponent : Int
deriving DecidableEq, Repr

namespace Decimal

/--
The rank of the double nearest to a decimal.

Two tests come first, so that no huge power of ten is computed: a positive number of
digits times more than `10 ^ 400` is beyond the largest double, and a number below
`2 ^ (-1075)` is nearest to zero.
-/
def nearestRank (d : Decimal) : Nat :=
  if d.digits = 0 then
    0
  else if 400 < d.exponent then
    Binary64.infinityRank
  else if 0 ≤ d.exponent then
    Binary64.nearestRank (d.digits * Nat.pow 10 d.exponent.toNat) 1
  else if d.digits.log2 + 1100 < 3 * d.exponent.natAbs then
    0
  else
    Binary64.nearestRank d.digits (Nat.pow 10 d.exponent.natAbs)

/-- The double nearest to a decimal. -/
def toFloat (d : Decimal) : Float :=
  Binary64.ofRank d.nearestRank

end Decimal
end LiveForms
