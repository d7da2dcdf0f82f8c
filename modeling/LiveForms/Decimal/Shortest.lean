import LiveForms.Decimal.Nearest

/-!
# Live forms: the shortest decimal of a double

A double is written with the fewest digits that are read back as the same double, and
of the candidates with that many digits the nearest one is taken.

The decimals with a given last place form a grid. Starting from a place above the
leading digit, `shortestFrom` refines the grid place by place, and stops at the first
grid that has a point among the numbers that round to the double. Only the two grid
points next to the double have to be tried. The grid of place `10 ^ (-1074)` holds
every double, so the search always ends with a hit.

Main definitions:

* `Binary64.rounds`: the numbers that round to a rank, as an interval around it.
* `Decimal.shortest`: the shortest decimal that is read as a given rank.
* `Decimal.strip`: a decimal without trailing zeros.
-/

namespace LiveForms
namespace Binary64

/--
Whether `num / den` rounds to `rank`: it lies between the midpoints to the two
neighbouring ranks, and may be equal to a midpoint only if the rank is even.

Twice a midpoint is the sum of two magnitudes, so both ends are compared after scaling
by `2 ^ 1075`.
-/
def rounds (rank num den : Nat) : Bool :=
  let value := num * Nat.pow 2 1075
  let low := (magnitude (rank - 1) + magnitude rank) * den
  let high := (magnitude rank + magnitude (rank + 1)) * den
  if rank % 2 = 0 then
    low ≤ value && value ≤ high
  else
    low < value && value < high

end Binary64

namespace Decimal

/-- The value of a decimal as a quotient: numerator, then denominator. -/
def ratio (d : Decimal) : Nat × Nat :=
  if 0 ≤ d.exponent then
    (d.digits * Nat.pow 10 d.exponent.toNat, 1)
  else
    (d.digits, Nat.pow 10 d.exponent.natAbs)

/-- Whether a decimal rounds to `rank`. -/
def roundsTo (d : Decimal) (rank : Nat) : Bool :=
  Binary64.rounds rank d.ratio.1 d.ratio.2

/-- The double of `rank` as a quotient of naturals, in units of `10 ^ place`. -/
def placeRatio (rank : Nat) (place : Int) : Nat × Nat :=
  if 0 ≤ place then
    (Binary64.magnitude rank, Nat.pow 2 1074 * Nat.pow 10 place.toNat)
  else
    (Binary64.magnitude rank * Nat.pow 10 place.natAbs, Nat.pow 2 1074)

/--
The multiple of `10 ^ place` that stands for `rank`, if one rounds to it: the nearer of
the multiples next to it below and above, the upper one of two equally near.
-/
def atPlace (rank : Nat) (place : Int) : Option Decimal :=
  let (num, den) := placeRatio rank place
  let below : Decimal := ⟨num / den, place⟩
  let above : Decimal := ⟨num / den + 1, place⟩
  let upperIsNearer : Bool := (2 * (num / den) + 1) * den ≤ 2 * num
  match below.roundsTo rank, above.roundsTo rank with
  | true, true => some (if upperIsNearer then above else below)
  | true, false => some below
  | false, true => some above
  | false, false => none

/-- The first hit on the grids of `place` and of the `steps` finer places below it. -/
def shortestFrom (rank : Nat) (place : Int) : Nat → Option Decimal
  | 0 => none
  | steps + 1 =>
      match atPlace rank place with
      | some d => some d
      | none => shortestFrom rank (place - 1) steps

/--
A place at or above the leading digit of `rank`: the binary logarithm of its value
times 0.30103, a little more than the decimal logarithm of two.
-/
def topPlace (rank : Nat) : Int :=
  (((Binary64.magnitude rank).log2 : Int) + 1 - 1074) * 30103 / 100000 + 1

/-- The decimal with its trailing zeros moved into the exponent, `fuel` at most. -/
def stripFrom (d : Decimal) : Nat → Decimal
  | 0 => d
  | fuel + 1 =>
      if d.digits ≠ 0 ∧ d.digits % 10 = 0 then
        stripFrom ⟨d.digits / 10, d.exponent + 1⟩ fuel
      else
        d

/-- The decimal without trailing zeros. -/
def strip (d : Decimal) : Decimal :=
  d.stripFrom d.digits.log2

/-- The shortest decimal that is read as the finite double of `rank`. -/
def shortest (rank : Nat) : Decimal :=
  let place := topPlace rank
  match shortestFrom rank place ((place + 1074).toNat + 1) with
  | some d => d.strip
  | none => ⟨0, 0⟩

end Decimal
end LiveForms
