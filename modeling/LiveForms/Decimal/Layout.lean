import LiveForms.Decimal.Shortest

/-!
# Live forms: the written form of a number

Numbers are shown in two places, the result of a formula and the message about an
unexpected token. Both write the shortest digits, positionally inside a range of
magnitudes and with a power of ten outside it; what differs is one `Layout` record.

Main definitions:

* `Decimal.positional`, `Decimal.scientific`: the two notations.
* `Layout`: where positional notation is used, and the marks written with it.
* `Layout.write`: the text of a double.
-/

namespace LiveForms
namespace Decimal

/-- The decimal digits of the decimal. -/
def digitChars (d : Decimal) : List Char :=
  Nat.toDigits 10 d.digits

/-- How many digits stand before the decimal point; zero or less for a pure fraction. -/
def point (d : Decimal) : Int :=
  d.digitChars.length + d.exponent

/-- Positional notation, with `whole` after the digits of a whole number. -/
def positional (d : Decimal) (whole : List Char) : List Char :=
  let digits := d.digitChars
  if d.point ≤ 0 then
    '0' :: '.' :: (List.replicate d.point.natAbs '0' ++ digits)
  else if digits.length ≤ d.point.toNat then
    digits ++ List.replicate (d.point.toNat - digits.length) '0' ++ whole
  else
    digits.take d.point.toNat ++ '.' :: digits.drop d.point.toNat

/-- One digit, the others after a point, and the power of ten after an `e`. -/
def scientific (d : Decimal) (plus : List Char) : List Char :=
  let mantissa :=
    match d.digitChars with
    | [] => []
    | [digit] => [digit]
    | digit :: digits => digit :: '.' :: digits
  let power := d.point - 1
  let sign := if power < 0 then ['-'] else plus
  mantissa ++ 'e' :: (sign ++ Nat.toDigits 10 power.natAbs)

end Decimal

/-- How numbers are laid out in one kind of text. -/
structure Layout where
  /-- The least magnitude in positional notation. -/
  least : Float
  /-- The first magnitude above positional notation. -/
  limit : Float
  /-- What follows the digits of a whole number in positional notation. -/
  whole : List Char
  /-- The sign of a power of ten that is not negative. -/
  plus : List Char
  /-- Whether the sign of a negative zero is written. -/
  signedZero : Bool

namespace Layout

/--
Results of formulas: positional from `1e-6` up to `1e21`, whole numbers without a
point, powers of ten with either sign, and one zero.
-/
def result : Layout where
  least := 1e-6
  limit := 1e21
  whole := []
  plus := ['+']
  signedZero := false

/--
Numbers inside messages: positional from `1e-4` up to `1e16`, whole numbers with `.0`,
powers of ten without a plus sign.
-/
def message : Layout where
  least := 1e-4
  limit := 1e16
  whole := ['.', '0']
  plus := []
  signedZero := true

/-- The text of a double without its sign. -/
def writeMagnitude (layout : Layout) (x : Float) : List Char :=
  if x == 0.0 then
    '0' :: layout.whole
  else if x.isInf then
    ['i', 'n', 'f']
  else
    let d := Decimal.shortest (Binary64.rank x)
    if layout.least ≤ x.abs ∧ x.abs < layout.limit then
      d.positional layout.whole
    else
      d.scientific layout.plus

/-- The text of a double. -/
def write (layout : Layout) (x : Float) : List Char :=
  if x.isNaN then
    ['N', 'a', 'N']
  else if Binary64.signBit x && (layout.signedZero || !(x == 0.0)) then
    '-' :: layout.writeMagnitude x
  else
    layout.writeMagnitude x

end Layout
end LiveForms
