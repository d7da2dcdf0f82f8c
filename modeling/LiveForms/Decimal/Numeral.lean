import LiveForms.Decimal.Nearest

/-!
# Live forms: numerals

A text denotes a number in three places: a numeral inside an expression, the value of
an input that an expression names, and a grade or credit cell. The three accept
different spellings; all of them are split here into an optional sign, digits, an
optional point and fraction, and an optional power of ten, and read as the nearest
double.

Main definitions:

* `Numeral`: a decimal in its written parts, and `Numeral.value`, its double.
* `Numeral.plain?`: the reading of an input value, a plain signed decimal.
* `Numeral.leading?`: the reading of a cell, the decimal that the text starts with.
-/

namespace LiveForms

/-- A written decimal without its sign. -/
structure Numeral where
  /-- The digits before the point. -/
  whole : List Char
  /-- The digits after the point. -/
  fraction : List Char
  power : Int
deriving DecidableEq, Repr

namespace Numeral

/-- The decimal that a numeral denotes. -/
def decimal (n : Numeral) : Decimal where
  digits := Nat.ofDigitChars 10 (n.whole ++ n.fraction) 0
  exponent := n.power - n.fraction.length

/-- The double that a numeral denotes. -/
def value (n : Numeral) : Float :=
  n.decimal.toFloat

/-- A number with the sign that was written in front of it. -/
def signed (negative : Bool) (x : Float) : Float :=
  if negative then -x else x

/-- The leading digits of a text, and the rest. -/
def digits (cs : List Char) : List Char × List Char :=
  (cs.takeWhile Char.isDigit, cs.dropWhile Char.isDigit)

/-- A minus sign at the start of a text, and the rest. -/
def minus : List Char → Bool × List Char
  | '-' :: cs => (true, cs)
  | cs => (false, cs)

/-- Either sign at the start of a text, and the rest. -/
def sign : List Char → Bool × List Char
  | '-' :: cs => (true, cs)
  | '+' :: cs => (false, cs)
  | cs => (false, cs)

/--
The number written by a whole text: an optional minus, digits, an optional point, and
at least one digit at the end.
-/
def plain? (cs : List Char) : Option Float :=
  let (negative, unsigned) := minus cs
  let (whole, rest) := digits unsigned
  match rest with
  | [] =>
      if whole.isEmpty then none else some (signed negative (value ⟨whole, [], 0⟩))
  | '.' :: rest =>
      let (fraction, rest) := digits rest
      if fraction.isEmpty || !rest.isEmpty then
        none
      else
        some (signed negative (value ⟨whole, fraction, 0⟩))
  | _ => none

/--
The power of ten at the start of a text: `e` or `E`, an optional sign and at least one
digit. An incomplete one counts as absent.
-/
def leadingPower : List Char → Int
  | c :: cs =>
      if c = 'e' || c = 'E' then
        let (negative, unsigned) := sign cs
        let exponent : Int := Nat.ofDigitChars 10 (digits unsigned).1 0
        if negative then -exponent else exponent
      else
        0
  | [] => 0

/-- The mantissa at the start of a text, and the rest: digits, a point, or both. -/
def mantissa? (cs : List Char) : Option (List Char × List Char × List Char) :=
  let (whole, rest) := digits cs
  match rest with
  | '.' :: rest =>
      let (fraction, rest) := digits rest
      if whole.isEmpty && fraction.isEmpty then none else some (whole, fraction, rest)
  | _ => if whole.isEmpty then none else some (whole, [], rest)

/-- The word that denotes an unbounded number. -/
def infinityWord : List Char :=
  ['I', 'n', 'f', 'i', 'n', 'i', 't', 'y']

/--
The number that a text starts with: an optional sign, then the word `Infinity` or a
mantissa with an optional power of ten. What follows it does not matter.
-/
def leading? (cs : List Char) : Option Float :=
  let (negative, unsigned) := sign cs
  if infinityWord.isPrefixOf unsigned then
    some (signed negative (Binary64.ofRank Binary64.infinityRank))
  else
    match mantissa? unsigned with
    | none => none
    | some (whole, fraction, rest) =>
        some (signed negative (value ⟨whole, fraction, leadingPower rest⟩))

end Numeral
end LiveForms
