import LiveForms.Decimal.Numeral
import LiveForms.Toml.Text

/-!
# Live forms: numbers, dates and truth values in TOML

No setting asks for the value of a number, a date or a truth value, so these are only
checked: each function skips one of them and gives the text after it, or nothing if none
stands there or the one that does has no value.

Main definitions:

* `Toml.integer?`: integers of four bases, within 64 bits.
* `Toml.float?`: floats, unless they are beyond the largest one.
* `Toml.dateTime?`: dates, times and both.
* `Toml.startsDateTime`: whether a text has to be one of these.
* `Toml.scalar?`: numbers and truth values.
-/

namespace LiveForms
namespace Toml

/--
Skips digits of one kind, at least one, with single underscores between them, and gives
the digits.
-/
def digitRun? (isDigit : Char → Bool) : List Char → Option (List Char × List Char)
  | [] => none
  | c :: rest =>
      if !isDigit c then
        none
      else
        match rest with
        | '_' :: rest =>
            match digitRun? isDigit rest with
            | some (digits, rest) => some (c :: digits, rest)
            | none => none
        | rest =>
            match digitRun? isDigit rest with
            | some (digits, rest) => some (c :: digits, rest)
            | none => if rest.head?.any isDigit then none else some ([c], rest)

/-- An optional sign: whether it is a minus, and the rest. -/
def sign : List Char → Bool × List Char :=
  Numeral.sign

/-- The decimal digits before a point; only a lone zero may start with a zero. -/
def wholeDigits? : List Char → Option (List Char × List Char)
  | '0' :: rest => some (['0'], rest)
  | cs => digitRun? Char.isDigit cs

/-- The number that digits of some base denote. -/
def digitsValue (base : Nat) (digits : List Char) : Nat :=
  digits.foldl (fun n c => n * base + (hexDigit? c).getD 0) 0

/-- Skips an integer of base sixteen, eight or two after its two marks. -/
def based? (base : Nat) (cs : List Char) : Option (List Char) := do
  let (digits, rest) ← digitRun? (fun c => (hexDigit? c).any (· < base)) cs
  if digitsValue base digits < Nat.pow 2 63 then some rest else none

/-- Skips an integer. -/
def integer? : List Char → Option (List Char)
  | '0' :: 'x' :: rest => based? 16 rest
  | '0' :: 'o' :: rest => based? 8 rest
  | '0' :: 'b' :: rest => based? 2 rest
  | cs => do
      let (negative, unsigned) := sign cs
      let (digits, rest) ← wholeDigits? unsigned
      let limit := if negative then Nat.pow 2 63 else Nat.pow 2 63 - 1
      if digitsValue 10 digits ≤ limit then some rest else none

/-- The power of ten after a mantissa, and the rest. -/
def exponent? : List Char → Option (Int × List Char)
  | c :: rest =>
      if c = 'e' || c = 'E' then do
        let (negative, unsigned) := sign rest
        let (digits, rest) ← digitRun? Char.isDigit unsigned
        let power : Int := digitsValue 10 digits
        return (if negative then -power else power, rest)
      else
        none
  | [] => none

/-- The fraction and the power of ten after whole digits; one of them has to be there. -/
def floatTail? : List Char → Option (List Char × Int × List Char)
  | '.' :: rest => do
      let (fraction, rest) ← digitRun? Char.isDigit rest
      match rest with
      | 'e' :: _ =>
          let (power, rest) ← exponent? rest
          return (fraction, power, rest)
      | 'E' :: _ =>
          let (power, rest) ← exponent? rest
          return (fraction, power, rest)
      | _ => return (fraction, 0, rest)
  | cs => do
      let (power, rest) ← exponent? cs
      return ([], power, rest)

/-- Skips a written float; one that rounds to positive infinity is refused. -/
def decimalFloat? (cs : List Char) : Option (List Char) := do
  let (negative, unsigned) := sign cs
  let (whole, rest) ← wholeDigits? unsigned
  let (fraction, power, rest) ← floatTail? rest
  let rank := (Numeral.decimal ⟨whole, fraction, power⟩).nearestRank
  if !negative && rank = Binary64.infinityRank then none else some rest

/-- Skips one given word. -/
def word? (word cs : List Char) : Option (List Char) :=
  if word.isPrefixOf cs then some (cs.drop word.length) else none

/-- Skips an infinity or a NaN. -/
def specialFloat? (cs : List Char) : Option (List Char) :=
  let unsigned := (sign cs).2
  word? ['i', 'n', 'f'] unsigned <|> word? ['n', 'a', 'n'] unsigned

/-- Skips a float. -/
def float? (cs : List Char) : Option (List Char) :=
  decimalFloat? cs <|> specialFloat? cs

/-- The number that exactly `count` decimal digits denote, and the rest. -/
def fixedDigits? (count : Nat) (cs : List Char) : Option (Nat × List Char) :=
  let digits := cs.take count
  if digits.length = count ∧ digits.all Char.isDigit then
    some (digitsValue 10 digits, cs.drop count)
  else
    none

/-- Two digits with a value in a range. -/
def twoDigits? (low high : Nat) (cs : List Char) : Option (Nat × List Char) := do
  let (n, rest) ← fixedDigits? 2 cs
  if low ≤ n ∧ n ≤ high then some (n, rest) else none

/-- How many days a month has. -/
def daysOfMonth (year month : Nat) : Nat :=
  if month = 2 then
    if year % 4 = 0 ∧ (year % 100 ≠ 0 ∨ year % 400 = 0) then 29 else 28
  else if month = 4 ∨ month = 6 ∨ month = 9 ∨ month = 11 then
    30
  else
    31

/-- Skips one given character. -/
def mark? (c : Char) : List Char → Option (List Char)
  | d :: rest => if d = c then some rest else none
  | [] => none

/-- Skips a date. -/
def date? (cs : List Char) : Option (List Char) := do
  let (year, rest) ← fixedDigits? 4 cs
  let (month, rest) ← twoDigits? 1 12 (← mark? '-' rest)
  let (_, rest) ← twoDigits? 1 (daysOfMonth year month) (← mark? '-' rest)
  return rest

/-- Skips the fraction of a second, if there is one. -/
def secondFraction? : List Char → Option (List Char)
  | '.' :: rest =>
      if rest.head?.any Char.isDigit then some (rest.dropWhile Char.isDigit) else none
  | cs => some cs

/-- Skips a time. -/
def time? (cs : List Char) : Option (List Char) := do
  let (_, rest) ← twoDigits? 0 23 cs
  let (_, rest) ← twoDigits? 0 59 (← mark? ':' rest)
  let (_, rest) ← twoDigits? 0 60 (← mark? ':' rest)
  secondFraction? rest

/-- Skips the distance to universal time, if there is one. -/
def offset? : List Char → Option (List Char)
  | c :: rest =>
      if c = 'Z' || c = 'z' then
        some rest
      else if c = '+' || c = '-' then do
        let (_, rest) ← twoDigits? 0 23 rest
        let (_, rest) ← twoDigits? 0 59 (← mark? ':' rest)
        return rest
      else
        some (c :: rest)
  | [] => some []

/-- Skips the time after a date, if there is one. -/
def timeOfDay? : List Char → Option (List Char)
  | c :: rest =>
      if c = 'T' || c = 't' || c = ' ' then
        match twoDigits? 0 23 rest with
        | some (_, ':' :: _) => (time? rest).bind offset?
        | _ => some (c :: rest)
      else
        some (c :: rest)
  | [] => some []

/-- Skips a date, a time, or a date with a time. -/
def dateTime? (cs : List Char) : Option (List Char) :=
  match date? cs with
  | some rest => timeOfDay? rest
  | none => time? cs

/-- Whether a text starts like a date or a time. -/
def startsDateTime (cs : List Char) : Bool :=
  match fixedDigits? 4 cs with
  | some (_, '-' :: _) => true
  | _ =>
      match twoDigits? 0 23 cs with
      | some (_, ':' :: _) => true
      | _ => false

/-- Skips a truth value. -/
def truth? (cs : List Char) : Option (List Char) :=
  word? ['t', 'r', 'u', 'e'] cs <|> word? ['f', 'a', 'l', 's', 'e'] cs

/-- Skips a number or a truth value. -/
def scalar? (cs : List Char) : Option (List Char) :=
  truth? cs <|> float? cs <|> integer? cs

end Toml
end LiveForms
