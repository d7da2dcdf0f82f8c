/-!
# Live forms: reading JSON

Pages are written in JSON. This module reads a whole text strictly: one value, with
nothing but white space around it.

A value that a page does not ask for only has to be well formed. So the reading keeps
what every value needs to be judged later: numbers without their value, since no field
of a page is a number, and strings whose escapes name half of a surrogate pair as
strings without a text.

Main definitions:

* `Json`: the values.
* `Json.read?`: the value that a text denotes.
-/

namespace LiveForms

/-- JSON values, as far as a page can tell them apart. -/
inductive Json where
  | null
  | bool (value : Bool)
  | number
  /-- A string; `none` when it holds half of a surrogate pair. -/
  | string (text : Option String)
  | array (items : List Json)
  /-- The members in the order in which they are written, repeated names included. -/
  | object (members : List (Option String × Json))
deriving Repr, Inhabited

namespace Json

/-- The white space between the marks of a JSON text. -/
def isSpace (c : Char) : Bool :=
  c = ' ' || c = '\n' || c = '\t' || c = '\r'

/-- A text without the white space it starts with. -/
def skip (cs : List Char) : List Char :=
  cs.dropWhile isSpace

/-- The value of a hexadecimal digit. -/
def hexDigit? (c : Char) : Option Nat :=
  if c.isDigit then
    some (c.toNat - '0'.toNat)
  else if 'a' ≤ c && c ≤ 'f' then
    some (c.toNat - 'a'.toNat + 10)
  else if 'A' ≤ c && c ≤ 'F' then
    some (c.toNat - 'A'.toNat + 10)
  else
    none

/-- The number that four hexadecimal digits at the start of a text denote. -/
def hexQuad? : List Char → Option (Nat × List Char)
  | a :: b :: c :: d :: rest =>
      match hexDigit? a, hexDigit? b, hexDigit? c, hexDigit? d with
      | some a, some b, some c, some d => some (((a * 16 + b) * 16 + c) * 16 + d, rest)
      | _, _, _, _ => none
  | _ => none

/-- The first half of a surrogate pair. -/
def isHighSurrogate (unit : Nat) : Bool :=
  0xD800 ≤ unit && unit < 0xDC00

/-- The second half of a surrogate pair. -/
def isLowSurrogate (unit : Nat) : Bool :=
  0xDC00 ≤ unit && unit < 0xE000

/-- The character of a surrogate pair. -/
def pairChar (high low : Nat) : Char :=
  Char.ofNat (0x10000 + (high - 0xD800) * 0x400 + (low - 0xDC00))

/-- The characters that a backslash and one letter stand for. -/
def simpleEscape? : Char → Option Char
  | '"' => some '"'
  | '\\' => some '\\'
  | '/' => some '/'
  | 'b' => some '\x08'
  | 'f' => some '\x0c'
  | 'n' => some '\n'
  | 'r' => some '\r'
  | 't' => some '\t'
  | _ => none

/-- The second half of a surrogate pair, if a text starts with its escape. -/
def lowHalf? : List Char → Option (Nat × List Char)
  | '\\' :: 'u' :: rest =>
      match hexQuad? rest with
      | some (unit, rest) => if isLowSurrogate unit then some (unit, rest) else none
      | none => none
  | _ => none

/-- The escape after a backslash: its character, `none` for half a pair, and the rest. -/
def escape? : List Char → Option (Option Char × List Char)
  | 'u' :: rest =>
      match hexQuad? rest with
      | none => none
      | some (unit, rest) =>
          if isHighSurrogate unit then
            match lowHalf? rest with
            | some (low, rest) => some (some (pairChar unit low), rest)
            | none => some (none, rest)
          else if isLowSurrogate unit then
            some (none, rest)
          else
            some (some (Char.ofNat unit), rest)
  | c :: rest => (simpleEscape? c).map fun e => (some e, rest)
  | [] => none

/--
Reads a string after its opening quote. `done` holds the characters read, last first,
or `none` after half a surrogate pair; control characters have to be escaped.
-/
def stringFrom? (done : Option (List Char)) : Nat → List Char → Option (Option String × List Char)
  | 0, _ => none
  | _ + 1, [] => none
  | fuel + 1, c :: rest =>
      if c = '"' then
        some (done.map fun cs => String.ofList cs.reverse, rest)
      else if c = '\\' then
        match escape? rest with
        | none => none
        | some (e, rest) =>
            stringFrom? (done.bind fun cs => e.map fun e => e :: cs) fuel rest
      else if c.toNat < 0x20 then
        none
      else
        stringFrom? (done.map fun cs => c :: cs) fuel rest

/-- Reads a string after its opening quote, at most `fuel` marks long. -/
def string? (fuel : Nat) (cs : List Char) : Option (Option String × List Char) :=
  stringFrom? (some []) fuel cs

/-- Skips at least one digit. -/
def digits? (cs : List Char) : Option (List Char) :=
  if cs.head?.any Char.isDigit then some (cs.dropWhile Char.isDigit) else none

/-- Skips the digits before the point; only a lone zero may start with a zero. -/
def whole? : List Char → Option (List Char)
  | '0' :: rest => some rest
  | cs => digits? cs

/-- Skips a point and the digits after it, if there is a point. -/
def fraction? : List Char → Option (List Char)
  | '.' :: rest => digits? rest
  | cs => some cs

/-- A text without a sign at its start. -/
def dropSign : List Char → List Char
  | '+' :: rest => rest
  | '-' :: rest => rest
  | cs => cs

/-- Skips a power of ten, if there is one. -/
def exponent? : List Char → Option (List Char)
  | 'e' :: rest => digits? (dropSign rest)
  | 'E' :: rest => digits? (dropSign rest)
  | cs => some cs

/-- Skips a number. -/
def number? (cs : List Char) : Option (List Char) :=
  let unsigned :=
    match cs with
    | '-' :: rest => rest
    | _ => cs
  (whole? unsigned).bind fun rest => (fraction? rest).bind exponent?

/-- Skips one given word. -/
def word? (word cs : List Char) : Option (List Char) :=
  if word.isPrefixOf cs then some (cs.drop word.length) else none

mutual

/-- Reads the value that a text starts with. -/
def value? : Nat → List Char → Option (Json × List Char)
  | 0, _ => none
  | fuel + 1, cs =>
      match skip cs with
      | [] => none
      | '"' :: rest => (string? fuel rest).map fun (text, rest) => (.string text, rest)
      | '[' :: rest =>
          match skip rest with
          | ']' :: rest => some (.array [], rest)
          | rest => (items? fuel rest).map fun (items, rest) => (.array items, rest)
      | '\x7b' :: rest =>
          match skip rest with
          | '\x7d' :: rest => some (.object [], rest)
          | rest => (members? fuel rest).map fun (members, rest) => (.object members, rest)
      | 'n' :: rest => (word? ['u', 'l', 'l'] rest).map fun rest => (.null, rest)
      | 't' :: rest => (word? ['r', 'u', 'e'] rest).map fun rest => (.bool true, rest)
      | 'f' :: rest => (word? ['a', 'l', 's', 'e'] rest).map fun rest => (.bool false, rest)
      | cs => (number? cs).map fun rest => (.number, rest)

/-- Reads the items of an array, at least one, and its closing bracket. -/
def items? : Nat → List Char → Option (List Json × List Char)
  | 0, _ => none
  | fuel + 1, cs =>
      match value? fuel cs with
      | none => none
      | some (item, rest) =>
          match skip rest with
          | ']' :: rest => some ([item], rest)
          | ',' :: rest => (items? fuel rest).map fun (items, rest) => (item :: items, rest)
          | _ => none

/-- Reads the members of an object, at least one, and its closing brace. -/
def members? : Nat → List Char → Option (List (Option String × Json) × List Char)
  | 0, _ => none
  | fuel + 1, cs =>
      match skip cs with
      | '"' :: rest =>
          match string? fuel rest with
          | none => none
          | some (name, rest) =>
              match skip rest with
              | ':' :: rest =>
                  match value? fuel rest with
                  | none => none
                  | some (value, rest) =>
                      match skip rest with
                      | '\x7d' :: rest => some ([(name, value)], rest)
                      | ',' :: rest =>
                          (members? fuel rest).map fun (members, rest) =>
                            ((name, value) :: members, rest)
                      | _ => none
              | _ => none
      | _ => none

end

/-- The value that a whole text denotes. -/
def read? (text : String) : Option Json :=
  let cs := text.toList
  match value? (2 * cs.length + 2) cs with
  | some (json, rest) => if (skip rest).isEmpty then some json else none
  | none => none

end Json
end LiveForms
