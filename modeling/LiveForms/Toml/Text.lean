/-!
# Live forms: strings in TOML

Strings stand between double quotes, with escapes, or between single quotes, without
them; three quotes instead of one allow line breaks. This module also holds the blanks,
comments and line ends between the parts of a document.

Main definitions:

* `Toml.skipBlanks`, `Toml.skipComment`, `Toml.lineEnd?`, `Toml.skipLines`: what
  separates the parts of a document.
* `Toml.line?`: a string on one line.
* `Toml.string?`: a string of any form.

All readings give the text that they leave, and nothing at the first error.
-/

namespace LiveForms
namespace Toml

/-- Spaces and tabs. -/
def isBlank (c : Char) : Bool :=
  c = ' ' || c = '\t'

/-- A text without the spaces and tabs it starts with. -/
def skipBlanks (cs : List Char) : List Char :=
  cs.dropWhile isBlank

/-- The characters that may stand in a string or in a comment as they are. -/
def isPlain (c : Char) : Bool :=
  c = '\t' || (0x20 ≤ c.toNat && c.toNat ≤ 0x7E) || 0x80 ≤ c.toNat

/-- Skips one line feed, or a carriage return with a line feed. -/
def newline? : List Char → Option (List Char)
  | '\n' :: rest => some rest
  | '\r' :: '\n' :: rest => some rest
  | _ => none

/-- Skips a comment, if there is one, up to the end of its line. -/
def skipComment : List Char → List Char
  | '#' :: rest => rest.dropWhile isPlain
  | cs => cs

/-- Skips a line end, or stays at the end of the text. -/
def lineEnd? : List Char → Option (List Char)
  | [] => some []
  | cs => newline? cs

/-- Skips blanks and a comment, up to and including the end of the line. -/
def trailing? (cs : List Char) : Option (List Char) :=
  lineEnd? (skipComment (skipBlanks cs))

/-- Skips blanks and line ends, at most `fuel` of them. -/
def skipSpace : Nat → List Char → List Char
  | 0, cs => cs
  | fuel + 1, cs =>
      match newline? (skipBlanks cs) with
      | some rest => skipSpace fuel rest
      | none => skipBlanks cs

/-- Skips blanks, comments and line ends, at most `fuel` lines of them. -/
def skipLines : Nat → List Char → List Char
  | 0, cs => cs
  | fuel + 1, cs =>
      match newline? (skipComment (skipBlanks cs)) with
      | some rest => skipLines fuel rest
      | none => skipBlanks cs

/-- The value of a hexadecimal digit. -/
def hexDigit? (c : Char) : Option Nat :=
  if c.isDigit then
    some (c.toNat - '0'.toNat)
  else if 'a' ≤ c && c ≤ 'f' then
    some (c.toNat - 'a'.toNat + 10)
  else if 'A' ≤ c && c ≤ 'F' then
    some (c.toNat - 'A'.toNat + 10)
  else
    none

/-- The character whose code point is written with `count` hexadecimal digits. -/
def codePoint? (count : Nat) (cs : List Char) : Option (Char × List Char) := do
  let digits ← (cs.take count).mapM hexDigit?
  let code := digits.foldl (fun code digit => code * 16 + digit) 0
  if digits.length = count ∧ code.isValidChar then
    some (Char.ofNat code, cs.drop count)
  else
    none

/-- The character of the escape after a backslash. -/
def escape? : List Char → Option (Char × List Char)
  | 'b' :: rest => some ('\x08', rest)
  | 'f' :: rest => some ('\x0c', rest)
  | 'n' :: rest => some ('\n', rest)
  | 'r' :: rest => some ('\r', rest)
  | 't' :: rest => some ('\t', rest)
  | '\\' :: rest => some ('\\', rest)
  | '"' :: rest => some ('"', rest)
  | 'u' :: rest => codePoint? 4 rest
  | 'U' :: rest => codePoint? 8 rest
  | _ => none

/-- Reads a one-line string with escapes after its opening quote. -/
def basic? (done : List Char) : Nat → List Char → Option (List Char × List Char)
  | 0, _ => none
  | _ + 1, [] => none
  | fuel + 1, c :: rest =>
      if c = '"' then
        some (done.reverse, rest)
      else if c = '\\' then
        match escape? rest with
        | some (e, rest) => basic? (e :: done) fuel rest
        | none => none
      else if isPlain c then
        basic? (c :: done) fuel rest
      else
        none

/-- Reads a one-line string without escapes after its opening quote. -/
def literal? (cs : List Char) : Option (List Char × List Char) :=
  let isInner (c : Char) : Bool := isPlain c && c != '\''
  match cs.dropWhile isInner with
  | '\'' :: rest => some (cs.takeWhile isInner, rest)
  | _ => none

/-- Reads a string on one line. -/
def line? : List Char → Option (List Char × List Char)
  | '"' :: rest => basic? [] (rest.length + 1) rest
  | '\'' :: rest => literal? rest
  | _ => none

/--
Reads the quotes at the end of a string over several lines: one or two of them belong to
the string if more follow than its closing three.
-/
def closing? (quote : Char) (done cs : List Char) : Option (List Char × List Char) :=
  let run := (cs.takeWhile (· = quote)).length
  if 3 ≤ run then
    let inner := min (run - 3) 2
    some (done.reverse ++ List.replicate inner quote, cs.drop (inner + 3))
  else
    none

/-- Reads a string over several lines after its opening quotes and first line end. -/
def multiline? (quote : Char) (done : List Char) : Nat → List Char →
    Option (List Char × List Char)
  | 0, _ => none
  | _ + 1, [] => none
  | fuel + 1, c :: rest =>
      if c = quote then
        match closing? quote done (c :: rest) with
        | some result => some result
        | none => multiline? quote (c :: done) fuel rest
      else
        match newline? (c :: rest) with
        | some rest => multiline? quote ('\n' :: done) fuel rest
        | none =>
            if c = '\\' ∧ quote = '"' then
              match newline? (skipBlanks rest) with
              | some rest => multiline? quote done fuel (skipSpace rest.length rest)
              | none =>
                  match escape? rest with
                  | some (e, rest) => multiline? quote (e :: done) fuel rest
                  | none => none
            else if isPlain c then
              multiline? quote (c :: done) fuel rest
            else
              none

/-- A text without one line end at its start. -/
def dropNewline (cs : List Char) : List Char :=
  (newline? cs).getD cs

/-- Reads a string of any form. -/
def string? : List Char → Option (List Char × List Char)
  | '"' :: '"' :: '"' :: rest => multiline? '"' [] (rest.length + 1) (dropNewline rest)
  | '\'' :: '\'' :: '\'' :: rest => multiline? '\'' [] (rest.length + 1) (dropNewline rest)
  | cs => line? cs

end Toml
end LiveForms
