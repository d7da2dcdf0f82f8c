import LiveForms.Toml.Scalar
import LiveForms.Toml.Table

/-!
# Live forms: reading TOML

A document is a list of lines: comments, headers of tables, and keys with their values.
Arrays may go over several lines, tables written as values may not.

Main definitions:

* `Toml.key?`: a key, which may consist of several parts.
* `Toml.value?`: a value.
* `Toml.read?`: the entries of a whole document.
-/

namespace LiveForms
namespace Toml

/-- How many parts a key may have, and how deep values may be nested. -/
def depthLimit : Nat :=
  79

/-- The characters of a part of a key that is written without quotes. -/
def isBare (c : Char) : Bool :=
  c.isAlphanum || c = '_' || c = '-'

/-- One part of a key. -/
def keyPart? (cs : List Char) : Option (String × List Char) :=
  match cs with
  | [] => none
  | c :: _ =>
      if c = '"' || c = '\'' then
        (line? cs).map fun (part, rest) => (String.ofList part, rest)
      else if isBare c then
        some (String.ofList (cs.takeWhile isBare), cs.dropWhile isBare)
      else
        none

/-- The parts of a key, blanks around each skipped. -/
def keyParts? : Nat → List Char → Option (List String × List Char)
  | 0, _ => none
  | fuel + 1, cs =>
      match keyPart? (skipBlanks cs) with
      | none => none
      | some (part, rest) =>
          match skipBlanks rest with
          | '.' :: rest =>
              (keyParts? fuel rest).map fun (parts, rest) => (part :: parts, rest)
          | rest => some ([part], rest)

/-- A key: the parts before its last part, the last part, and the rest. -/
def key? (cs : List Char) : Option (List String × String × List Char) := do
  let (parts, rest) ← keyParts? depthLimit cs
  let last ← parts.getLast?
  return (parts.dropLast, last, rest)

mutual

/-- Reads a value, with at most `depth` arrays and tables around it. -/
def value? (depth : Nat) : Nat → List Char → Option (Item × List Char)
  | 0, _ => none
  | fuel + 1, cs =>
      match cs with
      | '[' :: rest =>
          if depth = 0 then none
          else (items? (depth - 1) fuel rest).map fun (items, rest) => (.array items, rest)
      | '\x7b' :: rest =>
          if depth = 0 then none
          else
            match skipBlanks rest with
            | '\x7d' :: rest => some (.inline false [], rest)
            | rest =>
                (entries? (depth - 1) fuel [] rest).map fun (entries, rest) =>
                  (.inline false entries, rest)
      | cs =>
          match string? cs with
          | some (text, rest) => some (.text (String.ofList text), rest)
          | none =>
              if startsDateTime cs then
                (dateTime? cs).map fun rest => (.dateTime, rest)
              else
                (scalar? cs).map fun rest => (.scalar, rest)

/-- Reads the items of an array and its closing bracket; the last comma is optional. -/
def items? (depth : Nat) : Nat → List Char → Option (List Item × List Char)
  | 0, _ => none
  | fuel + 1, cs =>
      match skipLines cs.length cs with
      | ']' :: rest => some ([], rest)
      | cs =>
          match value? depth fuel cs with
          | none => none
          | some (item, rest) =>
              match skipLines rest.length rest with
              | ']' :: rest => some ([item], rest)
              | ',' :: rest =>
                  (items? depth fuel rest).map fun (items, rest) => (item :: items, rest)
              | _ => none

/-- Reads the entries of a table written as a value, at least one, and its brace. -/
def entries? (depth : Nat) : Nat → List (String × Item) → List Char →
    Option (List (String × Item) × List Char)
  | 0, _, _ => none
  | fuel + 1, entries, cs =>
      match key? cs with
      | some (path, key, '=' :: rest) =>
          match value? depth fuel (skipBlanks rest) with
          | none => none
          | some (item, rest) =>
              match defineInline? key item path entries, skipBlanks rest with
              | some entries, '\x7d' :: rest => some (entries, rest)
              | some entries, ',' :: rest => entries? depth fuel entries rest
              | _, _ => none
      | _ => none

end

/-- Reads a header after its opening brackets, up to the end of its line. -/
def header? (closing : List Char) (cs : List Char) :
    Option (List String × String × List Char) := do
  let (path, key, rest) ← key? cs
  let rest ← trailing? (← word? closing rest)
  return (path, key, rest)

/-- A document that has been read up to some line. -/
structure Progress where
  root : Table := {}
  /-- The path of the last header. -/
  header : List String := []

/-- Reads one line, which starts with no blank and is not empty. -/
def step? (p : Progress) : List Char → Option (Progress × List Char)
  | '#' :: rest => (trailing? ('#' :: rest)).map fun rest => (p, rest)
  | '\n' :: rest => some (p, rest)
  | '\r' :: '\n' :: rest => some (p, rest)
  | '[' :: '[' :: rest => do
      let (path, key, rest) ← header? [']', ']'] rest
      return (⟨← p.root.openElement? path key, path ++ [key]⟩, rest)
  | '[' :: rest => do
      let (path, key, rest) ← header? [']'] rest
      return (⟨← p.root.openTable? path key, path ++ [key]⟩, rest)
  | cs =>
      match key? cs with
      | some (path, key, '=' :: rest) => do
          let (item, rest) ← value? depthLimit (2 * rest.length + 2) (skipBlanks rest)
          let rest ← trailing? rest
          return ({ p with root := ← p.root.define? p.header path key item }, rest)
      | _ => none

/-- Reads all lines, at most `fuel` of them. -/
def readFrom? (p : Progress) : Nat → List Char → Option Table
  | 0, _ => none
  | fuel + 1, cs =>
      match skipBlanks cs with
      | [] => some p.root
      | cs =>
          match step? p cs with
          | some (p, rest) => readFrom? p fuel rest
          | none => none

/-- A text without the byte order mark at its start. -/
def dropMark : List Char → List Char
  | '\ufeff' :: rest => rest
  | cs => cs

/-- The entries of a whole document. -/
def read? (text : String) : Option (List (String × Item)) :=
  let cs := dropMark text.toList
  (readFrom? {} (cs.length + 1) cs).map Table.entries

end Toml
end LiveForms
