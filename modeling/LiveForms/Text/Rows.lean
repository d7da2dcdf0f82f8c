/-!
# Live forms: rows of a text

A text that is drawn on the screen is cut into rows at its line feeds, and a field is
filled with spaces up to a least width counted in characters.

Main definitions:

* `Text.rows`: the rows of a text; a line feed, or a carriage return and a line feed,
  ends a row, and the end of the text ends one only if it is not empty.
* `Text.padRight`: a text filled with spaces on the right.
-/

namespace LiveForms
namespace Text

/-- A row that a line feed has ended, without the carriage return before it. -/
def dropCarriageReturn (row : List Char) : List Char :=
  if row.getLast? = some '\r' then row.dropLast else row

/-- The rows of `cs`, where `row` holds the characters of the row begun, last first. -/
def rowsFrom (row : List Char) : List Char → List (List Char)
  | [] => if row.isEmpty then [] else [row.reverse]
  | c :: cs =>
      if c = '\n' then
        dropCarriageReturn row.reverse :: rowsFrom [] cs
      else
        rowsFrom (c :: row) cs

/-- The rows of a text. -/
def rows (s : String) : List String :=
  (rowsFrom [] s.toList).map String.ofList

/-- A text of at least `width` characters, filled with spaces on the right. -/
def padRight (width : Nat) (s : String) : String :=
  s ++ String.ofList (List.replicate (width - s.length) ' ')

end Text
end LiveForms
