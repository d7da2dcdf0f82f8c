/-!
# Live forms: tables in TOML

A document fills one tree of tables. Headers and dotted keys name places in it; a place
may be defined once, and how it was first defined decides what may be added later.

Main definitions:

* `Toml.Item`: what stands at a place, and `Toml.Table`, a table with its history.
* `Toml.Table.descend?`: a change of the table at a path.
* `Toml.Table.define?`: a key with its value.
* `Toml.Table.openTable?`, `Toml.Table.openElement?`: the two kinds of header.
-/

namespace LiveForms
namespace Toml

/-- What stands at a place of a document. -/
inductive Item where
  | text (value : String)
  /-- A number or a truth value. -/
  | scalar
  | dateTime
  /-- An array that is written as a value. -/
  | array (items : List Item)
  /-- A table that is written as a value, or that dotted keys make inside one. -/
  | inline (dotted : Bool) (entries : List (String × Item))
  /-- A table that headers or dotted keys define. -/
  | table (implicit dotted : Bool) (entries : List (String × Item))
  /-- The tables that the headers of an array define. -/
  | tables (elements : List (List (String × Item)))
deriving Repr, Inhabited

/-- A table under construction. -/
structure Table where
  /-- Whether only longer paths have mentioned it. -/
  implicit : Bool := false
  /-- Whether a dotted key has made it. -/
  dotted : Bool := false
  entries : List (String × Item) := []
deriving Repr, Inhabited

/-- Entries with one of them set, in place if the key is there. -/
def put (key : String) (item : Item) : List (String × Item) → List (String × Item)
  | [] => [(key, item)]
  | (other, old) :: rest =>
      if other = key then
        (key, item) :: rest
      else
        (other, old) :: put key item rest

namespace Table

/-- A table with one entry set. -/
def put (t : Table) (key : String) (item : Item) : Table :=
  { t with entries := Toml.put key item t.entries }

/-- A table as an item. -/
def toItem (t : Table) : Item :=
  .table t.implicit t.dotted t.entries

/--
Changes the table at a path, which is made if it is missing. An array of tables stands
for its last table. With `dotted`, the path is that of a dotted key, which may not enter
a table that a header defines.
-/
def descend? (dotted : Bool) (change : Table → Option Table) :
    List String → Table → Option Table
  | [], t => change t
  | key :: path, t =>
      match t.entries.lookup key with
      | none =>
          (descend? dotted change path { implicit := true, dotted := dotted }).map fun inner =>
            t.put key inner.toItem
      | some (.table implicit wasDotted entries) =>
          if dotted && !implicit then
            none
          else
            (descend? dotted change path ⟨implicit, wasDotted, entries⟩).map fun inner =>
              t.put key inner.toItem
      | some (.tables elements) =>
          match elements.getLast? with
          | none => none
          | some last =>
              (descend? dotted change path { entries := last }).map fun inner =>
                t.put key (.tables (elements.dropLast ++ [inner.entries]))
      | some _ => none

/-- Gives a new key its value; a dotted key may only add to tables of dotted keys. -/
def insert? (path : List String) (key : String) (item : Item) (t : Table) : Option Table :=
  if t.dotted == path.isEmpty then
    none
  else if (t.entries.lookup key).isSome then
    none
  else
    some (t.put key item)

/-- Defines a key, which may be dotted, in the table that a header has opened. -/
def define? (header path : List String) (key : String) (item : Item) (t : Table) :
    Option Table :=
  descend? false (descend? true (insert? path key item) path) header t

/-- The header of a table. It may have been mentioned, but not been defined. -/
def openTable? (path : List String) (key : String) (t : Table) : Option Table :=
  descend? false
    (fun parent =>
      match parent.entries.lookup key with
      | none => some (parent.put key (.table false false []))
      | some (.table true false entries) =>
          some (parent.put key (.table false false entries))
      | some _ => none)
    path t

/-- The header of one more table of an array. -/
def openElement? (path : List String) (key : String) (t : Table) : Option Table :=
  descend? false
    (fun parent =>
      match parent.entries.lookup key with
      | none => some (parent.put key (.tables [[]]))
      | some (.tables elements) => some (parent.put key (.tables (elements ++ [[]])))
      | some _ => none)
    path t

end Table

/-- Defines a key, which may be dotted, in a table that is written as a value. -/
def defineInline? (key : String) (item : Item) :
    List String → List (String × Item) → Option (List (String × Item))
  | [], entries =>
      if (entries.lookup key).isSome then none else some (put key item entries)
  | step :: path, entries =>
      match entries.lookup step with
      | none =>
          (defineInline? key item path []).map fun inner =>
            put step (.inline true inner) entries
      | some (.inline true inner) =>
          (defineInline? key item path inner).map fun inner =>
            put step (.inline true inner) entries
      | some _ => none

end Toml
end LiveForms
