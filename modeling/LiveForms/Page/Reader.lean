import LiveForms.Json.Reader
import LiveForms.Page.Basic

/-!
# Live forms: reading a page

A page file holds JSON: an object with the fields `title` and `body`, or an array of
their values in this order. The definitions in `body` and in `children` are objects or
arrays of their fields in the same way. Every field may be missing, unknown fields of
objects are ignored, and a known field may not be given twice. Only the fields
`id`, `value`, `text`, `placeholder` and `label` may be `null`.

Arrays and objects that carry known fields may be nested to a depth of 127.

Main definitions:

* `PageError`: why there is no page.
* `Page.ofText`, `Page.ofBytes`: the page of a text and of a file.
* `Page.load`: the page of an optional file.
-/

namespace LiveForms

/-- Why there is no page. -/
inductive PageError where
  /-- The file is missing, or it is not text in UTF-8. -/
  | unreadable
  /-- The text is not JSON of the form of a page. -/
  | malformed
deriving DecidableEq, Repr

namespace Page

/-- How deep arrays and objects with known fields may be nested. -/
def depthLimit : Nat :=
  127

/-- The text of a string. -/
def asString? : Json → Option String
  | .string text => text
  | _ => none

/-- The text of a string, or nothing for `null`. -/
def asNullable? : Json → Option (Option String)
  | .null => some none
  | json => (asString? json).map some

/-- The texts of an array of strings. -/
def asStrings? (depth : Nat) : Json → Option (List String)
  | .array items => if depth = 0 then none else items.mapM asString?
  | _ => none

/-- One attribute after those already read; the last value of a name counts. -/
def addAttr? (attrs : List (String × String)) (member : Option String × Json) :
    Option (List (String × String)) :=
  match member.1, asString? member.2 with
  | some name, some value => some (Element.putAttr name value attrs)
  | _, _ => none

/-- The attributes of an object. -/
def asAttrs? (depth : Nat) : Json → Option (List (String × String))
  | .object members => if depth = 0 then none else members.foldlM addAttr? []
  | _ => none

/-- The value of the field `name`; a repeated field is refused. -/
def member? (members : List (Option String × Json)) (name : String) : Option (Option Json) :=
  match members.filter fun member => member.1 = some name with
  | [] => some none
  | [member] => some (some member.2)
  | _ => none

/--
The values of the fields `names`, in their order; `none` for a missing one. The names of
all members have to be texts, and an array may not be longer than `names`.
-/
def fields? (depth : Nat) (names : List String) : Json → Option (List (Option Json))
  | .object members =>
      if depth = 0 || members.any fun member => member.1.isNone then
        none
      else
        names.mapM (member? members)
  | .array items =>
      if depth = 0 || names.length < items.length then
        none
      else
        some (items.map some ++ List.replicate (names.length - items.length) none)
  | _ => none

/-- The reading of a field, or `default` if it is missing. -/
def orElse {α : Type} (read : Json → Option α) (default : α) : Option Json → Option α
  | none => some default
  | some json => read json

/-- The names of the fields of a definition. -/
def definitionFields : List String :=
  ["tag", "id", "class", "attrs", "value", "text", "placeholder", "label", "children"]

mutual

/-- One definition and the definitions inside it. -/
def asDefinition? : Nat → Json → Option (Definition × Forest)
  | 0, _ => none
  | depth + 1, json => do
      match ← fields? (depth + 1) definitionFields json with
      | [tag, id, classes, attrs, value, text, placeholder, label, children] =>
          let definition : Definition := {
            tag := ← orElse asString? "" tag
            id := ← orElse asNullable? none id
            classes := ← orElse (asStrings? depth) [] classes
            attrs := ← orElse (asAttrs? depth) [] attrs
            value := ← orElse asNullable? none value
            text := ← orElse asNullable? none text
            placeholder := ← orElse asNullable? none placeholder
            label := ← orElse asNullable? none label
          }
          let inside ← orElse (asForest? depth) .nil children
          return (definition, inside)
      | _ => none

/-- The definitions of an array. -/
def asForest? : Nat → Json → Option Forest
  | 0, _ => none
  | depth + 1, json =>
      match json with
      | .array items =>
          items.foldr
            (fun item rest => do
              let (definition, inside) ← asDefinition? depth item
              return .cons definition inside (← rest))
            (some .nil)
      | _ => none

end

/-- The page of a JSON value. -/
def ofJson? (json : Json) : Option Page := do
  match ← fields? depthLimit ["title", "body"] json with
  | [title, body] =>
      return {
        title := ← orElse asString? "" title
        body := ← orElse (asForest? (depthLimit - 1)) .nil body
      }
  | _ => none

/-- The page of a text. -/
def ofText (text : String) : Except PageError Page :=
  match (Json.read? text).bind ofJson? with
  | some page => .ok page
  | none => .error .malformed

/-- The page of a file with the given content. -/
def ofBytes (bytes : ByteArray) : Except PageError Page :=
  match String.fromUTF8? bytes with
  | some text => ofText text
  | none => .error .unreadable

/--
The page of a file; `none` stands for a file that does not exist. Without a file it is
the demo page.
-/
def load : Option (Option ByteArray) → Except PageError Page
  | none => .ok demo
  | some none => .error .unreadable
  | some (some bytes) => ofBytes bytes

end Page
end LiveForms
