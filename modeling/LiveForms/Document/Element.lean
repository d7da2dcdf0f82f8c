/-!
# Live forms: elements

An element of a page has a tag, an optional id, classes, attributes, and the two kinds
of content a form has: the value of an input and the text that is shown.

Main definitions:

* `Element`, with its default, an element without any content.
* `Element.addClass`, `Element.setAttr`: a class once, an attribute with one value.
* `Element.isInput`, `Element.isButton`: the two tags that a form reacts to.
-/

namespace LiveForms

/-- An element of a page. -/
structure Element where
  tag : String := ""
  /-- The name by which expressions refer to it. -/
  id : Option String := none
  classes : List String := []
  /-- Its attributes, at most one entry for a name. -/
  attrs : List (String × String) := []
  /-- The content of an input. -/
  value : String := ""
  /-- The text that is shown. -/
  text : String := ""
  /-- What an empty input shows. -/
  placeholder : Option String := none
  /-- The caption in front of it. -/
  label : Option String := none
deriving DecidableEq, Repr, Inhabited

namespace Element

def hasClass (e : Element) (name : String) : Bool :=
  e.classes.contains name

/-- Adds a class unless it is there. -/
def addClass (e : Element) (name : String) : Element :=
  if e.hasClass name then e else { e with classes := e.classes ++ [name] }

/-- Takes away every copy of a class. -/
def removeClass (e : Element) (name : String) : Element :=
  { e with classes := e.classes.filter (· != name) }

def attr? (e : Element) (name : String) : Option String :=
  e.attrs.lookup name

/-- The list of attributes with one value set, in place if the name is there. -/
def putAttr (name value : String) : List (String × String) → List (String × String)
  | [] => [(name, value)]
  | (other, old) :: rest =>
      if other = name then
        (name, value) :: rest
      else
        (other, old) :: putAttr name value rest

def setAttr (e : Element) (name value : String) : Element :=
  { e with attrs := putAttr name value e.attrs }

/-- An input can be edited. -/
def isInput (e : Element) : Bool :=
  e.tag == "input"

/-- A button can be pressed. -/
def isButton (e : Element) : Bool :=
  e.tag == "button"

end Element
end LiveForms
