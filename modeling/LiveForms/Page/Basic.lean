import LiveForms.Document.Edit

/-!
# Live forms: page definitions

A page definition is a title and a forest of element definitions. Building it creates
one node for each definition, every one before the definitions inside it, so the nodes
are numbered in the order in which the definitions are written.

Main definitions:

* `Definition`: one element as a page defines it.
* `Forest`: definitions with the definitions inside them.
* `Page`, `Page.build`: a page and its document.
* `Page.demo`: the page that is shown when none is named.
-/

namespace LiveForms

/-- One element as a page defines it. -/
structure Definition where
  tag : String := ""
  id : Option String := none
  classes : List String := []
  attrs : List (String × String) := []
  value : Option String := none
  text : Option String := none
  placeholder : Option String := none
  label : Option String := none
deriving DecidableEq, Repr, Inhabited

/-- The element of a definition: a missing value or text is empty. -/
def Definition.toElement (s : Definition) : Element where
  tag := s.tag
  id := s.id
  classes := s.classes
  attrs := s.attrs
  value := s.value.getD ""
  text := s.text.getD ""
  placeholder := s.placeholder
  label := s.label

/-- A list of definitions, each with the list of the definitions inside it. -/
inductive Forest where
  | nil
  | cons (definition : Definition) (children siblings : Forest)
deriving DecidableEq, Repr, Inhabited

namespace Forest

/-- The definitions of a forest, each one before those inside it. -/
def preorder : Forest → List Definition
  | .nil => []
  | .cons s children siblings => s :: (children.preorder ++ siblings.preorder)

/-- Creates the nodes of a forest below `parent`. -/
def build (d : Document) (parent : NodeId) : Forest → Except DocumentError Document
  | .nil => .ok d
  | .cons s children siblings =>
      match d.create parent s.toElement with
      | (_, .error e) => .error e
      | (created, .ok n) =>
          match children.build created n with
          | .error e => .error e
          | .ok filled => siblings.build filled parent

end Forest

/-- A page definition. -/
structure Page where
  title : String := ""
  body : Forest := .nil
deriving DecidableEq, Repr, Inhabited

namespace Page

/-- The document that a page defines. -/
def build (page : Page) : Except DocumentError Document :=
  page.body.build Document.empty Document.root

/-- Definitions without anything inside them. -/
def leaves : List Definition → Forest → Forest
  | [], rest => rest
  | s :: more, rest => .cons s .nil (leaves more rest)

/-- An input of the demo page. -/
def demoInput (id label placeholder : String) : Definition where
  tag := "input"
  id := some id
  label := some label
  placeholder := some placeholder

/-- A formula of the demo page. -/
def demoFormula (label expression : String) : Definition where
  tag := "formula"
  label := some label
  attrs := [("evaluator", expression)]

/-- A section of the demo page. -/
def demoSection (id label : String) : Definition where
  tag := "section"
  id := some id
  label := some label

/-- The first section: a body mass index. -/
def demoBmi : Forest :=
  leaves
    [demoInput "weight" "Weight (kg)" "70",
     demoInput "height" "Height (m)" "1.75",
     demoFormula "BMI" "weight / (height * height)"]
    .nil

/-- The second section: a line of an invoice. -/
def demoInvoice : Forest :=
  leaves
    [demoInput "price" "Unit price" "0",
     demoInput "quantity" "Quantity" "0",
     demoInput "discount" "Discount" "0",
     demoFormula "Total" "price * quantity - discount"]
    .nil

/-- The row of grade and credit cells with which the third section starts. -/
def demoRow : Forest :=
  leaves
    [{ tag := "input", classes := ["grade"], placeholder := some "Grade (/20)" },
     { tag := "input", classes := ["credit"], placeholder := some "Credit" },
     { tag := "button", classes := ["remove-course"], text := some "-" }]
    .nil

/-- The third section: a credit-weighted average. -/
def demoAverage : Forest :=
  .cons { tag := "div", classes := ["gpa-row"] } demoRow
    (leaves
      [demoFormula "GPA" "calculateGPA",
       { tag := "button", classes := ["add-course"], text := some "+ Add course" }]
      .nil)

/-- The page that is shown when none is named. -/
def demo : Page where
  title := "Calculators"
  body :=
    .cons (demoSection "bmi" "Body mass index") demoBmi
      (.cons (demoSection "invoice" "Invoice line") demoInvoice
        (.cons (demoSection "gpa-container" "GPA") demoAverage .nil))

end Page
end LiveForms
