import LiveForms.Document.Edit
import LiveForms.Formula.Value

/-!
# Live forms: forms that recompute themselves

A form is a document together with what is known about its formulas: which nodes they
are, and to which element rows are added. Every change of an input, and every row that
is added or removed, recomputes all formulas in document order; each one then shows its
value or its error, and has the class of an invalid formula in the latter case only.

What is known about the formulas is renewed whenever a row comes or goes. If the
document is replaced in between, nodes may be unknown to it; the recomputation then
stops at the first such formula.

Main definitions:

* `Form`, and `Form.attach`, the form of a document.
* `Form.update`: the recomputation.
* `Form.addRow`, `Form.removeRow`: rows.
* `Form.click`: what a click on an element does.
-/

namespace LiveForms

/-- A document and its formulas. -/
structure Form where
  document : Document
  /-- The names that the elements of the document are known by. -/
  markup : Markup
  formulas : List NodeId
  /-- The element to which rows are added. -/
  container : Option NodeId
deriving DecidableEq, Repr

/-- What a click did. -/
inductive ClickAction where
  | added (row : NodeId)
  | removed (row : NodeId)
  | ignored
deriving DecidableEq, Repr

namespace Formula

/-- Writes the outcome of a computation into a formula. -/
def present (m : Markup) (d : Document) (formula : NodeId) :
    Except FormulaError Float → Except DocumentError Document
  | .ok x =>
      match d.setText formula (display x) with
      | .error e => .error e
      | .ok shown => shown.removeClass formula m.invalidClass
  | .error err =>
      match d.setText formula err.message with
      | .error e => .error e
      | .ok shown => shown.addClass formula m.invalidClass

/-- Recomputes one formula. -/
def refresh (m : Markup) (d : Document) (formula : NodeId) : Except DocumentError Document :=
  present m d formula (compute m d formula)

/--
Recomputes a list of formulas one after the other, and stops at the first that the
document does not know. The result is the document at the end, and that refusal.
-/
def refreshAll (m : Markup) (d : Document) : List NodeId → Document × Option DocumentError
  | [] => (d, none)
  | formula :: rest =>
      match refresh m d formula with
      | .error e => (d, some e)
      | .ok shown => refreshAll m shown rest

end Formula

namespace Form

/-- Whether an element can have the focus: an input, a button or a formula. -/
def isControl (m : Markup) (e : Element) : Bool :=
  e.isInput || e.isButton || e.tag == m.formulaTag

/-- Renews what is known about the formulas. -/
def locate (form : Form) : Form :=
  { form with
    formulas := form.document.withTag Document.root form.markup.formulaTag
    container := form.document.byId form.markup.gpaContainerId }

/-- Recomputes all formulas. -/
def update (form : Form) : Form × Option DocumentError :=
  let (document, failure) := Formula.refreshAll form.markup form.document form.formulas
  ({ form with document := document }, failure)

/-- The form of a document, with every formula computed. -/
def attach (d : Document) (m : Markup) : Form × Option DocumentError :=
  ({ document := d, markup := m, formulas := [], container := none : Form }).locate.update

/-- Renews what is known about the formulas, recomputes them, and gives `result`. -/
def settle {α : Type} (form : Form) (result : α) : Form × Except DocumentError α :=
  match form.locate.update with
  | (updated, some e) => (updated, .error e)
  | (updated, none) => (updated, .ok result)

/-- The element of a new row. -/
def rowElement (m : Markup) : Element where
  tag := "div"
  classes := [m.rowClass]

/-- The elements inside a new row: the two cells, and the button that removes it. -/
def rowContent (m : Markup) : List Element :=
  [{ tag := "input", attrs := [("type", "text")], classes := [m.gradeClass],
     placeholder := some "Grade (/20)" },
   { tag := "input", attrs := [("type", "text")], classes := [m.creditClass],
     placeholder := some "Credit" },
   { tag := "button", attrs := [("type", "button")], classes := [m.removeClass],
     text := "-" }]

/-- Creates elements below a row, and stops at the first that is refused. -/
def fillRow (d : Document) (row : NodeId) :
    List Element → Document × Except DocumentError NodeId
  | [] => (d, .ok row)
  | e :: rest =>
      match d.create row e with
      | (created, .error err) => (created, .error err)
      | (created, .ok _) => fillRow created row rest

/-- Creates a row that is not part of the tree yet. -/
def createRow (m : Markup) (d : Document) : Document × Except DocumentError NodeId :=
  let (created, row) := d.createDetached (rowElement m)
  fillRow created row (rowContent m)

/-- Where rows go: in front of this formula, a child of the container. -/
def rowAnchor? (m : Markup) (d : Document) (container : NodeId) : Option NodeId :=
  (d.withTag container m.formulaTag).find? fun f => d.parent? f = some container

/-- Puts a row into the container. -/
def placeRow (m : Markup) (d : Document) (container row : NodeId) :
    Except DocumentError Document :=
  match rowAnchor? m d container with
  | some formula => d.insertBefore container row formula
  | none => d.append container row

/--
Adds an empty row in front of the first formula among the children of the container, or
after all of them. A form without a container stays as it is.
-/
def addRow (form : Form) : Form × Except DocumentError (Option NodeId) :=
  match form.container with
  | none => (form, .ok none)
  | some container =>
      match createRow form.markup form.document with
      | (created, .error e) => ({ form with document := created }, .error e)
      | (created, .ok row) =>
          match placeRow form.markup created container row with
          | .error e => ({ form with document := created }, .error e)
          | .ok placed => { form with document := placed }.settle (some row)

/-- Removes the row around an element, or the element itself if it is a row. -/
def removeRow (form : Form) (clicked : NodeId) :
    Form × Except DocumentError (Option NodeId) :=
  match form.document.closestWithClass clicked form.markup.rowClass with
  | none => (form, .ok none)
  | some row =>
      match form.document.remove row with
      | .error e => (form, .error e)
      | .ok removed => { form with document := removed }.settle (some row)

/-- The click action of a row that was added or removed, or of neither. -/
def action (made : NodeId → ClickAction) :
    Form × Except DocumentError (Option NodeId) → Form × Except DocumentError ClickAction
  | (form, .ok (some row)) => (form, .ok (made row))
  | (form, .ok none) => (form, .ok .ignored)
  | (form, .error e) => (form, .error e)

/-- Whether a node is the container or lies below it. -/
def insideContainer (form : Form) (n : NodeId) : Bool :=
  match form.container with
  | none => false
  | some container => n = container || form.document.isDescendantOf n container

/-- A click on an element; only buttons of the container and below it react. -/
def click (form : Form) (target : NodeId) : Form × Except DocumentError ClickAction :=
  if !form.insideContainer target then
    (form, .ok .ignored)
  else if form.document.hasClass target form.markup.addClass then
    action .added form.addRow
  else if form.document.hasClass target form.markup.removeClass then
    action .removed (form.removeRow target)
  else
    (form, .ok .ignored)

end Form
end LiveForms
