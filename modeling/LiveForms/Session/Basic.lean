import LiveForms.Formula.Form
import LiveForms.Page.Basic
import LiveForms.Session.EditBuffer

/-!
# Live forms: sessions

A session is a form in the hands of a user. One of its controls has the focus; an input
with the focus can be edited, and every change of the edit buffer is written into it at
once, so that all formulas follow each key. What was in the input before is kept, and
comes back if the edit is cancelled.

Main definitions:

* `Session`, and `Session.ofPage`, the session with which a page opens.
* `Session.focusables`, `Session.focused?`: the controls, and the one with the focus.
* `Session.startEditing`, `Session.finishEditing`, `Session.cancelEditing`: an edit.
* `Session.insertChar` and the operations after it: changes and moves within an edit.
* `Session.activate`, `Session.click`, `Session.addRow`, `Session.removeFocusedRow`:
  buttons and rows.
* `Session.formulaViews`: the formulas as they are reported.
-/

namespace LiveForms

/-- What keys do at the moment. -/
inductive Mode where
  | normal
  | editing
  | help
deriving DecidableEq, Repr, Inhabited

/-- A formula as it is reported. -/
structure FormulaView where
  label : String
  text : String
  invalid : Bool
deriving DecidableEq, Repr

/-- A form in the hands of a user. -/
structure Session where
  form : Form
  title : String
  /-- The position of the focus among the controls. -/
  focus : Nat := 0
  mode : Mode := .normal
  buffer : EditBuffer := {}
  /-- What the input held before the edit. -/
  saved : List Char := []
  helpScroll : Nat := 0
  status : Option String := none
deriving DecidableEq, Repr

namespace Session

/-- The session with which a page opens. -/
def ofPage (page : Page) (markup : Markup) : Except DocumentError Session :=
  match page.build with
  | .error e => .error e
  | .ok document =>
      match Form.attach document markup with
      | (_, some e) => .error e
      | (form, none) => .ok { form := form, title := page.title }

abbrev document (s : Session) : Document :=
  s.form.document

abbrev markup (s : Session) : Markup :=
  s.form.markup

/-- The controls in document order. -/
def focusables (s : Session) : List NodeId :=
  s.document.findAll Document.root (Form.isControl s.markup)

/-- The control that has the focus. -/
def focused? (s : Session) : Option NodeId :=
  s.focusables[s.focus]?

/-- Whether a node has the focus. -/
def isFocused (s : Session) (n : NodeId) : Bool :=
  s.focused? = some n

/-- Moves the focus to the next control, and from the last one to the first. -/
def focusNext (s : Session) : Session :=
  let count := s.focusables.length
  if count = 0 then s else { s with focus := (s.focus + 1) % count }

/-- Moves the focus to the control before, and from the first one to the last. -/
def focusPrevious (s : Session) : Session :=
  let count := s.focusables.length
  if count = 0 then s else { s with focus := (s.focus + count - 1) % count }

/-- Gives the focus to a control; any other node changes nothing. -/
def focusNode (s : Session) (n : NodeId) : Session :=
  match s.focusables.idxOf? n with
  | some index => { s with focus := index }
  | none => s

/-- Moves a focus behind the last control to the last control. -/
def clampFocus (s : Session) : Session :=
  let count := s.focusables.length
  if count ≤ s.focus then { s with focus := count - 1 } else s

/-- The input that has the focus. -/
def focusedInput? (s : Session) : Option NodeId :=
  s.focused?.filter (s.document.nodeIs Element.isInput)

/-- The element that has the focus. -/
def focusedElement? (s : Session) : Option Element :=
  s.focused?.bind s.document.element?

/-- How the heading names the focus: the first of id, label, placeholder, class, tag. -/
def focusDescription (s : Session) : String :=
  match s.focusedElement? with
  | none => "-"
  | some e => (((e.id <|> e.label) <|> e.placeholder) <|> e.classes.head?).getD e.tag

/-- Shows a refused change of the document as the status. -/
def report (s : Session) : Option DocumentError → Session
  | none => s
  | some e => { s with status := some ("Error: " ++ e.message) }

/-- Takes over a form and shows the refusal that came with it. -/
def withForm (s : Session) (updated : Form × Option DocumentError) : Session :=
  { s with form := updated.1 }.report updated.2

/-- Starts to edit the input that has the focus. -/
def startEditing (s : Session) : Session :=
  match s.focusedInput? with
  | none => s
  | some n =>
      let text := ((s.document.value? n).getD "").toList
      { s with
        buffer := EditBuffer.ofText text
        saved := text
        mode := .editing
        status := none }

/-- Ends an edit and keeps what was entered. -/
def finishEditing (s : Session) : Session :=
  { s with mode := .normal, buffer := {}, saved := [] }

/-- Writes the buffer into the input that has the focus and recomputes all formulas. -/
def applyBuffer (s : Session) : Session :=
  match s.focusedInput? with
  | none => s
  | some n =>
      match s.document.setValue n (String.ofList s.buffer.text) with
      | .error e => s.report (some e)
      | .ok document => s.withForm { s.form with document := document }.update

/-- Ends an edit and puts back what the input held before it. -/
def cancelEditing (s : Session) : Session :=
  let restored :=
    { s with buffer := { s.buffer with text := s.saved }, saved := [] }.applyBuffer
  { restored with mode := .normal, buffer := {} }

/-- Takes over a changed buffer and applies it. -/
def change (s : Session) (b : EditBuffer) : Session :=
  { s with buffer := b }.applyBuffer

def insertChar (s : Session) (c : Char) : Session :=
  s.change (s.buffer.insert c)

def deleteBackward (s : Session) : Session :=
  match s.buffer.deleteBackward? with
  | some b => s.change b
  | none => s

def deleteForward (s : Session) : Session :=
  match s.buffer.deleteForward? with
  | some b => s.change b
  | none => s

def cursorLeft (s : Session) : Session :=
  { s with buffer := s.buffer.left }

def cursorRight (s : Session) : Session :=
  { s with buffer := s.buffer.right }

def cursorHome (s : Session) : Session :=
  { s with buffer := s.buffer.home }

def cursorEnd (s : Session) : Session :=
  { s with buffer := s.buffer.toEnd }

/-- Empties the input that has the focus. The cursor stays at its offset. -/
def clearFocused (s : Session) : Session :=
  match s.focusedInput? with
  | none => s
  | some _ => { s.change { s.buffer with text := [] } with status := none }

/-- After a row was added, its grade cell gets the focus. -/
def afterRowAdded (s : Session) (row : NodeId) : Session :=
  let moved :=
    match s.document.firstWithClass row s.markup.gradeClass with
    | some cell => s.focusNode cell
    | none => s
  { moved with status := some "Course added" }

/-- After a row was removed, the focus stays on a control. -/
def afterRowRemoved (s : Session) : Session :=
  { s.clampFocus with status := some "Course removed" }

def click (s : Session) (target : NodeId) : Session :=
  match s.form.click target with
  | (form, .ok (.added row)) => { s with form := form }.afterRowAdded row
  | (form, .ok (.removed _)) => { s with form := form }.afterRowRemoved
  | (form, .ok .ignored) => { s with form := form }
  | (form, .error e) => s.withForm (form, some e)

/-- Adds a row, wherever the focus is. -/
def addRow (s : Session) : Session :=
  match s.form.addRow with
  | (form, .ok (some row)) => { s with form := form }.afterRowAdded row
  | (form, .ok none) => { s with form := form, status := some "This page has no GPA rows" }
  | (form, .error e) => s.withForm (form, some e)

/-- Removes the row around the focus. -/
def removeFocusedRow (s : Session) : Session :=
  match s.focused? with
  | none => s
  | some n =>
      match s.form.removeRow n with
      | (form, .ok (some _)) => { s with form := form }.afterRowRemoved
      | (form, .ok none) =>
          { s with form := form, status := some "Focus is not on a course row" }
      | (form, .error e) => s.withForm (form, some e)

/-- Edits the input, or presses the button, that has the focus. -/
def activate (s : Session) : Session :=
  match s.focused? with
  | none => s
  | some n =>
      if s.document.nodeIs Element.isInput n then
        s.startEditing
      else if s.document.nodeIs Element.isButton n then
        s.click n
      else
        s

/-- What a copy takes from the focus: the value of an input or the text of a formula. -/
def copyText? (s : Session) : Option String :=
  match s.focusedElement? with
  | none => none
  | some e =>
      if e.isInput then
        some e.value
      else if e.isButton then
        none
      else
        some e.text

/-- Shows the outcome of a copy: the text that was copied, or why it was not. -/
def showCopy (s : Session) : Except String String → Session
  | .ok text => { s with status := some ("Copied " ++ text) }
  | .error reason => { s with status := some ("Copy failed: " ++ reason) }

/-- One formula as it is reported. -/
def viewOf (m : Markup) (e : Element) : FormulaView where
  label := (e.label <|> e.attr? m.evaluatorAttr).getD ""
  text := e.text
  invalid := e.hasClass m.invalidClass

/-- The formulas as they are reported. -/
def formulaViews (s : Session) : List FormulaView :=
  s.form.formulas.filterMap fun n => (s.document.element? n).map (viewOf s.markup)

end Session
end LiveForms
