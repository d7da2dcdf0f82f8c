import LiveForms.Screen.Style
import LiveForms.Session.Basic
import LiveForms.Text.Rows

/-!
# Live forms: the lines of a page

A page is drawn as a list of lines, by walking through its document. A control takes a
line of its own with its label in front. A container without a label that holds nothing
but controls is drawn on one line, without their labels. Any other container is drawn
as its label or its text, followed by the lines of its children, which are indented
under a label; at the outermost level a labelled container ends with an empty line.

Main definitions:

* `Screen.controlSpans`: the drawing of a control.
* `Screen.nodeLines`, `Screen.pageLines`: the lines below a node and of a page.
* `Screen.focusLine`: the line that holds the focus.
-/

namespace LiveForms

/-- One line of a page. -/
structure PageLine where
  spans : List Span
  /-- Whether the control with the focus is drawn on it. -/
  focused : Bool := false
deriving DecidableEq, Repr, Inhabited

namespace Screen

/-- The least width of a label, without the space after it. -/
def labelWidth : Nat :=
  14

/-- The least width of an input. -/
def inputWidth : Nat :=
  10

/-- The spaces in front of a line. -/
def indent (depth : Nat) : String :=
  String.ofList (List.replicate (2 * depth) ' ')

/-- The style of a control that has the focus, and can be changed or pressed. -/
def focusStyle : Style where
  background := some .blue
  foreground := some .white

/-- The label in front of a control. -/
def labelSpans (e : Element) : List Span :=
  match e.label with
  | some label => [{ text := Text.padRight labelWidth label ++ " " }]
  | none => []

/-- The edit buffer in place of an input; the cell at the cursor is reversed. -/
def bufferSpans (b : EditBuffer) : List Span :=
  let (before, after) := b.split?.getD (b.text, [])
  let cursorStyle := focusStyle.patch { reversed := true }
  [⟨"[", focusStyle⟩,
   ⟨String.ofList before, focusStyle⟩,
   ⟨String.ofList [after.head?.getD ' '], cursorStyle⟩,
   ⟨String.ofList after.tail, focusStyle⟩,
   ⟨"]", focusStyle⟩]

/-- An input that is not being edited: its value, or its placeholder if it is empty. -/
def valueSpans (e : Element) (focused : Bool) : List Span :=
  let style := if focused then focusStyle else .plain
  if e.value = "" then
    let hint := Style.ink (if focused then .gray else .darkGray)
    [⟨"[" ++ Text.padRight inputWidth (e.placeholder.getD "") ++ "]", style.patch hint⟩]
  else
    [⟨"[" ++ Text.padRight inputWidth e.value ++ "]", style⟩]

/-- An input. -/
def inputSpans (s : Session) (e : Element) (focused : Bool) : List Span :=
  if focused && s.mode = .editing then
    bufferSpans s.buffer
  else
    valueSpans e focused

/-- A button. -/
def buttonSpans (e : Element) (focused : Bool) : List Span :=
  [⟨"[ " ++ e.text ++ " ]", if focused then focusStyle else .ink .magenta⟩]

/-- A formula: its text, red if it is an error. -/
def formulaSpans (m : Markup) (e : Element) (focused : Bool) : List Span :=
  let style : Style :=
    if e.hasClass m.invalidClass then
      .ink .red
    else
      (Style.ink .green).patch { bold := true }
  [⟨"= ", .plain⟩, ⟨e.text, style.patch { reversed := focused }⟩]

/-- A control without its label. -/
def faceSpans (s : Session) (n : NodeId) (e : Element) : List Span :=
  if e.isInput then
    inputSpans s e (s.isFocused n)
  else if e.isButton then
    buttonSpans e (s.isFocused n)
  else
    formulaSpans s.markup e (s.isFocused n)

/-- A control, with its label if `withLabel` is set. -/
def controlSpans (s : Session) (n : NodeId) (e : Element) (withLabel : Bool) : List Span :=
  (if withLabel then labelSpans e else []) ++ faceSpans s n e

/-- Whether a node is a control. -/
def isControlNode (s : Session) (n : NodeId) : Bool :=
  s.document.nodeIs (Form.isControl s.markup) n

/-- Whether an element with these children is drawn on one line. -/
def isInline (s : Session) (e : Element) (children : List NodeId) : Bool :=
  e.label.isNone && !children.isEmpty && children.all (isControlNode s)

/-- A control inside a line that it shares. -/
def sharedSpans (s : Session) (n : NodeId) : List Span :=
  match s.document.element? n with
  | some e => controlSpans s n e false ++ [⟨" ", .plain⟩]
  | none => []

/-- The line of a control. -/
def controlLine (s : Session) (depth : Nat) (n : NodeId) (e : Element) : PageLine where
  spans := ⟨indent depth, .plain⟩ :: controlSpans s n e true
  focused := s.isFocused n

/-- The line of a container that is drawn on one line. -/
def inlineLine (s : Session) (depth : Nat) (children : List NodeId) : PageLine where
  spans := ⟨indent depth, .plain⟩ :: children.flatMap (sharedSpans s)
  focused := children.any s.isFocused

/-- What stands above the children of a container. -/
def headingLines (depth : Nat) (e : Element) : List PageLine :=
  match e.label with
  | some label =>
      [{ spans := [⟨indent depth ++ label, (Style.ink .yellow).patch { bold := true }⟩] }]
  | none =>
      if e.text = "" then
        []
      else
        [{ spans := (Text.rows (indent depth ++ e.text)).map fun row => ⟨row, .plain⟩ }]

/-- What stands below the children of a container. -/
def closingLines (depth : Nat) (e : Element) : List PageLine :=
  if depth = 0 && e.label.isSome then [{ spans := [] }] else []

/-- The lines of a node and of all that is below it, at most `fuel` levels deep. -/
def nodeLines (s : Session) : Nat → Nat → NodeId → List PageLine
  | 0, _, _ => []
  | fuel + 1, depth, n =>
      match s.document.element? n with
      | none => []
      | some e =>
          let children := s.document.children n
          if Form.isControl s.markup e then
            [controlLine s depth n e]
          else if isInline s e children then
            [inlineLine s depth children]
          else
            let inner := if e.label.isSome then depth + 1 else depth
            headingLines depth e ++ children.flatMap (nodeLines s fuel inner) ++
              closingLines depth e

/-- The lines of a page. -/
def pageLines (s : Session) : List PageLine :=
  (s.document.children Document.root).flatMap (nodeLines s s.document.size 0)

/-- The line that holds the focus, or the first one if none does. -/
def focusLine (lines : List PageLine) : Nat :=
  (lines.findIdx? PageLine.focused).getD 0

end Screen
end LiveForms
