import LiveForms.Session.Basic

/-!
# Live forms: keys

Main definitions:

* `Key`, `Modifiers`: what a user presses.
* `Key.ofName?`: the key with a name.
* `Session.press`: what a session becomes when a key is pressed.
* `Session.isQuit`: whether a key ends the program.

Copying reaches outside the session. `Session.press` is given a function that stands for
the clipboard: it takes a text, and answers with a reason if it cannot be copied.
-/

namespace LiveForms

inductive Key where
  | char (c : Char)
  | tab
  | backTab
  | up
  | down
  | left
  | right
  | home
  | toEnd
  | pageUp
  | pageDown
  | enter
  | escape
  | backspace
  | delete
  | insert
  | function (number : Nat)
  /-- Any other key, such as a lock or a media key; nothing is bound to these. -/
  | other
deriving DecidableEq, Repr

namespace Key

/-- The key with a name. A single character names the key that enters it. -/
def ofName? (name : String) : Option Key :=
  match name.toList with
  | [c] => some (.char c)
  | _ =>
      match name with
      | "Tab" => some .tab
      | "BackTab" => some .backTab
      | "Up" => some .up
      | "Down" => some .down
      | "Left" => some .left
      | "Right" => some .right
      | "Home" => some .home
      | "End" => some .toEnd
      | "PageUp" => some .pageUp
      | "PageDown" => some .pageDown
      | "Enter" => some .enter
      | "Esc" => some .escape
      | "Backspace" => some .backspace
      | "Delete" => some .delete
      | "Insert" => some .insert
      | "F1" => some (.function 1)
      | "F2" => some (.function 2)
      | "F3" => some (.function 3)
      | _ => none

end Key

/-- The modifiers that are held while a key is pressed. -/
structure Modifiers where
  ctrl : Bool := false
  shift : Bool := false
  alt : Bool := false
deriving DecidableEq, Repr, Inhabited

/-- A clipboard: copies a text, or says why it cannot. -/
abbrev Clipboard := String → Except String Unit

namespace Session

/-- Whether a character starts a number, and with it the edit of an input. -/
def startsEdit (c : Char) : Bool :=
  c.isDigit || c = '.' || c = '-'

/-- Starts an edit with a first character, if the focus is on an input. -/
def editWith (s : Session) (c : Char) : Session :=
  let started := s.startEditing
  if started.mode = .editing then started.insertChar c else started

/-- Copies the value or text that has the focus. -/
def copy (clipboard : Clipboard) (s : Session) : Session :=
  match s.copyText? with
  | none => s
  | some text => s.showCopy ((clipboard text).map fun _ => text)

/-- Opens the help text at its first line. -/
def openHelp (s : Session) : Session :=
  { s with mode := .help, helpScroll := 0 }

/-- A command key, once the status has been cleared. -/
def command (clipboard : Clipboard) (s : Session) : Key → Session
  | .tab => s.focusNext
  | .down => s.focusNext
  | .backTab => s.focusPrevious
  | .up => s.focusPrevious
  | .enter => s.activate
  | .function 1 => s.openHelp
  | .function 2 => s.activate
  | .delete => s.removeFocusedRow
  | .backspace => s.clearFocused
  | .char 'j' => s.focusNext
  | .char 'k' => s.focusPrevious
  | .char ' ' => s.activate
  | .char 'a' => s.addRow
  | .char 'd' => s.removeFocusedRow
  | .char 'y' => s.copy clipboard
  | .char '?' => s.openHelp
  | .char c => if startsEdit c then s.editWith c else s
  | _ => s

/-- A key in normal mode; the row commands with the control key keep the status. -/
def pressNormal (clipboard : Clipboard) (s : Session) (key : Key) (mods : Modifiers) :
    Session :=
  if mods.ctrl && key = .char 'n' then
    s.addRow
  else if mods.ctrl && key = .char 'd' then
    s.removeFocusedRow
  else
    { s with status := none }.command clipboard key

/-- A key in editing mode. -/
def pressEditing (s : Session) : Key → Session
  | .enter => s.finishEditing
  | .tab => s.finishEditing.focusNext
  | .down => s.finishEditing.focusNext
  | .backTab => s.finishEditing.focusPrevious
  | .up => s.finishEditing.focusPrevious
  | .escape => s.cancelEditing
  | .backspace => s.deleteBackward
  | .delete => s.deleteForward
  | .left => s.cursorLeft
  | .right => s.cursorRight
  | .home => s.cursorHome
  | .toEnd => s.cursorEnd
  | .char c => s.insertChar c
  | _ => s

def closeHelp (s : Session) : Session :=
  { s with mode := .normal }

def scrollHelp (s : Session) (position : Nat) : Session :=
  { s with helpScroll := position }

/-- A key while the help text is shown. -/
def pressHelp (s : Session) : Key → Session
  | .escape => s.closeHelp
  | .function 1 => s.closeHelp
  | .char '?' => s.closeHelp
  | .char 'q' => s.closeHelp
  | .up => s.scrollHelp (s.helpScroll - 1)
  | .char 'k' => s.scrollHelp (s.helpScroll - 1)
  | .down => s.scrollHelp (s.helpScroll + 1)
  | .char 'j' => s.scrollHelp (s.helpScroll + 1)
  | .pageUp => s.scrollHelp (s.helpScroll - 5)
  | .pageDown => s.scrollHelp (s.helpScroll + 5)
  | .home => s.scrollHelp 0
  | _ => s

/-- What a session becomes when a key is pressed. -/
def press (clipboard : Clipboard) (s : Session) (key : Key) (mods : Modifiers) : Session :=
  match s.mode with
  | .normal => s.pressNormal clipboard key mods
  | .editing => s.pressEditing key
  | .help => s.pressHelp key

/-- Whether a key ends the program. -/
def isQuit (s : Session) (key : Key) : Bool :=
  s.mode = .normal && key = .char 'q'

end Session
end LiveForms
