/-!
# Live forms: the edit buffer

While an input is edited, its text stands in a buffer with a cursor. The cursor counts
the bytes of the UTF-8 form of the text before it, so it stands between two characters
only if that many bytes are a whole number of characters. Every operation splits the
text at the cursor; at a place inside a character or behind the end it does nothing.

Main definitions:

* `EditBuffer`, and `EditBuffer.split?`, the characters on either side of the cursor.
* `EditBuffer.insert`, `EditBuffer.deleteBackward?`, `EditBuffer.deleteForward?`:
  changes of the text.
* `EditBuffer.left`, `EditBuffer.right`, `EditBuffer.home`, `EditBuffer.toEnd`:
  moves of the cursor.
-/

namespace LiveForms

/-- A text that is being edited. -/
structure EditBuffer where
  text : List Char := []
  /-- How many bytes of the text stand before the cursor. -/
  cursor : Nat := 0
deriving DecidableEq, Repr, Inhabited

namespace EditBuffer

/-- The number of bytes of a text. -/
def byteLength : List Char → Nat
  | [] => 0
  | c :: cs => c.utf8Size + byteLength cs

/-- A text cut after a number of bytes, if that is between two characters. -/
def splitAtByte : Nat → List Char → Option (List Char × List Char)
  | offset, [] => if offset = 0 then some ([], []) else none
  | offset, c :: cs =>
      if offset = 0 then
        some ([], c :: cs)
      else if offset < c.utf8Size then
        none
      else
        (splitAtByte (offset - c.utf8Size) cs).map fun (before, after) => (c :: before, after)

/-- The characters before and after the cursor. -/
def split? (b : EditBuffer) : Option (List Char × List Char) :=
  splitAtByte b.cursor b.text

/-- The buffer that holds a text, with the cursor at its end. -/
def ofText (text : List Char) : EditBuffer where
  text := text
  cursor := byteLength text

/-- Puts a character in front of the cursor. -/
def insert (b : EditBuffer) (c : Char) : EditBuffer :=
  match b.split? with
  | some (before, after) => ⟨before ++ c :: after, b.cursor + c.utf8Size⟩
  | none => b

/-- The character before the cursor, with the text before it and after the cursor. -/
def behind? (b : EditBuffer) : Option (List Char × Char × List Char) :=
  match b.split? with
  | some (before, after) => before.getLast?.map fun c => (before.dropLast, c, after)
  | none => none

/-- Takes away the character before the cursor, if there is one. -/
def deleteBackward? (b : EditBuffer) : Option EditBuffer :=
  b.behind?.map fun (before, c, after) => ⟨before ++ after, b.cursor - c.utf8Size⟩

/-- Takes away the character after the cursor, if there is one. -/
def deleteForward? (b : EditBuffer) : Option EditBuffer :=
  match b.split? with
  | some (before, _ :: after) => some ⟨before ++ after, b.cursor⟩
  | _ => none

/-- Moves the cursor over the character before it. -/
def left (b : EditBuffer) : EditBuffer :=
  match b.behind? with
  | some (_, c, _) => { b with cursor := b.cursor - c.utf8Size }
  | none => b

/-- Moves the cursor over the character after it. -/
def right (b : EditBuffer) : EditBuffer :=
  match b.split? with
  | some (_, c :: _) => { b with cursor := b.cursor + c.utf8Size }
  | _ => b

def home (b : EditBuffer) : EditBuffer :=
  { b with cursor := 0 }

def toEnd (b : EditBuffer) : EditBuffer :=
  { b with cursor := byteLength b.text }

end EditBuffer
end LiveForms
