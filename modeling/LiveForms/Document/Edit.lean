import LiveForms.Document.Basic

/-!
# Live forms: changing a document

Nodes are created, moved and removed, and the content of elements is set. A change that
is refused leaves the document as it was; creating an element under a parent that
refuses it leaves the new element detached.

Main definitions:

* `DocumentError`, and `DocumentError.message`, its text.
* `Document.createDetached`, `Document.create`: new elements.
* `Document.append`, `Document.insertBefore`, `Document.remove`: moves.
* `Document.setValue`, `Document.setText`, `Document.addClass`,
  `Document.removeClass`: changes of one element.
-/

namespace LiveForms

/-- Why a change of a document is refused. -/
inductive DocumentError where
  /-- The node has no element, or does not exist. -/
  | notAnElement (n : NodeId)
  /-- The node is not among the children of the parent. -/
  | notAChild (n parent : NodeId)
  /-- The node would come to lie below itself. -/
  | cycle (n : NodeId)
  /-- The root stays where it is. -/
  | root
deriving DecidableEq, Repr

/-- The text of a refusal. -/
def DocumentError.message : DocumentError → String
  | .notAnElement n => "node " ++ toString n ++ " is not an element"
  | .notAChild n parent =>
      "node " ++ toString n ++ " is not a direct child of node " ++ toString parent
  | .cycle n => "inserting node " ++ toString n ++ " would create a cycle"
  | .root => "the document root cannot be moved or removed"

namespace Document

/-- Changes one node; an unknown number changes nothing. -/
def modify (d : Document) (n : NodeId) (f : Node → Node) : Document :=
  { d with nodes := d.nodes.modify n f }

/-- The ids of the attached elements in document order; an empty id does not count. -/
def attachedIds (d : Document) : List (String × NodeId) :=
  (d.descendants root).filterMap fun n =>
    match (d.element? n).bind Element.id with
    | some id => if id = "" then none else some (id, n)
    | none => none

/-- Brings the list of ids up to date after a move. -/
def reindex (d : Document) : Document :=
  { d with ids := d.attachedIds }

/-- Takes a node out of the children of its parent. -/
def detach (d : Document) (n : NodeId) : Document :=
  match d.parent? n with
  | none => d
  | some p =>
      (d.modify n fun node => { node with parent := none }).modify p fun node =>
        { node with children := node.children.filter (· != n) }

/-- Adds an element that is not part of the tree yet, and gives its number. -/
def createDetached (d : Document) (e : Element) : Document × NodeId :=
  ({ d with nodes := d.nodes.push { content := some e } }, d.size)

/-- Whether `child` may become a child of `parent`. -/
def checkInsert (d : Document) (parent child : NodeId) : Except DocumentError Unit :=
  if child = root then
    .error .root
  else if d.size ≤ parent then
    .error (.notAnElement parent)
  else if (d.element? child).isNone then
    .error (.notAnElement child)
  else if (parent :: d.ancestors parent).contains child then
    .error (.cycle child)
  else
    .ok ()

/-- Makes a detached node a child of `parent`, at the place that `place` gives it. -/
def adopt (d : Document) (parent child : NodeId) (place : List NodeId → List NodeId) :
    Document :=
  ((d.modify child fun node => { node with parent := some parent }).modify parent
    fun node => { node with children := place node.children }).reindex

/-- Moves `child` to the end of the children of `parent`. -/
def append (d : Document) (parent child : NodeId) : Except DocumentError Document :=
  match d.checkInsert parent child with
  | .error e => .error e
  | .ok () => .ok ((d.detach child).adopt parent child (· ++ [child]))

/-- A list with `x` in front of the first `reference`. -/
def placeBefore (x reference : NodeId) : List NodeId → List NodeId
  | [] => []
  | y :: ys => if y = reference then x :: y :: ys else y :: placeBefore x reference ys

/-- Moves `child` to the place in front of `reference`, a child of `parent`. -/
def insertBefore (d : Document) (parent child reference : NodeId) :
    Except DocumentError Document :=
  if d.parent? reference ≠ some parent then
    .error (.notAChild reference parent)
  else if child = reference then
    .ok d
  else
    match d.checkInsert parent child with
    | .error e => .error e
    | .ok () =>
        let detached := d.detach child
        if (detached.children parent).contains reference then
          .ok (detached.adopt parent child (placeBefore child reference))
        else
          .error (.notAChild reference parent)

/-- Detaches a node with all that is below it. -/
def remove (d : Document) (n : NodeId) : Except DocumentError Document :=
  if n = root then
    .error .root
  else if d.size ≤ n then
    .error (.notAnElement n)
  else
    .ok (d.detach n).reindex

/--
Creates an element as the last child of `parent`. The document has the new element even
if the parent refuses it.
-/
def create (d : Document) (parent : NodeId) (e : Element) :
    Document × Except DocumentError NodeId :=
  let (created, n) := d.createDetached e
  match created.append parent n with
  | .ok appended => (appended, .ok n)
  | .error err => (created, .error err)

/-- Changes the element of a node. -/
def modifyElement (d : Document) (n : NodeId) (f : Element → Element) :
    Except DocumentError Document :=
  match d.element? n with
  | none => .error (.notAnElement n)
  | some e => .ok (d.modify n fun node => { node with content := some (f e) })

def setValue (d : Document) (n : NodeId) (value : String) : Except DocumentError Document :=
  d.modifyElement n fun e => { e with value := value }

def setText (d : Document) (n : NodeId) (text : String) : Except DocumentError Document :=
  d.modifyElement n fun e => { e with text := text }

/-- Adds a class to a node unless it has it. -/
def addClass (d : Document) (n : NodeId) (name : String) : Except DocumentError Document :=
  d.modifyElement n fun e => e.addClass name

/-- Takes every copy of a class from a node. -/
def removeClass (d : Document) (n : NodeId) (name : String) : Except DocumentError Document :=
  d.modifyElement n fun e => e.removeClass name

end Document
end LiveForms
