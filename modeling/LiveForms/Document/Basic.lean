import LiveForms.Document.Element

/-!
# Live forms: documents

A document is a tree of nodes. The nodes are numbered in the order of their creation
and keep their numbers for ever; each one stores its parent and its children. Node 0 is
the root and the only node without an element. A node that is not reachable from the
root is detached: it keeps its content and its own children, and no search finds it.

The two walks through a document are the chain of parents of a node and the nodes below
a node. Neither can be longer than the number of nodes in a document whose links form a
tree, so that number bounds both recursions.

Main definitions:

* `Document`, and `Document.empty`, the document that holds only its root.
* `Document.ancestors`: the chain of parents of a node, nearest first.
* `Document.descendants`: the nodes below a node, each one before its own children.
* `Document.findAll`, `Document.findFirst`: searches below a node in that order.
* `Document.byId`: the attached element with an id, the first in that order.
-/

namespace LiveForms

/-- The number of a node. -/
abbrev NodeId := Nat

/-- A node of a document. -/
structure Node where
  parent : Option NodeId := none
  children : List NodeId := []
  /-- Its element; only the root has none. -/
  content : Option Element := none
deriving DecidableEq, Repr, Inhabited

/-- A tree of elements. -/
structure Document where
  /-- All nodes ever created; the position of a node is its number. -/
  nodes : Array Node
  /-- The ids of the attached elements in document order. -/
  ids : List (String × NodeId)
deriving DecidableEq, Repr

namespace Document

/-- The number of the root. -/
def root : NodeId :=
  0

/-- The document without any element. -/
def empty : Document where
  nodes := #[{}]
  ids := []

/-- How many nodes were created, the root included. -/
def size (d : Document) : Nat :=
  d.nodes.size

/-- The element of a node; the root and unknown numbers have none. -/
def element? (d : Document) (n : NodeId) : Option Element :=
  d.nodes[n]?.bind Node.content

def parent? (d : Document) (n : NodeId) : Option NodeId :=
  d.nodes[n]?.bind Node.parent

def children (d : Document) (n : NodeId) : List NodeId :=
  (d.nodes[n]?.map Node.children).getD []

/-- The first `fuel` members of the chain of parents of a node. -/
def ancestorsFrom (d : Document) : Nat → NodeId → List NodeId
  | 0, _ => []
  | fuel + 1, n =>
      match d.parent? n with
      | none => []
      | some p => p :: d.ancestorsFrom fuel p

/-- The chain of parents of a node, nearest first. -/
def ancestors (d : Document) (n : NodeId) : List NodeId :=
  d.ancestorsFrom d.size n

/-- The nodes at most `fuel` levels below a node, each one before its children. -/
def belowFrom (d : Document) : Nat → NodeId → List NodeId
  | 0, _ => []
  | fuel + 1, n => (d.children n).flatMap fun c => c :: d.belowFrom fuel c

/-- The nodes below a node in document order. -/
def descendants (d : Document) (n : NodeId) : List NodeId :=
  d.belowFrom d.size n

/-- Whether a node is reachable from the root. -/
def isAttached (d : Document) (n : NodeId) : Bool :=
  (n :: d.ancestors n).contains root

/-- Whether `n` lies below `a`. -/
def isDescendantOf (d : Document) (n a : NodeId) : Bool :=
  (d.ancestors n).contains a

/-- Whether a node has an element of a kind. -/
def nodeIs (d : Document) (p : Element → Bool) (n : NodeId) : Bool :=
  (d.element? n).any p

/-- The nodes below `scope` whose elements are of a kind, in document order. -/
def findAll (d : Document) (scope : NodeId) (p : Element → Bool) : List NodeId :=
  (d.descendants scope).filter (d.nodeIs p)

/-- The first node below `scope` whose element is of a kind. -/
def findFirst (d : Document) (scope : NodeId) (p : Element → Bool) : Option NodeId :=
  (d.descendants scope).find? (d.nodeIs p)

def withTag (d : Document) (scope : NodeId) (tag : String) : List NodeId :=
  d.findAll scope fun e => e.tag == tag

def withClass (d : Document) (scope : NodeId) (name : String) : List NodeId :=
  d.findAll scope fun e => e.hasClass name

def firstWithClass (d : Document) (scope : NodeId) (name : String) : Option NodeId :=
  d.findFirst scope fun e => e.hasClass name

/-- The nearest node with a class among a node and its ancestors. -/
def closestWithClass (d : Document) (n : NodeId) (name : String) : Option NodeId :=
  (n :: d.ancestors n).find? (d.nodeIs fun e => e.hasClass name)

def byId (d : Document) (id : String) : Option NodeId :=
  d.ids.lookup id

/-- The content of an input. -/
def value? (d : Document) (n : NodeId) : Option String :=
  (d.element? n).map Element.value

/-- The text that a node shows. -/
def text? (d : Document) (n : NodeId) : Option String :=
  (d.element? n).map Element.text

def attr? (d : Document) (n : NodeId) (name : String) : Option String :=
  (d.element? n).bind fun e => e.attr? name

def hasClass (d : Document) (n : NodeId) (name : String) : Bool :=
  d.nodeIs (fun e => e.hasClass name) n

end Document
end LiveForms
