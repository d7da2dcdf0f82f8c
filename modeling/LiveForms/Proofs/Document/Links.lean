import LiveForms.Document.Edit
import Mathlib.Tactic.ByContra

/-!
# Live forms: what one change does to the links

Every change of a document is made of four small ones: a node is added, a node is taken
from its parent, a node is given to a parent, and an element is exchanged. This module
says what each of them does to the number of nodes, to the parent and the children of
every node, and to the elements. The proofs that follow use these equations only.
-/

namespace LiveForms
namespace Document

variable (d : Document)

section Modify

theorem nodes_modify
    (n m : NodeId)
    (f : Node → Node) :
    (d.modify n f).nodes[m]? =
      if n = m then d.nodes[m]?.map f else d.nodes[m]? := by
  simp only [modify, Array.getElem?_modify]

@[simp] theorem size_modify
    (n : NodeId)
    (f : Node → Node) :
    (d.modify n f).size = d.size := by
  simp [modify, size]

theorem parent?_modify_parent
    (n m : NodeId)
    (p : Option NodeId)
    (hn : n < d.size) :
    (d.modify n fun node => { node with parent := p }).parent? m =
      if m = n then p else d.parent? m := by
  simp only [parent?, nodes_modify]
  by_cases hm : n = m
  · subst hm
    simp [size] at hn
    simp [hn]
  · simp [hm, Ne.symm hm]

@[simp] theorem children_modify_parent
    (n m : NodeId)
    (p : Option NodeId) :
    (d.modify n fun node => { node with parent := p }).children m = d.children m := by
  simp only [children, nodes_modify]
  split <;> simp [Function.comp_def]

@[simp] theorem element?_modify_parent
    (n m : NodeId)
    (p : Option NodeId) :
    (d.modify n fun node => { node with parent := p }).element? m = d.element? m := by
  simp only [element?, nodes_modify]
  split
  · cases d.nodes[m]? <;> rfl
  · rfl

@[simp] theorem parent?_modify_children
    (n m : NodeId)
    (g : List NodeId → List NodeId) :
    (d.modify n fun node => { node with children := g node.children }).parent? m =
      d.parent? m := by
  simp only [parent?, nodes_modify]
  split
  · cases d.nodes[m]? <;> rfl
  · rfl

theorem children_modify_children
    (n m : NodeId)
    (g : List NodeId → List NodeId) :
    (d.modify n fun node => { node with children := g node.children }).children m =
      if m = n ∧ n < d.size then g (d.children m) else d.children m := by
  simp only [children, nodes_modify, size]
  by_cases hm : n = m
  · subst hm
    by_cases hn : n < d.nodes.size
    · simp [hn]
    · simp [hn]
  · simp [hm, Ne.symm hm]

@[simp] theorem element?_modify_children
    (n m : NodeId)
    (g : List NodeId → List NodeId) :
    (d.modify n fun node => { node with children := g node.children }).element? m =
      d.element? m := by
  simp only [element?, nodes_modify]
  split
  · cases d.nodes[m]? <;> rfl
  · rfl

@[simp] theorem parent?_modify_content
    (n m : NodeId)
    (e : Option Element) :
    (d.modify n fun node => { node with content := e }).parent? m = d.parent? m := by
  simp only [parent?, nodes_modify]
  split
  · cases d.nodes[m]? <;> rfl
  · rfl

@[simp] theorem children_modify_content
    (n m : NodeId)
    (e : Option Element) :
    (d.modify n fun node => { node with content := e }).children m = d.children m := by
  simp only [children, nodes_modify]
  split <;> simp [Function.comp_def]

theorem element?_modify_content
    (n m : NodeId)
    (e : Option Element)
    (hn : n < d.size) :
    (d.modify n fun node => { node with content := e }).element? m =
      if m = n then e else d.element? m := by
  simp only [element?, nodes_modify]
  by_cases hm : n = m
  · subst hm
    simp [size] at hn
    simp [hn]
  · simp [hm, Ne.symm hm]

end Modify

section Missing

theorem lt_size_of_parent?
    {d : Document} {n p : NodeId}
    (h : d.parent? n = some p) :
    n < d.size := by
  by_contra hn
  simp only [size, Nat.not_lt] at hn
  simp [parent?, Array.getElem?_eq_none hn] at h

theorem parent?_of_size_le
    {d : Document} {n : NodeId}
    (hn : d.size ≤ n) :
    d.parent? n = none := by
  cases hp : d.parent? n with
  | none => rfl
  | some p => exact absurd (lt_size_of_parent? hp) (Nat.not_lt_of_le hn)

theorem lt_size_of_element?
    {d : Document} {n : NodeId} {e : Element}
    (h : d.element? n = some e) :
    n < d.size := by
  by_contra hn
  simp only [size, Nat.not_lt] at hn
  simp [element?, Array.getElem?_eq_none hn] at h

theorem children_of_size_le
    {d : Document} {n : NodeId}
    (hn : d.size ≤ n) :
    d.children n = [] := by
  simp only [size] at hn
  simp [children, Array.getElem?_eq_none hn]

end Missing

section Reindex

@[simp] theorem size_reindex : d.reindex.size = d.size := rfl

@[simp] theorem parent?_reindex
    (m : NodeId) :
    d.reindex.parent? m = d.parent? m := rfl

@[simp] theorem children_reindex
    (m : NodeId) :
    d.reindex.children m = d.children m := rfl

@[simp] theorem element?_reindex
    (m : NodeId) :
    d.reindex.element? m = d.element? m := rfl

end Reindex

section CreateDetached

variable (e : Element)

@[simp] theorem size_createDetached :
    (d.createDetached e).1.size = d.size + 1 := by
  simp [createDetached, size]

@[simp] theorem parent?_createDetached
    (m : NodeId) :
    (d.createDetached e).1.parent? m = d.parent? m := by
  simp only [createDetached, parent?, Array.getElem?_push]
  split
  · rename_i hm
    simp [hm]
  · rfl

@[simp] theorem children_createDetached
    (m : NodeId) :
    (d.createDetached e).1.children m = d.children m := by
  simp only [createDetached, children, Array.getElem?_push]
  split
  · rename_i hm
    simp [hm]
  · rfl

theorem element?_createDetached
    (m : NodeId) :
    (d.createDetached e).1.element? m =
      if m = d.size then some e else d.element? m := by
  simp only [createDetached, element?, Array.getElem?_push]
  by_cases hm : m = d.nodes.size
  · simp [hm, size]
  · simp [hm, size]

end CreateDetached

section Detach

variable (n : NodeId)

@[simp] theorem size_detach : (d.detach n).size = d.size := by
  unfold detach
  split <;> simp

@[simp] theorem element?_detach
    (m : NodeId) :
    (d.detach n).element? m = d.element? m := by
  unfold detach
  split <;> simp

theorem parent?_detach
    (m : NodeId) :
    (d.detach n).parent? m = if m = n then none else d.parent? m := by
  unfold detach
  split
  · rename_i hp
    split
    · rename_i hm
      rw [hm, hp]
    · rfl
  · rename_i p hp
    rw [parent?_modify_children, parent?_modify_parent d n m none (lt_size_of_parent? hp)]

/-- Only the parent of the node loses a child, and loses no other. -/
theorem children_detach_eq
    (m : NodeId) :
    (d.detach n).children m =
      if d.parent? n = some m then (d.children m).filter (· != n) else d.children m := by
  unfold detach
  split
  · rename_i hp
    simp [hp]
  · rename_i p hp
    rw [children_modify_children, size_modify, children_modify_parent, hp]
    by_cases hm : m = p
    · subst hm
      by_cases hlt : m < d.size
      · simp [hlt]
      · simp [hlt, children_of_size_le (Nat.le_of_not_lt hlt)]
    · simp [hm, Ne.symm hm]

end Detach

section Adopt

variable {d}
variable {parent child : NodeId}
variable (place : List NodeId → List NodeId)

@[simp] theorem size_adopt : (d.adopt parent child place).size = d.size := by
  simp [adopt]

@[simp] theorem element?_adopt
    (m : NodeId) :
    (d.adopt parent child place).element? m = d.element? m := by
  simp [adopt]

theorem parent?_adopt
    (hchild : child < d.size)
    (m : NodeId) :
    (d.adopt parent child place).parent? m =
      if m = child then some parent else d.parent? m := by
  rw [adopt, parent?_reindex, parent?_modify_children,
    parent?_modify_parent d child m (some parent) hchild]

theorem children_adopt
    (hparent : parent < d.size)
    (m : NodeId) :
    (d.adopt parent child place).children m =
      if m = parent then place (d.children m) else d.children m := by
  rw [adopt, children_reindex, children_modify_children]
  simp [hparent]

end Adopt

/-- A change of an element is refused exactly where there is none. -/
theorem modifyElement_eq_ok_iff
    {d d' : Document} {n : NodeId} {f : Element → Element} :
    d.modifyElement n f = .ok d' ↔
      ∃ e : Element, d.element? n = some e ∧
        d' = d.modify n fun node => { node with content := some (f e) } := by
  unfold modifyElement
  cases d.element? n with
  | none => simp
  | some e => simp [eq_comm]

end Document
end LiveForms
