import LiveForms.Proofs.Document.Search

/-!
# Live forms: the walks up and down agree

A document stores its links twice, as the parent of each node and as the list of its
children. Questions about what lies below a node go through the children, with a stack of
nodes that are left to visit; questions about what lies above a node follow the parents.
In a document that changes have made, both see the same tree, and a search finds what it
should in document order.

Main definitions:

* `Document.ListsBelow`: the list of the nodes below a node is the one it should be.
* `Document.Nearest`: the nearest holder of a class on the way up.
* `Document.Finds`: the outcome of a search.
* `Document.FirstBelow`: the first holder of a class below a node.

Main statements:

* `Document.WellFormed.closestWithClass_eq_some_iff`,
  `Document.WellFormed.closestWithClass_eq_none_iff`: the search on the way up.
* `Document.WellFormed.firstWithClass_eq_some_iff`: the search for the first holder.
* `Document.walks_ofChanges`: all walks, in every document that changes lead to.
-/

namespace LiveForms
namespace Document

/--
The list of the nodes below `scope` has each child of it, followed by the list of the nodes
below this child. No node is listed twice, and those are listed that have `scope` on their
way up.
-/
structure ListsBelow (d : Document) (scope : NodeId) : Prop where
  unfolds : d.descendants scope = (d.children scope).flatMap fun c => c :: d.descendants c
  nodup : (d.descendants scope).Nodup
  mem_iff : ∀ n, n ∈ d.descendants scope ↔ d.isDescendantOf n scope = true
  sorted : (d.descendants scope).Pairwise d.Precedes

/-- Of a node and those above it, `a` has a class, and those on the way to `a` do not. -/
structure Nearest (d : Document) (name : String) (n a : NodeId) : Prop where
  reached : a = n ∨ d.Above a n
  hasClass : d.hasClass a name = true
  lowest : ∀ b, (b = n ∨ d.Above b n) → d.Above a b → d.hasClass b name = false

/-- A list holds the nodes below `scope` with elements of a kind, in document order. -/
structure Finds (d : Document) (scope : NodeId) (kind : Element → Prop)
    (found : List NodeId) : Prop where
  mem_iff : ∀ n, n ∈ found ↔
    d.isDescendantOf n scope = true ∧ ∃ e, d.element? n = some e ∧ kind e
  sublist : found.Sublist (d.descendants scope)
  sorted : found.Pairwise d.Precedes

/-- Of the nodes below `scope` with a class, `n` comes first in document order. -/
structure FirstBelow (d : Document) (scope : NodeId) (name : String) (n : NodeId) : Prop where
  below : d.Above scope n
  hasClass : d.hasClass n name = true
  first : ∀ other, d.Above scope other → d.hasClass other name = true →
    other = n ∨ d.Precedes n other

variable {d : Document}

/-- Every node on the way up is above those before it. -/
theorem pairwise_ancestorsFrom
    (fuel : Nat)
    (n : NodeId) :
    (n :: d.ancestorsFrom fuel n).Pairwise fun b a => d.Above a b := by
  induction fuel generalizing n with
  | zero =>
      simp [ancestorsFrom]
  | succ fuel ih =>
      refine List.pairwise_cons.mpr ⟨fun a ha => above_of_mem_ancestorsFrom ha, ?_⟩
      rw [ancestorsFrom]
      split
      · exact List.Pairwise.nil
      · exact ih _

theorem nodeIs_hasClass
    (name : String) :
    d.nodeIs (fun e => e.hasClass name) = fun n => d.hasClass n name :=
  rfl

namespace WellFormed

variable (h : d.WellFormed)
include h

theorem mem_path_iff
    {a n : NodeId} :
    a ∈ n :: d.ancestors n ↔ a = n ∨ d.Above a n := by
  rw [List.mem_cons, h.mem_ancestors_iff]

/-- The search on the way up gives the nearest holder of a class. -/
theorem closestWithClass_eq_some_iff
    {n a : NodeId} {name : String} :
    d.closestWithClass n name = some a ↔ d.Nearest name n a := by
  have hsorted : (n :: d.ancestors n).Pairwise fun b a => d.Above a b :=
    pairwise_ancestorsFrom d.size n
  rw [closestWithClass, nodeIs_hasClass, List.find?_eq_some_iff_append]
  constructor
  · rintro ⟨hclass, before, after, hsplit, hbefore⟩
    rw [hsplit, List.pairwise_append, List.pairwise_cons] at hsorted
    refine ⟨?_, hclass, ?_⟩
    · rw [← h.mem_path_iff, hsplit]
      simp
    · intro b hb hab
      rw [← h.mem_path_iff, hsplit, List.mem_append, List.mem_cons] at hb
      rcases hb with hb | rfl | hb
      · simpa using hbefore b hb
      · exact absurd hab (h.acyclic b)
      · exact absurd (hab.trans (hsorted.2.1.1 b hb)) (h.acyclic a)
  · intro hnearest
    obtain ⟨before, after, hsplit⟩ := List.append_of_mem (h.mem_path_iff.mpr hnearest.reached)
    rw [hsplit, List.pairwise_append] at hsorted
    refine ⟨hnearest.hasClass, before, after, hsplit, ?_⟩
    intro b hb
    have hpath : b ∈ n :: d.ancestors n := by simp [hsplit, hb]
    have habove := hsorted.2.2 b hb a List.mem_cons_self
    simp [hnearest.lowest b (h.mem_path_iff.mp hpath) habove]

theorem closestWithClass_eq_none_iff
    {n : NodeId} {name : String} :
    d.closestWithClass n name = none ↔
      ∀ a, (a = n ∨ d.Above a n) → d.hasClass a name = false := by
  rw [closestWithClass, nodeIs_hasClass, List.find?_eq_none]
  constructor
  · intro hnone a ha
    simpa using hnone a (h.mem_path_iff.mpr ha)
  · intro hnone a ha
    simp [hnone a (h.mem_path_iff.mp ha)]

/-- Every element on the way up from a node below the root has a parent. -/
theorem exists_parent_of_reached
    {n a : NodeId} {e : Element}
    (hn : d.Above root n)
    (ha : a = n ∨ d.Above a n)
    (he : d.element? a = some e) :
    ∃ parent, d.parent? a = some parent := by
  have habove : d.Above root a := by
    rcases above_total (.inr hn) ha with hroot | hbelow | hover
    · exact absurd hroot.symm (h.ne_root_of_element? he)
    · exact hbelow
    · exact absurd hover (not_above_of_parent?_none h.parent_root)
  obtain ⟨parent, hparent, _⟩ := above_iff.mp habove
  exact ⟨parent, hparent⟩

section WayDown

theorem listsBelow
    (scope : NodeId) :
    d.ListsBelow scope where
  unfolds := h.descendants_eq scope
  nodup := h.nodup_descendants scope
  mem_iff n := by rw [h.mem_descendants_iff, h.isDescendantOf_iff]
  sorted := h.pairwise_descendants scope

theorem isAttached_iff_mem
    {n : NodeId} :
    d.isAttached n = true ↔ n = root ∨ n ∈ d.descendants root := by
  rw [h.isAttached_iff, h.mem_descendants_iff]

end WayDown

section Searches

theorem finds_findAll
    (scope : NodeId)
    (p : Element → Bool) :
    d.Finds scope (fun e => p e = true) (d.findAll scope p) where
  mem_iff n := by
    rw [findAll, List.mem_filter, nodeIs_iff, (h.listsBelow scope).mem_iff]
  sublist := List.filter_sublist
  sorted := (h.pairwise_descendants scope).filter _

theorem finds_withTag
    (scope : NodeId)
    (tag : String) :
    d.Finds scope (fun e => e.tag = tag) (d.withTag scope tag) := by
  have hfinds := h.finds_findAll scope fun e => e.tag == tag
  simp only [beq_iff_eq] at hfinds
  exact hfinds

/-- The search for one holder of a class gives the first in document order. -/
theorem firstWithClass_eq_some_iff
    {scope n : NodeId} {name : String} :
    d.firstWithClass scope name = some n ↔ d.FirstBelow scope name n := by
  have hsorted := h.pairwise_descendants scope
  rw [firstWithClass, findFirst, nodeIs_hasClass, List.find?_eq_some_iff_append]
  constructor
  · rintro ⟨hclass, before, after, hsplit, hbefore⟩
    rw [hsplit, List.pairwise_append, List.pairwise_cons] at hsorted
    refine ⟨?_, hclass, ?_⟩
    · rw [← h.mem_descendants_iff, hsplit]
      simp
    · intro other hother hholds
      rw [← h.mem_descendants_iff, hsplit, List.mem_append, List.mem_cons] at hother
      rcases hother with hother | rfl | hother
      · have hnot := hbefore other hother
        rw [hholds] at hnot
        cases hnot
      · exact Or.inl rfl
      · exact Or.inr (hsorted.2.1.1 other hother)
  · intro hfirst
    obtain ⟨before, after, hsplit⟩ :=
      List.append_of_mem (h.mem_descendants_iff.mpr hfirst.below)
    rw [hsplit, List.pairwise_append] at hsorted
    refine ⟨hfirst.hasClass, before, after, hsplit, ?_⟩
    intro b hb
    have hprecedes := hsorted.2.2 b hb n List.mem_cons_self
    have hbelow : d.Above scope b := by
      rw [← h.mem_descendants_iff, hsplit]
      exact List.mem_append_left _ hb
    rw [Bool.not_eq_true', Bool.eq_false_iff]
    intro hholds
    rcases hfirst.first b hbelow hholds with rfl | hafter
    · exact h.precedes_asymm hprecedes hprecedes
    · exact h.precedes_asymm hprecedes hafter

end Searches

end WellFormed

/-- The first node that is found is the first of all nodes that are found. -/
theorem findFirst_eq_head?
    (d : Document)
    (scope : NodeId)
    (p : Element → Bool) :
    d.findFirst scope p = (d.findAll scope p).head? := by
  rw [findFirst, findAll, List.head?_filter]

/--
Whatever changes have been made: the loops that walk through the document end, with the
outcomes of the walks. The nodes below a node, attached or not or not even there, are listed
in preorder, and they are those that have it on their way up; the attached nodes are the
root and the nodes below it. The search for a class on the way up gives the nearest holder,
and nothing if there is none. The searches below a node give all elements of their kind in
document order, and the first of them.
-/
theorem walks_ofChanges
    (changes : List Change) :
    (ofChanges changes).WalksEnd ∧
    (∀ scope, (ofChanges changes).ListsBelow scope) ∧
    (∀ n a, (ofChanges changes).isDescendantOf n a = true ↔ (ofChanges changes).Above a n) ∧
    (∀ n, (ofChanges changes).isAttached n = true ↔
      n = root ∨ n ∈ (ofChanges changes).descendants root) ∧
    (∀ n name,
      ((ofChanges changes).closestWithClass n name = none ↔
        ∀ a, (a = n ∨ (ofChanges changes).Above a n) →
          (ofChanges changes).hasClass a name = false) ∧
      ∀ a, (ofChanges changes).closestWithClass n name = some a ↔
        (ofChanges changes).Nearest name n a) ∧
    (∀ scope tag, (ofChanges changes).Finds scope (fun e => e.tag = tag)
      ((ofChanges changes).withTag scope tag)) ∧
    (∀ scope name, (ofChanges changes).Finds scope (fun e => e.hasClass name = true)
      ((ofChanges changes).withClass scope name)) ∧
    (∀ scope name, (ofChanges changes).firstWithClass scope name =
      ((ofChanges changes).withClass scope name).head?) := by
  have h := wellFormed_ofChanges changes
  refine ⟨h.walksEnd, h.listsBelow, ?_, ?_, ?_, h.finds_withTag, ?_, ?_⟩
  · intro n a
    exact h.isDescendantOf_iff
  · intro n
    exact h.isAttached_iff_mem
  · intro n name
    exact ⟨h.closestWithClass_eq_none_iff, fun a => h.closestWithClass_eq_some_iff⟩
  · intro scope name
    exact h.finds_findAll scope fun e => e.hasClass name
  · intro scope name
    exact findFirst_eq_head? _ scope _

end Document
end LiveForms
