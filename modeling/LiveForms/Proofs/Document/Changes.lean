import LiveForms.Proofs.Document.Tree

/-!
# Live forms: every change keeps a document a tree

The first part says once what each change of a document does, as a relation between the
document before and the document after: `Document.Created`, `Document.Moved`,
`Document.Removed` and `Document.Edited`. Moving a node inside its parent, moving it to
another parent and attaching a detached node are the same relation.

The second part shows that each relation keeps `Document.WellFormed`. Only a move can
close a cycle. A new cycle would contain the new link, so the new parent would lie below
the moved node, and the check in front of the move has excluded that.

Main statements:

* `Document.append_spec`, `Document.insertBefore_spec`, `Document.remove_spec`,
  `Document.modifyElement_spec`: what the changes do.
* `Document.WellFormed.moved` and its companions: they keep the tree.
-/

namespace LiveForms
namespace Document

variable {d d' : Document}

section Specs

/-- `child` may be moved below `parent`. -/
structure Insertable (d : Document) (parent child : NodeId) : Prop where
  child_ne_root : child ≠ root
  parent_lt : parent < d.size
  child_element : ∃ e, d.element? child = some e
  child_ne_parent : child ≠ parent
  not_above : ¬ d.Above child parent

/-- `d'` has one more node than `d`, which is not linked to any other. -/
structure Created (d d' : Document) (e : Element) : Prop where
  size : d'.size = d.size + 1
  parent? : ∀ m, d'.parent? m = d.parent? m
  children : ∀ m, d'.children m = d.children m
  element? : ∀ m, d'.element? m = if m = d.size then some e else d.element? m
  ids : d'.ids = d.ids

/-- In `d'`, the node `child` stands between `before` and `after` below `parent`. -/
structure Moved (d d' : Document) (parent child : NodeId) (before after : List NodeId) :
    Prop where
  insertable : d.Insertable parent child
  siblings : (d.children parent).filter (· != child) = before ++ after
  size : d'.size = d.size
  parent? : ∀ m, d'.parent? m = if m = child then some parent else d.parent? m
  children : ∀ m, d'.children m =
    if m = parent then before ++ child :: after else (d.children m).filter (· != child)
  element? : ∀ m, d'.element? m = d.element? m
  ids : d'.ids = d'.attachedIds

/-- In `d'`, the node `n` has no parent. -/
structure Removed (d d' : Document) (n : NodeId) : Prop where
  size : d'.size = d.size
  parent? : ∀ m, d'.parent? m = if m = n then none else d.parent? m
  children : ∀ m, d'.children m = (d.children m).filter (· != n)
  element? : ∀ m, d'.element? m = d.element? m
  ids : d'.ids = d'.attachedIds

/-- In `d'`, the element of `n` is changed by `f`. -/
structure Edited (d d' : Document) (n : NodeId) (f : Element → Element) : Prop where
  element_n : ∃ e, d.element? n = some e
  size : d'.size = d.size
  parent? : ∀ m, d'.parent? m = d.parent? m
  children : ∀ m, d'.children m = d.children m
  element? : ∀ m, d'.element? m = if m = n then (d.element? m).map f else d.element? m
  ids : d'.ids = d.ids

/-- The list of ids is read off the nodes below the root. -/
theorem attachedIds_congr
    (hsize : d'.size = d.size)
    (hchildren : ∀ m, d'.children m = d.children m)
    (hid : ∀ m, (d'.element? m).bind Element.id = (d.element? m).bind Element.id) :
    d'.attachedIds = d.attachedIds := by
  simp only [attachedIds, descendants_congr hsize hchildren, hid]

theorem ids_reindex : d.reindex.ids = d.reindex.attachedIds :=
  (attachedIds_congr (size_reindex d) (children_reindex d) (by simp)).symm

theorem created_createDetached
    (d : Document)
    (e : Element) :
    Created d (d.createDetached e).1 e where
  size := size_createDetached d e
  parent? := parent?_createDetached d e
  children := children_createDetached d e
  element? := element?_createDetached d e
  ids := rfl

theorem modifyElement_spec
    {n : NodeId} {f : Element → Element}
    (hd : d.modifyElement n f = .ok d') :
    Edited d d' n f := by
  obtain ⟨e, he, rfl⟩ := modifyElement_eq_ok_iff.mp hd
  refine ⟨⟨e, he⟩, by simp, by simp, by simp, ?_, rfl⟩
  intro m
  rw [element?_modify_content d n m _ (lt_size_of_element? he)]
  split
  · rename_i hm
    rw [hm, he]
    rfl
  · rfl

/-- The numbers, the links, the elements and the list of ids make up a document. -/
theorem eq_of_reads
    (hsize : d'.size = d.size)
    (hparent : ∀ n, d'.parent? n = d.parent? n)
    (hchildren : ∀ n, d'.children n = d.children n)
    (helement : ∀ n, d'.element? n = d.element? n)
    (hids : d'.ids = d.ids) :
    d' = d := by
  have hnode : ∀ (d : Document) (n : NodeId) (hn : n < d.nodes.size),
      d.nodes[n] = ⟨d.parent? n, d.children n, d.element? n⟩ := by
    intro d n hn
    simp [parent?, children, element?, hn]
  have hnodes : d'.nodes = d.nodes := by
    apply Array.ext hsize
    intro n hn' hn
    rw [hnode d' n hn', hnode d n hn, hparent, hchildren, helement]
  cases d
  cases d'
  cases hnodes
  cases hids
  rfl

/-- A change of an element has one outcome. -/
theorem Edited.unique
    {d'' : Document} {n : NodeId} {f : Element → Element}
    (hd : Edited d d' n f)
    (hd' : Edited d d'' n f) :
    d'' = d' := by
  apply eq_of_reads
  · rw [hd.size, hd'.size]
  · intro m
    rw [hd.parent?, hd'.parent?]
  · intro m
    rw [hd.children, hd'.children]
  · intro m
    rw [hd.element?, hd'.element?]
  · rw [hd.ids, hd'.ids]

theorem edited_self
    {n : NodeId} {e : Element} {f : Element → Element}
    (hn : d.element? n = some e)
    (hf : f e = e) :
    Edited d d n f := by
  refine ⟨⟨e, hn⟩, rfl, fun _ => rfl, fun _ => rfl, ?_, rfl⟩
  intro m
  split
  · rename_i hm
    rw [hm, hn, Option.map_some, hf]
  · rfl

theorem eq_of_edited
    {n : NodeId} {e : Element} {f : Element → Element}
    (hd : Edited d d' n f)
    (hn : d.element? n = some e)
    (hf : f e = e) :
    d' = d :=
  (edited_self hn hf).unique hd

/-- Elements stay elements. -/
theorem Edited.exists_element
    {n k : NodeId} {f : Element → Element}
    (hd : Edited d d' n f)
    (hk : ∃ e, d.element? k = some e) :
    ∃ e, d'.element? k = some e := by
  obtain ⟨e, he⟩ := hk
  rw [hd.element?, he]
  split
  · exact ⟨f e, rfl⟩
  · exact ⟨e, rfl⟩

theorem modifyElement_of_element?
    {n : NodeId} {e : Element}
    (f : Element → Element)
    (hn : d.element? n = some e) :
    ∃ d', d.modifyElement n f = .ok d' :=
  ⟨_, modifyElement_eq_ok_iff.mpr ⟨e, hn, rfl⟩⟩

theorem Edited.trans
    {d'' : Document} {n : NodeId} {f g : Element → Element}
    (hf : Edited d d' n f)
    (hg : Edited d' d'' n g) :
    Edited d d'' n (g ∘ f) where
  element_n := hf.element_n
  size := hg.size.trans hf.size
  parent? m := (hg.parent? m).trans (hf.parent? m)
  children m := (hg.children m).trans (hf.children m)
  element? m := by
    rw [hg.element?, hf.element?]
    split
    · cases d.element? m <;> rfl
    · rfl
  ids := hg.ids.trans hf.ids

/-- A change that would hide the one that was made can still be made. -/
theorem Edited.overwrite
    {d'' : Document} {n : NodeId} {f g : Element → Element}
    (hf : Edited d d' n f)
    (hg : Edited d d'' n g)
    (hfg : ∀ e, g (f e) = g e) :
    Edited d' d'' n g where
  element_n := hf.exists_element hf.element_n
  size := hg.size.trans hf.size.symm
  parent? m := (hg.parent? m).trans (hf.parent? m).symm
  children m := (hg.children m).trans (hf.children m).symm
  element? m := by
    rw [hg.element?, hf.element?]
    split
    · cases d.element? m with
      | none => rfl
      | some e => exact congrArg some (hfg e).symm
    · rfl
  ids := hg.ids.trans hf.ids.symm

/-- Two changes of one element, the second on the outcome of the first. -/
theorem modifyElement_twice
    {n : NodeId} {e : Element}
    (f g : Element → Element)
    (hn : d.element? n = some e) :
    ∃ d₁ d₂, d.modifyElement n f = .ok d₁ ∧ d₁.modifyElement n g = .ok d₂ ∧
      Edited d d₂ n (g ∘ f) := by
  obtain ⟨d₁, h₁⟩ := modifyElement_of_element? f hn
  have hedited := modifyElement_spec h₁
  have hn₁ : d₁.element? n = some (f e) := by
    rw [hedited.element?, if_pos rfl, hn]
    rfl
  obtain ⟨d₂, h₂⟩ := modifyElement_of_element? g hn₁
  exact ⟨d₁, d₂, h₁, h₂, hedited.trans (modifyElement_spec h₂)⟩

/-- The place in front of a member of a list. -/
theorem placeBefore_spec
    (x : NodeId)
    {reference : NodeId} {l : List NodeId}
    (hl : reference ∈ l) :
    ∃ before after,
      l = before ++ reference :: after ∧
      placeBefore x reference l = before ++ x :: reference :: after := by
  induction l with
  | nil =>
      simp at hl
  | cons y ys ih =>
      by_cases hy : y = reference
      · subst hy
        exact ⟨[], ys, rfl, by simp [placeBefore]⟩
      · have hys : reference ∈ ys := by
          simpa [Ne.symm hy] using hl
        obtain ⟨before, after, rfl, hplace⟩ := ih hys
        exact ⟨y :: before, after, rfl, by simp [placeBefore, hy, hplace]⟩

namespace WellFormed

variable (h : d.WellFormed)
include h

theorem checkInsert_eq_ok_iff
    {parent child : NodeId} :
    d.checkInsert parent child = .ok () ↔ d.Insertable parent child := by
  have hcycle :
      (parent :: d.ancestors parent).contains child = true ↔
        child = parent ∨ d.Above child parent := by
    rw [List.contains_iff_mem, List.mem_cons, h.mem_ancestors_iff]
  unfold checkInsert
  constructor
  · intro hok
    split at hok
    · simp at hok
    · rename_i hroot
      split at hok
      · simp at hok
      · rename_i hlt
        split at hok
        · simp at hok
        · rename_i helement
          split at hok
          · simp at hok
          · rename_i hno
            rw [hcycle, not_or] at hno
            rw [Option.isNone_iff_eq_none, ← Ne, Option.ne_none_iff_exists'] at helement
            exact ⟨hroot, Nat.lt_of_not_le hlt, helement, hno.1, hno.2⟩
  · rintro ⟨hroot, hlt, ⟨e, he⟩, hne, hnot⟩
    have hno : ¬ (parent :: d.ancestors parent).contains child = true := by
      rw [hcycle]
      exact not_or.mpr ⟨hne, hnot⟩
    rw [if_neg hroot, if_neg (Nat.not_le_of_lt hlt), if_neg (by simp [he]), if_neg hno]

/-- Nothing is missing without a node that is not there. -/
theorem filter_children
    {n m : NodeId}
    (hn : d.parent? n ≠ some m) :
    (d.children m).filter (· != n) = d.children m := by
  rw [List.filter_eq_self]
  intro c hc
  rw [bne_iff_ne]
  rintro rfl
  exact hn ((h.mem_children m c).mp hc)

theorem children_detach
    (n m : NodeId) :
    (d.detach n).children m = (d.children m).filter (· != n) := by
  rw [children_detach_eq]
  split
  · rfl
  · rename_i hm
    exact (h.filter_children hm).symm

/-- Only one node loses a child when a node is taken out of the tree. -/
theorem children_of_removed
    {n p : NodeId}
    (hd : Removed d d' n)
    (hp : d.parent? n = some p)
    (m : NodeId) :
    d'.children m = if m = p then (d.children m).filter (· != n) else d.children m := by
  rw [hd.children]
  split
  · rfl
  · rename_i hm
    apply h.filter_children
    rw [hp]
    simpa using Ne.symm hm

/-- Giving a detached node to a parent, at a place among its children. -/
theorem moved_adopt
    {parent child : NodeId} {before after : List NodeId}
    {place : List NodeId → List NodeId}
    (hinsertable : d.Insertable parent child)
    (hsiblings : (d.children parent).filter (· != child) = before ++ after)
    (hplace : place (before ++ after) = before ++ child :: after) :
    Moved d ((d.detach child).adopt parent child place) parent child before after where
  insertable := hinsertable
  siblings := hsiblings
  size := by simp
  parent? := by
    intro m
    obtain ⟨e, he⟩ := hinsertable.child_element
    rw [parent?_adopt place (by simpa using lt_size_of_element? he), parent?_detach]
    split <;> rfl
  children := by
    intro m
    rw [children_adopt place (by simpa using hinsertable.parent_lt), h.children_detach]
    split
    · rename_i hm
      rw [hm, hsiblings, hplace]
    · rfl
  element? := by simp
  ids := ids_reindex

theorem append_spec
    {parent child : NodeId}
    (hd : d.append parent child = .ok d') :
    Moved d d' parent child ((d.children parent).filter (· != child)) [] := by
  rw [append] at hd
  split at hd
  · simp at hd
  · rename_i hcheck
    cases hd
    exact h.moved_adopt (h.checkInsert_eq_ok_iff.mp hcheck) (by simp) (by simp)

theorem append_of_insertable
    {parent child : NodeId}
    (hinsertable : d.Insertable parent child) :
    ∃ d', d.append parent child = .ok d' := by
  rw [append, h.checkInsert_eq_ok_iff.mpr hinsertable]
  exact ⟨_, rfl⟩

/-- A reference other than the moved node is still there after the detachment. -/
theorem mem_children_detach
    {parent child reference : NodeId}
    (href : d.parent? reference = some parent)
    (hne : child ≠ reference) :
    reference ∈ (d.detach child).children parent := by
  rw [h.children_detach, List.mem_filter, bne_iff_ne]
  exact ⟨(h.mem_children _ _).mpr href, Ne.symm hne⟩

theorem insertBefore_spec
    {parent child reference : NodeId}
    (hd : d.insertBefore parent child reference = .ok d') :
    (child = reference ∧ d' = d) ∨
      ∃ before after, Moved d d' parent child before (reference :: after) := by
  rw [insertBefore] at hd
  split at hd
  · simp at hd
  · rename_i href
    rw [ne_eq, not_not] at href
    split at hd
    · rename_i hsame
      cases hd
      exact .inl ⟨hsame, rfl⟩
    · rename_i hne
      right
      split at hd
      · simp at hd
      · rename_i hcheck
        have hmem := h.mem_children_detach href hne
        obtain ⟨before, after, hsiblings, hplace⟩ := placeBefore_spec child hmem
        rw [h.children_detach] at hsiblings hplace
        rw [if_pos (List.contains_iff_mem.mpr hmem)] at hd
        cases hd
        refine ⟨before, after, ?_⟩
        rw [hsiblings] at hplace
        exact h.moved_adopt (h.checkInsert_eq_ok_iff.mp hcheck) hsiblings hplace

theorem insertBefore_of_insertable
    {parent child reference : NodeId}
    (href : d.parent? reference = some parent)
    (hne : child ≠ reference)
    (hinsertable : d.Insertable parent child) :
    ∃ d', d.insertBefore parent child reference = .ok d' := by
  have hmem := List.contains_iff_mem.mpr (h.mem_children_detach href hne)
  rw [insertBefore, if_neg (by simpa using href), if_neg hne,
    h.checkInsert_eq_ok_iff.mpr hinsertable]
  simp only [hmem, if_true]
  exact ⟨_, rfl⟩

theorem remove_of_element?
    {n : NodeId} {e : Element}
    (hn : d.element? n = some e) :
    ∃ d', d.remove n = .ok d' := by
  have hroot := h.ne_root_of_element? hn
  have hlt := lt_size_of_element? hn
  rw [remove, if_neg hroot, if_neg (Nat.not_le_of_lt hlt)]
  exact ⟨_, rfl⟩

theorem remove_spec
    {n : NodeId}
    (hd : d.remove n = .ok d') :
    n ≠ root ∧ Removed d d' n := by
  rw [remove] at hd
  split at hd
  · simp at hd
  · rename_i hroot
    split at hd
    · simp at hd
    · cases hd
      refine ⟨hroot, by simp, ?_, ?_, by simp, ids_reindex⟩
      · intro m
        rw [parent?_reindex, parent?_detach]
      · intro m
        rw [children_reindex, h.children_detach]

end WellFormed

end Specs

section Invariants

theorem above_congr
    (hparent : ∀ m, d'.parent? m = d.parent? m)
    {a n : NodeId} :
    d'.Above a n ↔ d.Above a n := by
  simp only [Above, hparent]

/-- A way up after a move goes past the new link at most once. -/
theorem above_of_moved
    {parent child a n : NodeId} {before after : List NodeId}
    (hd : Moved d d' parent child before after)
    (ha : d'.Above a n) :
    d.Above a n ∨
      ((child = n ∨ d.Above child n) ∧ (a = parent ∨ d.Above a parent)) := by
  induction ha with
  | single hp =>
      rw [hd.parent?] at hp
      split at hp
      · rename_i hn
        cases hp
        exact .inr ⟨.inl hn.symm, .inl rfl⟩
      · exact .inl (above_of_parent? hp)
  | @tail b a _ hp ih =>
      rw [hd.parent?] at hp
      split at hp
      · rename_i hb
        subst hb
        cases hp
        rcases ih with hbn | ⟨hbn, _⟩
        · exact .inr ⟨.inr hbn, .inl rfl⟩
        · exact .inr ⟨hbn, .inl rfl⟩
      · have hab := above_of_parent? hp
        rcases ih with hbn | ⟨hchild, rfl | hbp⟩
        · exact .inl (hab.trans hbn)
        · exact .inr ⟨hchild, .inr hab⟩
        · exact .inr ⟨hchild, .inr (hab.trans hbp)⟩

theorem above_of_removed
    {n a m : NodeId}
    (hd : Removed d d' n)
    (ha : d'.Above a m) :
    d.Above a m := by
  refine Relation.TransGen.mono ?_ _ _ ha
  intro x y hy
  rw [hd.parent?] at hy
  split at hy
  · simp at hy
  · exact hy

theorem wellFormed_empty : Document.empty.WellFormed := by
  have hparent : ∀ n, Document.empty.parent? n = none := by
    intro n
    cases n <;> rfl
  have hchildren : ∀ n, Document.empty.children n = [] := by
    intro n
    cases n <;> rfl
  refine ⟨by decide, rfl, ?_, rfl, ?_, ?_, ?_, ?_⟩
  · intro n hn hroot
    exact absurd (Nat.lt_one_iff.mp hn) hroot
  · simp [hparent, hchildren]
  · simp [hchildren]
  · simp [hparent]
  · exact fun n => not_above_of_parent?_none (hparent n)

namespace WellFormed

variable (h : d.WellFormed)
include h

theorem created
    {e : Element}
    (hd : Created d d' e) :
    d'.WellFormed where
  root_lt := by
    rw [hd.size]
    exact Nat.lt_succ_of_lt h.root_lt
  element_root := by
    rw [hd.element?, if_neg (Nat.ne_of_lt h.root_lt)]
    exact h.element_root
  element_of_lt := by
    intro n hn hroot
    rw [hd.element?]
    split
    · exact ⟨e, rfl⟩
    · rename_i hne
      rw [hd.size] at hn
      exact h.element_of_lt n (Nat.lt_of_le_of_ne (Nat.le_of_lt_succ hn) hne) hroot
  parent_root := (hd.parent? root).trans h.parent_root
  mem_children := by
    intro p c
    rw [hd.children, hd.parent?, h.mem_children]
  nodup_children := by
    intro p
    rw [hd.children]
    exact h.nodup_children p
  parent_lt := by
    intro c p hp
    rw [hd.parent?] at hp
    rw [hd.size]
    exact Nat.lt_succ_of_lt (h.parent_lt c p hp)
  acyclic := by
    intro n
    rw [above_congr hd.parent?]
    exact h.acyclic n

theorem edited
    {n : NodeId} {f : Element → Element}
    (hd : Edited d d' n f) :
    d'.WellFormed where
  root_lt := hd.size ▸ h.root_lt
  element_root := by
    rw [hd.element?, h.element_root]
    split <;> rfl
  element_of_lt := by
    intro m hm hroot
    obtain ⟨e, he⟩ := h.element_of_lt m (hd.size ▸ hm) hroot
    rw [hd.element?, he]
    split
    · exact ⟨f e, rfl⟩
    · exact ⟨e, rfl⟩
  parent_root := (hd.parent? root).trans h.parent_root
  mem_children := by
    intro p c
    rw [hd.children, hd.parent?, h.mem_children]
  nodup_children := by
    intro p
    rw [hd.children]
    exact h.nodup_children p
  parent_lt := by
    intro c p hp
    rw [hd.parent?] at hp
    rw [hd.size]
    exact h.parent_lt c p hp
  acyclic := by
    intro m
    rw [above_congr hd.parent?]
    exact h.acyclic m

theorem removed
    {n : NodeId}
    (hd : Removed d d' n) :
    d'.WellFormed where
  root_lt := hd.size ▸ h.root_lt
  element_root := (hd.element? root).trans h.element_root
  element_of_lt := by
    intro m hm hroot
    rw [hd.element?]
    exact h.element_of_lt m (hd.size ▸ hm) hroot
  parent_root := by
    rw [hd.parent?, h.parent_root]
    split <;> rfl
  mem_children := by
    intro p c
    rw [hd.children, hd.parent?, List.mem_filter, bne_iff_ne, h.mem_children]
    by_cases hc : c = n <;> simp [hc]
  nodup_children := by
    intro p
    rw [hd.children]
    exact (h.nodup_children p).filter _
  parent_lt := by
    intro c p hp
    rw [hd.parent?] at hp
    rw [hd.size]
    split at hp
    · simp at hp
    · exact h.parent_lt c p hp
  acyclic := by
    intro m hm
    exact h.acyclic m (above_of_removed hd hm)

theorem moved
    {parent child : NodeId} {before after : List NodeId}
    (hd : Moved d d' parent child before after) :
    d'.WellFormed where
  root_lt := hd.size ▸ h.root_lt
  element_root := (hd.element? root).trans h.element_root
  element_of_lt := by
    intro m hm hroot
    rw [hd.element?]
    exact h.element_of_lt m (hd.size ▸ hm) hroot
  parent_root := by
    rw [hd.parent?, if_neg (Ne.symm hd.insertable.child_ne_root)]
    exact h.parent_root
  mem_children := by
    intro p c
    have hmem : ∀ q, c ∈ (d.children q).filter (· != child) ↔
        c ≠ child ∧ d.parent? c = some q := by
      intro q
      rw [List.mem_filter, bne_iff_ne, h.mem_children, and_comm]
    rw [hd.children, hd.parent?]
    by_cases hp : p = parent
    · subst hp
      rw [if_pos rfl, List.perm_middle.mem_iff, List.mem_cons, ← hd.siblings, hmem]
      by_cases hc : c = child <;> simp [hc]
    · rw [if_neg hp, hmem]
      by_cases hc : c = child
      · simp [hc, Ne.symm hp]
      · simp [hc]
  nodup_children := by
    intro p
    rw [hd.children]
    split
    · rw [List.nodup_middle, ← hd.siblings]
      exact List.nodup_cons.mpr ⟨by simp, (h.nodup_children _).filter _⟩
    · exact (h.nodup_children p).filter _
  parent_lt := by
    intro c p hp
    rw [hd.parent?] at hp
    rw [hd.size]
    split at hp
    · cases hp
      exact hd.insertable.parent_lt
    · exact h.parent_lt c p hp
  acyclic := by
    intro n hn
    rcases above_of_moved hd hn with hn | ⟨hchild, hparent⟩
    · exact h.acyclic n hn
    · rcases hchild with rfl | hchild <;> rcases hparent with rfl | hparent
      · exact hd.insertable.child_ne_parent rfl
      · exact hd.insertable.not_above hparent
      · exact hd.insertable.not_above hchild
      · exact hd.insertable.not_above (hchild.trans hparent)

/-- A new node can be put below every node that is there. -/
theorem insertable_size
    {e : Element} {parent : NodeId}
    (hparent : parent < d.size)
    (hd : Created d d' e) :
    d'.Insertable parent d.size where
  child_ne_root := Nat.ne_of_gt h.root_lt
  parent_lt := by
    rw [hd.size]
    exact Nat.lt_succ_of_lt hparent
  child_element := ⟨e, by rw [hd.element?, if_pos rfl]⟩
  child_ne_parent := Nat.ne_of_gt hparent
  not_above := by
    rw [above_congr hd.parent?]
    intro habove
    exact Nat.lt_irrefl _ (h.lt_of_above habove)

end WellFormed
end Invariants

end Document
end LiveForms
