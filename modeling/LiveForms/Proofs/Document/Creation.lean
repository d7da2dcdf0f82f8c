import LiveForms.Proofs.Document.Runs

/-!
# Live forms: new elements below nodes that are there

Creating an element below a node that is there is never refused. It adds one node, which
becomes the last child of the other one, and leaves the parents, the elements and all other
children as they were. Whatever is built in this way only grows.

Main definitions:

* `Document.Grown`, `Document.Extended`: documents to which nodes have been added.
* `Document.Appended`: documents to which one element has been added as a last child.

Main statement:

* `Document.WellFormed.create_spec`: one new element.
-/

namespace LiveForms
namespace Document

/-- `d'` has the nodes of `d`, with the parents and the elements that they have there. -/
structure Grown (d d' : Document) : Prop where
  steps : Steps d d'
  size_le : d.size ≤ d'.size
  parent? : ∀ n, n < d.size → d'.parent? n = d.parent? n
  element? : ∀ n, n < d.size → d'.element? n = d.element? n

/--
`d'` has the nodes of `d` and new ones. Those of `tops` come behind the children of
`parent`, and the other nodes of `d` keep their children.
-/
structure Extended (d d' : Document) (parent : NodeId) (tops : List NodeId) : Prop where
  grown : Grown d d'
  children : ∀ n, n < d.size →
    d'.children n = if n = parent then d.children n ++ tops else d.children n

/-- `d'` has one more node than `d`, the last child of `parent`. -/
structure Appended (d d' : Document) (parent : NodeId) (e : Element) : Prop where
  size : d'.size = d.size + 1
  parent? : ∀ m, d'.parent? m = if m = d.size then some parent else d.parent? m
  children : ∀ m,
    d'.children m = if m = parent then d.children m ++ [d.size] else d.children m
  element? : ∀ m, d'.element? m = if m = d.size then some e else d.element? m
  steps : Steps d d'

variable {d d' : Document}

theorem Grown.refl
    (d : Document) :
    Grown d d :=
  ⟨.refl, Nat.le_refl _, fun _ _ => rfl, fun _ _ => rfl⟩

theorem Grown.trans
    {d'' : Document}
    (h : Grown d d')
    (h' : Grown d' d'') :
    Grown d d'' := by
  refine ⟨h.steps.trans h'.steps, Nat.le_trans h.size_le h'.size_le, ?_, ?_⟩
  · intro n hn
    have hn' : n < d'.size := Nat.lt_of_lt_of_le hn h.size_le
    exact (h'.parent? n hn').trans (h.parent? n hn)
  · intro n hn
    have hn' : n < d'.size := Nat.lt_of_lt_of_le hn h.size_le
    exact (h'.element? n hn').trans (h.element? n hn)

theorem Extended.refl
    (d : Document)
    (parent : NodeId) :
    Extended d d parent [] :=
  ⟨.refl d, by simp⟩

theorem Extended.trans
    {d'' : Document} {parent : NodeId} {tops more : List NodeId}
    (h : Extended d d' parent tops)
    (h' : Extended d' d'' parent more) :
    Extended d d'' parent (tops ++ more) := by
  refine ⟨h.grown.trans h'.grown, ?_⟩
  intro n hn
  rw [h'.children n (Nat.lt_of_lt_of_le hn h.grown.size_le), h.children n hn]
  split
  · rw [List.append_assoc]
  · rfl

/-- What comes below a new node does not matter to the nodes that were there. -/
theorem Extended.trans_inside
    {d'' : Document} {parent n : NodeId} {tops inside : List NodeId}
    (h : Extended d d' parent tops)
    (h' : Extended d' d'' n inside)
    (hn : d.size ≤ n) :
    Extended d d'' parent tops := by
  refine ⟨h.grown.trans h'.grown, ?_⟩
  intro k hk
  rw [h'.children k (Nat.lt_of_lt_of_le hk h.grown.size_le),
    if_neg (Nat.ne_of_lt (Nat.lt_of_lt_of_le hk hn)), h.children k hk]

theorem Appended.extended
    {parent : NodeId} {e : Element}
    (hd : Appended d d' parent e) :
    Extended d d' parent [d.size] := by
  refine ⟨⟨hd.steps, by rw [hd.size]; exact Nat.le_succ _, ?_, ?_⟩, ?_⟩
  · intro n hn
    rw [hd.parent?, if_neg (Nat.ne_of_lt hn)]
  · intro n hn
    rw [hd.element?, if_neg (Nat.ne_of_lt hn)]
  · intro n _
    exact hd.children n

/-- What lies above a node that was there still does. -/
theorem Grown.above
    {a n : NodeId}
    (hd : Grown d d')
    (ha : d.Above a n) :
    d'.Above a n := by
  refine Relation.TransGen.mono ?_ _ _ ha
  intro x y hy
  rw [hd.parent? x (lt_size_of_parent? hy), hy]

theorem grown_createDetached
    (d : Document)
    (e : Element) :
    Grown d (d.createDetached e).1 := by
  have hd := created_createDetached d e
  refine ⟨.single (.created hd), by rw [hd.size]; exact Nat.le_succ _, ?_, ?_⟩
  · intro n _
    exact hd.parent? n
  · intro n hn
    rw [hd.element?, if_neg (Nat.ne_of_lt hn)]

namespace WellFormed

variable (h : d.WellFormed)
include h

/-- Nothing comes to lie above a node that was there. -/
theorem above_of_grown
    {a n : NodeId}
    (hd : Grown d d')
    (hn : n < d.size)
    (ha : d'.Above a n) :
    d.Above a n := by
  induction ha with
  | single hp =>
      rw [hd.parent? n hn] at hp
      exact above_of_parent? hp
  | tail _ hp ih =>
      rw [hd.parent? _ (h.lt_of_above ih)] at hp
      exact (above_of_parent? hp).trans ih

/-- A node that moves in from nowhere goes between the children that are there. -/
theorem children_of_moved_in
    {parent child : NodeId} {before after : List NodeId}
    (hchild : d.parent? child = none)
    (hd : Moved d d' parent child before after) :
    d.children parent = before ++ after ∧
      ∀ m, d'.children m = if m = parent then before ++ child :: after else d.children m := by
  have hfilter : ∀ m, (d.children m).filter (· != child) = d.children m := by
    intro m
    apply h.filter_children
    rw [hchild]
    simp
  refine ⟨?_, ?_⟩
  · rw [← hd.siblings, hfilter]
  · intro m
    rw [hd.children, hfilter]

theorem create_spec
    {parent : NodeId}
    (hparent : parent < d.size)
    (e : Element) :
    ∃ d', d.create parent e = (d', .ok d.size) ∧ Appended d d' parent e := by
  have hcreated := created_createDetached d e
  have h₁ := h.created hcreated
  obtain ⟨d', happend⟩ := h₁.append_of_insertable (h.insertable_size hparent hcreated)
  have hmoved := h₁.append_spec happend
  have hnew : (d.createDetached e).1.parent? d.size = none := by
    rw [hcreated.parent?]
    exact parent?_of_size_le (Nat.le_refl _)
  obtain ⟨hsiblings, hchildren⟩ := h₁.children_of_moved_in hnew hmoved
  have hpair : d.createDetached e = ((d.createDetached e).1, d.size) := rfl
  refine ⟨d', ?_, ?_⟩
  · rw [create, hpair]
    simp only [happend]
  refine ⟨hmoved.size.trans hcreated.size, ?_, ?_, ?_, ?_⟩
  · intro m
    rw [hmoved.parent?, hcreated.parent?]
  · intro m
    rw [List.append_nil] at hsiblings
    rw [hchildren, ← hsiblings, hcreated.children, hcreated.children]
    split
    · rename_i hm
      rw [hm]
    · rfl
  · intro m
    rw [hmoved.element?, hcreated.element?]
  · exact .tail (.single (.created hcreated)) (.moved hmoved)

end WellFormed
end Document
end LiveForms
