import LiveForms.Proofs.Document.Changes

/-!
# Live forms: sequences of changes

Documents come about by changes, one after the other, from the document without any
element. A change may name any node numbers, and one that is refused is passed over.

Each change is at most two of the steps of `Document.Step`, so a property of documents
has to be shown for the four kinds of steps only (`Document.steps_change`).

Main statements:

* `Document.wellFormed_ofChanges`: the document of any sequence of changes is a tree. The
  last theorem says this in full, with the loops that walk through it and with what later
  changes leave of its nodes.
-/

namespace LiveForms

/-- What no change of an element touches. -/
structure Element.SameIdentity (e e' : Element) : Prop where
  tag : e'.tag = e.tag
  id : e'.id = e.id
  attrs : e'.attrs = e.attrs
  placeholder : e'.placeholder = e.placeholder
  label : e'.label = e.label

theorem Element.SameIdentity.refl
    (e : Element) :
    e.SameIdentity e :=
  ⟨rfl, rfl, rfl, rfl, rfl⟩

theorem Element.SameIdentity.trans
    {a b c : Element}
    (hab : a.SameIdentity b)
    (hbc : b.SameIdentity c) :
    a.SameIdentity c :=
  ⟨hbc.tag.trans hab.tag, hbc.id.trans hab.id, hbc.attrs.trans hab.attrs,
    hbc.placeholder.trans hab.placeholder, hbc.label.trans hab.label⟩

theorem Element.sameIdentity_addClass
    (e : Element)
    (name : String) :
    e.SameIdentity (e.addClass name) := by
  unfold addClass
  split
  · exact .refl e
  · exact ⟨rfl, rfl, rfl, rfl, rfl⟩

namespace Document

/-- The changes of a document. -/
inductive Change where
  | createDetached (e : Element)
  | create (parent : NodeId) (e : Element)
  | append (parent child : NodeId)
  | insertBefore (parent child reference : NodeId)
  | remove (n : NodeId)
  | setValue (n : NodeId) (value : String)
  | setText (n : NodeId) (text : String)
  | addClass (n : NodeId) (name : String)
  | removeClass (n : NodeId) (name : String)
deriving DecidableEq, Repr

/-- The document after a change that may be refused. -/
def orKeep (d : Document) : Except DocumentError Document → Document
  | .ok changed => changed
  | .error _ => d

/-- The document after a change; a refused one leaves what is there. -/
def change (d : Document) : Change → Document
  | .createDetached e => (d.createDetached e).1
  | .create parent e => (d.create parent e).1
  | .append parent child => d.orKeep (d.append parent child)
  | .insertBefore parent child reference => d.orKeep (d.insertBefore parent child reference)
  | .remove n => d.orKeep (d.remove n)
  | .setValue n value => d.orKeep (d.setValue n value)
  | .setText n text => d.orKeep (d.setText n text)
  | .addClass n name => d.orKeep (d.addClass n name)
  | .removeClass n name => d.orKeep (d.removeClass n name)

/-- The document after a sequence of changes. -/
def run (d : Document) (changes : List Change) : Document :=
  changes.foldl change d

/-- The document that a sequence of changes makes from nothing. -/
def ofChanges (changes : List Change) : Document :=
  empty.run changes

variable {d d' : Document}

section Steps

/-- One step of a change. -/
inductive Step (d d' : Document) : Prop
  | created
      {e : Element}
      (hd : Created d d' e)
  | moved
      {parent child : NodeId} {before after : List NodeId}
      (hd : Moved d d' parent child before after)
  | removed
      {n : NodeId}
      (hd : Removed d d' n)
  | edited
      {n : NodeId} {f : Element → Element}
      (hd : Edited d d' n f)
      (hf : ∀ e : Element, e.SameIdentity (f e))

/-- Any number of steps. -/
def Steps : Document → Document → Prop :=
  Relation.ReflTransGen Step

theorem WellFormed.step
    (h : d.WellFormed)
    (hd : Step d d') :
    d'.WellFormed := by
  cases hd with
  | created hd => exact h.created hd
  | moved hd => exact h.moved hd
  | removed hd => exact h.removed hd
  | edited hd _ => exact h.edited hd

theorem WellFormed.steps
    (h : d.WellFormed)
    (hd : Steps d d') :
    d'.WellFormed := by
  induction hd with
  | refl => exact h
  | tail _ hstep ih => exact ih.step hstep

theorem steps_edit
    {n : NodeId} {f : Element → Element}
    (hf : ∀ e : Element, e.SameIdentity (f e)) :
    Steps d (d.orKeep (d.modifyElement n f)) := by
  cases hd : d.modifyElement n f with
  | error e => exact .refl
  | ok changed => exact .single (.edited (modifyElement_spec hd) hf)

theorem steps_create
    (h : d.WellFormed)
    (parent : NodeId)
    (e : Element) :
    Steps (d.createDetached e).1 (d.create parent e).1 := by
  simp only [create]
  cases hd : (d.createDetached e).1.append parent (d.createDetached e).2 with
  | error err =>
      exact .refl
  | ok appended =>
      have hcreated := created_createDetached d e
      exact .single (.moved ((h.created hcreated).append_spec hd))

/-- A change is a sequence of steps. -/
theorem steps_change
    (h : d.WellFormed)
    (c : Change) :
    Steps d (d.change c) := by
  cases c with
  | createDetached e =>
      exact .single (.created (created_createDetached d e))
  | create parent e =>
      exact .head (.created (created_createDetached d e)) (steps_create h parent e)
  | append parent child =>
      simp only [change]
      cases hd : d.append parent child with
      | error err => exact .refl
      | ok moved => exact .single (.moved (h.append_spec hd))
  | insertBefore parent child reference =>
      simp only [change]
      cases hd : d.insertBefore parent child reference with
      | error err => exact .refl
      | ok moved =>
          rcases h.insertBefore_spec hd with ⟨_, rfl⟩ | ⟨before, after, hmoved⟩
          · exact .refl
          · exact .single (.moved hmoved)
  | remove n =>
      simp only [change]
      cases hd : d.remove n with
      | error err => exact .refl
      | ok removed => exact .single (.removed (h.remove_spec hd).2)
  | setValue n value =>
      exact steps_edit fun _ => ⟨rfl, rfl, rfl, rfl, rfl⟩
  | setText n text =>
      exact steps_edit fun _ => ⟨rfl, rfl, rfl, rfl, rfl⟩
  | addClass n name =>
      exact steps_edit fun e => e.sameIdentity_addClass name
  | removeClass n name =>
      exact steps_edit fun _ => ⟨rfl, rfl, rfl, rfl, rfl⟩

theorem steps_run
    (h : d.WellFormed)
    (changes : List Change) :
    Steps d (d.run changes) := by
  induction changes generalizing d with
  | nil =>
      exact .refl
  | cons c changes ih =>
      have hc := steps_change h c
      exact hc.trans (ih (h.steps hc))

theorem wellFormed_ofChanges
    (changes : List Change) :
    (ofChanges changes).WellFormed :=
  wellFormed_empty.steps (steps_run wellFormed_empty changes)

end Steps

section Nodes

/-- All nodes of `d` are nodes of `d'`, under their numbers. -/
structure Kept (d d' : Document) : Prop where
  size_le : d.size ≤ d'.size
  element? : ∀ n e, d.element? n = some e →
    ∃ e', d'.element? n = some e' ∧ e.SameIdentity e'

theorem Kept.refl
    (d : Document) :
    Kept d d :=
  ⟨Nat.le_refl _, fun _ e he => ⟨e, he, .refl e⟩⟩

theorem Kept.trans
    {d'' : Document}
    (h : Kept d d')
    (h' : Kept d' d'') :
    Kept d d'' := by
  refine ⟨Nat.le_trans h.size_le h'.size_le, ?_⟩
  intro n e he
  obtain ⟨e', he', hsame⟩ := h.element? n e he
  obtain ⟨e'', he'', hsame'⟩ := h'.element? n e' he'
  exact ⟨e'', he'', hsame.trans hsame'⟩

theorem kept_of_step
    (hd : Step d d') :
    Kept d d' := by
  cases hd with
  | created hd =>
      refine ⟨by rw [hd.size]; exact Nat.le_succ _, ?_⟩
      intro n e he
      rw [hd.element?, if_neg (Nat.ne_of_lt (lt_size_of_element? he))]
      exact ⟨e, he, .refl e⟩
  | moved hd =>
      refine ⟨Nat.le_of_eq hd.size.symm, ?_⟩
      intro n e he
      exact ⟨e, (hd.element? n).trans he, .refl e⟩
  | removed hd =>
      refine ⟨Nat.le_of_eq hd.size.symm, ?_⟩
      intro n e he
      exact ⟨e, (hd.element? n).trans he, .refl e⟩
  | edited hd hf =>
      refine ⟨Nat.le_of_eq hd.size.symm, ?_⟩
      intro n e he
      rw [hd.element?, he]
      split
      · exact ⟨_, rfl, hf e⟩
      · exact ⟨e, rfl, .refl e⟩

theorem kept_of_steps
    (hd : Steps d d') :
    Kept d d' := by
  induction hd with
  | refl => exact .refl d
  | tail _ hstep ih => exact ih.trans (kept_of_step hstep)

theorem ofChanges_append
    (changes later : List Change) :
    ofChanges (changes ++ later) = (ofChanges changes).run later :=
  List.foldl_append

theorem Kept.element_created
    {d : Document} {e : Element}
    (h : Kept (d.createDetached e).1 d') :
    ∃ e', d'.element? d.size = some e' ∧ e.SameIdentity e' := by
  apply h.element?
  rw [(created_createDetached d e).element?, if_pos rfl]

/--
Whatever changes are made, in whatever order and with whatever node numbers: the links
are those of a tree, with the root as the only node without an element and below no
other node; every child is stored once, and all numbers are those of nodes; all walks
end; and later changes keep every node under its number, those that a change creates
included.
-/
theorem tree_ofChanges
    (changes later : List Change) :
    (ofChanges changes).WellFormed ∧
    (∀ p c, c ∈ (ofChanges changes).children p →
      c ≠ root ∧ p < (ofChanges changes).size ∧ c < (ofChanges changes).size ∧
      ((ofChanges changes).children p).count c = 1) ∧
    (ofChanges changes).WalksEnd ∧
    Kept (ofChanges changes) (ofChanges (changes ++ later)) ∧
    (∀ e, ∃ e',
      (ofChanges (changes ++ .createDetached e :: later)).element? (ofChanges changes).size =
        some e' ∧ e.SameIdentity e') ∧
    (∀ parent e, ∃ e',
      (ofChanges (changes ++ .create parent e :: later)).element? (ofChanges changes).size =
        some e' ∧ e.SameIdentity e') := by
  have h := wellFormed_ofChanges changes
  refine ⟨h, ?_, h.walksEnd, ?_, ?_, ?_⟩
  · intro p c hc
    have hp := (h.mem_children p c).mp hc
    refine ⟨?_, h.parent_lt c p hp, lt_size_of_parent? hp, ?_⟩
    · rintro rfl
      rw [h.parent_root] at hp
      simp at hp
    · exact List.count_eq_one_of_mem (h.nodup_children p) hc
  · rw [ofChanges_append]
    exact kept_of_steps (steps_run h later)
  · intro e
    have hd := h.created (created_createDetached _ e)
    apply Kept.element_created
    rw [ofChanges_append]
    exact kept_of_steps (steps_run hd later)
  · intro parent e
    have hd := h.created (created_createDetached _ e)
    have hcreate := steps_create h parent e
    apply Kept.element_created
    rw [ofChanges_append]
    exact kept_of_steps (hcreate.trans (steps_run (hd.steps hcreate) later))

end Nodes

end Document
end LiveForms
