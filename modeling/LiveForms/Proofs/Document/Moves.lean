import LiveForms.Proofs.Document.Creation
import LiveForms.Proofs.Document.Order

/-!
# Live forms: moves that are made and moves that are refused

The links of a document say which moves it refuses. A refused change leaves the document as
it was, except that an element that was to be created stays there without a parent. A move
that is made changes the list of children that the node leaves and the one that it enters;
all other lists stay, and so does everything below the node that moves.

An insertion takes the node from its parent before it looks for the new place, and has an
error for the case that there is none. `Document.insertInPlace` says this step by step, with
the document that is left in this case. It is never left like that: the new sibling is not
the node that moves, so it is still where it was.

Main definitions:

* `Document.Barred`: a node that cannot come to lie below another one.
* `Document.SubtreeKept`: all that is below a node stays as it is.
* `Document.Appends`, `Document.Inserts`, `Document.Removes`, `Document.Creates`: when the
  four changes of the links are refused, and what they do.

Main statement:

* `Document.moves_ofChanges`: all four, in every document that changes lead to.
-/

namespace LiveForms
namespace Document

/-- `child` cannot come to lie below `parent`: it is the root or no element, or `parent` is in
its subtree. -/
def Barred (d : Document) (parent child : NodeId) : Prop :=
  child = root ∨ d.element? child = none ∨ child = parent ∨ d.Above child parent

/-- What is below `n` is the same in both documents. -/
structure SubtreeKept (d d' : Document) (n : NodeId) : Prop where
  descendants : d'.descendants n = d.descendants n
  children : ∀ m, n = m ∨ d.Above n m → d'.children m = d.children m
  parent? : ∀ m, d.Above n m → d'.parent? m = d.parent? m
  element? : ∀ m, n = m ∨ d.Above n m → d'.element? m = d.element? m

/-- The document after a change that may be refused, and the refusal. -/
def attempt (d : Document) :
    Except DocumentError Document → Document × Option DocumentError
  | .ok changed => (changed, none)
  | .error e => (d, some e)

/--
The insertion of `child` in front of `reference`, step by step. A place that is not found
leaves the node without a parent.
-/
def insertInPlace (d : Document) (parent child reference : NodeId) :
    Document × Option DocumentError :=
  if d.parent? reference ≠ some parent then
    (d, some (.notAChild reference parent))
  else if child = reference then
    (d, none)
  else
    match d.checkInsert parent child with
    | .error e => (d, some e)
    | .ok () =>
        match ((d.detach child).children parent).idxOf? reference with
        | none => (d.detach child, some (.notAChild reference parent))
        | some index =>
            ((d.detach child).adopt parent child fun siblings => siblings.insertIdx index child,
              none)

/-- Moving `child` to the end of the children of `parent`. -/
structure Appends (d : Document) (parent child : NodeId) : Prop where
  refused_iff : (∃ e, d.append parent child = .error e) ↔
    d.size ≤ parent ∨ d.Barred parent child
  kept : ∀ e, d.append parent child = .error e → d.change (.append parent child) = d
  moved : ∀ d', d.append parent child = .ok d' →
    d.Moved d' parent child ((d.children parent).filter (· != child)) [] ∧
      d.SubtreeKept d' child

/--
Moving `child` to the place in front of `reference`. The error for a node that is no child is
the answer to the first question only, and made in place the change leaves the same document.
-/
structure Inserts (d : Document) (parent child reference : NodeId) : Prop where
  refused_iff : (∃ e, d.insertBefore parent child reference = .error e) ↔
    d.parent? reference ≠ some parent ∨ child ≠ reference ∧ d.Barred parent child
  inPlace : d.insertInPlace parent child reference =
    d.attempt (d.insertBefore parent child reference)
  notAChild_iff : d.insertBefore parent child reference = .error (.notAChild reference parent) ↔
    d.parent? reference ≠ some parent
  same : ∀ d', d.insertBefore parent child reference = .ok d' → child = reference → d' = d
  moved : ∀ d', d.insertBefore parent child reference = .ok d' → child ≠ reference →
    ∃ before after, d.Moved d' parent child before (reference :: after) ∧
      d.SubtreeKept d' child

/-- Taking `n` out of the tree. -/
structure Removes (d : Document) (n : NodeId) : Prop where
  refused_iff : (∃ e, d.remove n = .error e) ↔ n = root ∨ d.size ≤ n
  kept : ∀ e, d.remove n = .error e → d.change (.remove n) = d
  removed : ∀ d', d.remove n = .ok d' → d.Removed d' n ∧ d.SubtreeKept d' n

/-- Creating an element as the last child of `parent`. -/
structure Creates (d : Document) (parent : NodeId) (e : Element) : Prop where
  refused_iff : (∃ err, (d.create parent e).2 = .error err) ↔ d.size ≤ parent
  kept : ∀ err, (d.create parent e).2 = .error err → d.Created (d.create parent e).1 e
  created : ∀ n, (d.create parent e).2 = .ok n →
    n = d.size ∧ d.Appended (d.create parent e).1 parent e

variable {d d' : Document}

theorem exists_error_iff
    {α β : Type}
    {outcome : Except α β} :
    (∃ e, outcome = .error e) ↔ ¬ ∃ a, outcome = .ok a := by
  cases outcome with
  | error e => simp
  | ok a => simp

/-- Where a list has a member for the first time, a new member is put in front of it. -/
theorem placeBefore_eq_insertIdx
    (x : NodeId)
    {reference : NodeId} {l : List NodeId} {index : Nat}
    (hindex : l.idxOf? reference = some index) :
    placeBefore x reference l = l.insertIdx index x := by
  induction l generalizing index with
  | nil =>
      simp at hindex
  | cons y ys ih =>
      rw [List.idxOf?_cons] at hindex
      by_cases hy : y = reference
      · subst hy
        simp only [beq_self_eq_true, if_true, Option.some.injEq] at hindex
        subst hindex
        simp [placeBefore]
      · simp only [beq_iff_eq, hy, if_false, Option.map_eq_some_iff] at hindex
        obtain ⟨i, hi, rfl⟩ := hindex
        simp [placeBefore, hy, ih hi]

theorem modify_congr
    {n : NodeId} {f g : Node → Node}
    (hfg : ∀ node, d.nodes[n]? = some node → f node = g node) :
    d.modify n f = d.modify n g := by
  have hnodes : (d.modify n f).nodes = (d.modify n g).nodes := by
    apply Array.ext_getElem?
    intro m
    rw [nodes_modify, nodes_modify]
    split
    · rename_i hm
      subst hm
      cases hnode : d.nodes[n]? with
      | none => rfl
      | some node => exact congrArg some (hfg node hnode)
    · rfl
  simpa [modify] using hnodes

/-- Only what becomes of the children that are there matters. -/
theorem adopt_congr
    {parent child : NodeId} {place place' : List NodeId → List NodeId}
    (hplace : place (d.children parent) = place' (d.children parent)) :
    d.adopt parent child place = d.adopt parent child place' := by
  rw [adopt, adopt]
  congr 1
  apply modify_congr
  intro node hnode
  have hchildren : node.children = d.children parent := by
    rw [← children_modify_parent d child parent (some parent), children, hnode]
    rfl
  rw [hchildren, hplace]

theorem checkInsert_ne_notAChild
    {parent child n p : NodeId} :
    d.checkInsert parent child ≠ .error (.notAChild n p) := by
  unfold checkInsert
  intro he
  split at he
  · cases he
  · split at he
    · cases he
    · split at he
      · cases he
      · split at he
        · cases he
        · cases he

theorem insertable_iff
    {parent child : NodeId} :
    d.Insertable parent child ↔ ¬ (d.size ≤ parent ∨ d.Barred parent child) := by
  simp only [Barred, not_or, Nat.not_le]
  constructor
  · intro hinsertable
    obtain ⟨e, he⟩ := hinsertable.child_element
    exact ⟨hinsertable.parent_lt, hinsertable.child_ne_root, by simp [he],
      hinsertable.child_ne_parent, hinsertable.not_above⟩
  · rintro ⟨hparent, hroot, helement, hne, hnot⟩
    exact ⟨hroot, hparent, Option.ne_none_iff_exists'.mp helement, hne, hnot⟩

namespace WellFormed

variable (h : d.WellFormed)
include h

section Below

/-- Fuel for more levels than there are nodes does not list more. -/
theorem belowFrom_of_size_le
    {fuel : Nat} {n : NodeId}
    (hfuel : d.size ≤ fuel) :
    d.belowFrom fuel n = d.descendants n := by
  induction hfuel with
  | refl => rfl
  | step hfuel ih =>
      rw [h.belowFrom_succ (Nat.le_add_right_of_le hfuel), ih]

/-- No node below another one has it among its children. -/
theorem filter_children_below
    {n m : NodeId}
    (hm : n = m ∨ d.Above n m) :
    (d.children m).filter (· != n) = d.children m := by
  apply h.filter_children
  intro hparent
  exact h.acyclic m (above_of_child hparent hm)

/-- The nodes below `n` are decided by the lists of children there. -/
theorem descendants_of_children
    (h' : d'.WellFormed)
    {n : NodeId}
    (hchildren : ∀ m, n = m ∨ d.Above n m → d'.children m = d.children m) :
    d'.descendants n = d.descendants n := by
  have hclosed : ∀ m, n = m ∨ d.Above n m → ∀ c ∈ d.children m, n = c ∨ d.Above n c := by
    intro m hm c hc
    have hmc := above_of_parent? ((h.mem_children m c).mp hc)
    rcases hm with rfl | hm
    · exact .inr hmc
    · exact .inr (hm.trans hmc)
  -- the documents may differ in size, so both lists are taken with fuel for the larger one
  rw [← h.belowFrom_of_size_le (Nat.le_max_left d.size d'.size),
    ← h'.belowFrom_of_size_le (Nat.le_max_right d.size d'.size)]
  exact belowFrom_congr hclosed hchildren _ (.inl rfl)

theorem subtreeKept_of_moved
    {parent child : NodeId} {before after : List NodeId}
    (hd : Moved d d' parent child before after) :
    d.SubtreeKept d' child where
  descendants := h.descendants_child_of_moved hd
  children m hm := by
    have hne : m ≠ parent := by
      rintro rfl
      exact hm.elim hd.insertable.child_ne_parent hd.insertable.not_above
    rw [hd.children, if_neg hne, h.filter_children_below hm]
  parent? m hm := by
    rw [hd.parent?, if_neg (Ne.symm (h.ne_of_above hm))]
  element? m _ := hd.element? m

theorem subtreeKept_of_removed
    {n : NodeId}
    (hd : Removed d d' n) :
    d.SubtreeKept d' n := by
  have hchildren : ∀ m, n = m ∨ d.Above n m → d'.children m = d.children m := by
    intro m hm
    rw [hd.children, h.filter_children_below hm]
  refine ⟨h.descendants_of_children (h.removed hd) hchildren, hchildren, ?_,
    fun m _ => hd.element? m⟩
  intro m hm
  rw [hd.parent?, if_neg (Ne.symm (h.ne_of_above hm))]

/-- What is below a node of a subtree stays with the subtree. -/
theorem subtreeKept_below
    (h' : d'.WellFormed)
    {n m : NodeId}
    (hkept : d.SubtreeKept d' n)
    (hm : n = m ∨ d.Above n m) :
    d.SubtreeKept d' m := by
  have hbelow : ∀ {x}, d.Above m x → d.Above n x := by
    intro x hx
    rcases hm with rfl | hm
    · exact hx
    · exact hm.trans hx
  have hself : ∀ x, m = x ∨ d.Above m x → n = x ∨ d.Above n x := by
    rintro x (rfl | hx)
    · exact hm
    · exact .inr (hbelow hx)
  have hchildren : ∀ x, m = x ∨ d.Above m x → d'.children x = d.children x :=
    fun x hx => hkept.children x (hself x hx)
  exact ⟨h.descendants_of_children h' hchildren, hchildren,
    fun x hx => hkept.parent? x (hbelow hx), fun x hx => hkept.element? x (hself x hx)⟩

/-- A search in a subtree finds the same as long as the subtree stays. -/
theorem findAll_of_subtreeKept
    {n : NodeId}
    (hkept : d.SubtreeKept d' n)
    (p : Element → Bool) :
    d'.findAll n p = d.findAll n p := by
  rw [findAll, findAll, hkept.descendants]
  apply List.filter_congr
  intro m hm
  rw [nodeIs, nodeIs, hkept.element? m (.inr (h.mem_descendants_iff.mp hm))]

end Below

section Changes

theorem appends
    (parent child : NodeId) :
    d.Appends parent child where
  refused_iff := by
    rw [exists_error_iff, not_iff_comm, ← insertable_iff]
    constructor
    · exact h.append_of_insertable
    · rintro ⟨d', hd⟩
      exact (h.append_spec hd).insertable
  kept e he := by rw [change, he, orKeep]
  moved d' hd := ⟨h.append_spec hd, h.subtreeKept_of_moved (h.append_spec hd)⟩

/-- The place is looked up after the node has left its parent, and it is always found. -/
theorem insertInPlace_eq
    (parent child reference : NodeId) :
    d.insertInPlace parent child reference =
      d.attempt (d.insertBefore parent child reference) := by
  rw [insertInPlace, insertBefore]
  split
  · rfl
  · rename_i href
    rw [ne_eq, not_not] at href
    split
    · rfl
    · rename_i hne
      cases d.checkInsert parent child with
      | error e => rfl
      | ok _ =>
          have hmem := h.mem_children_detach href hne
          cases hindex : ((d.detach child).children parent).idxOf? reference with
          | none => exact absurd hmem (List.idxOf?_eq_none_iff.mp hindex)
          | some index =>
              simp only [List.contains_iff_mem.mpr hmem, if_true, attempt, Prod.mk.injEq,
                and_true]
              exact (adopt_congr (placeBefore_eq_insertIdx child hindex)).symm

theorem insertBefore_eq_ok_iff
    {parent child reference : NodeId} :
    (∃ d', d.insertBefore parent child reference = .ok d') ↔
      d.parent? reference = some parent ∧ (child = reference ∨ d.Insertable parent child) := by
  constructor
  · rintro ⟨d', hd⟩
    refine ⟨?_, ?_⟩
    · by_contra href
      rw [insertBefore, if_pos href] at hd
      cases hd
    · rcases h.insertBefore_spec hd with ⟨hsame, _⟩ | ⟨_, _, hmoved⟩
      · exact .inl hsame
      · exact .inr hmoved.insertable
  · rintro ⟨href, hplace⟩
    by_cases hsame : child = reference
    · exact ⟨d, by rw [insertBefore, if_neg (not_not.mpr href), if_pos hsame]⟩
    · exact h.insertBefore_of_insertable href hsame (hplace.resolve_left hsame)

theorem inserts
    (parent child reference : NodeId) :
    d.Inserts parent child reference where
  refused_iff := by
    rw [exists_error_iff, h.insertBefore_eq_ok_iff, not_and_or, not_or, insertable_iff, not_not]
    by_cases href : d.parent? reference = some parent
    · have hparent := Nat.not_le_of_lt (h.parent_lt reference parent href)
      simp only [href, hparent, false_or, not_true_eq_false, ne_eq]
    · simp only [href, not_false_eq_true, true_or, ne_eq]
  inPlace := h.insertInPlace_eq parent child reference
  notAChild_iff := by
    constructor
    · intro he href
      rw [insertBefore, if_neg (not_not.mpr href)] at he
      split at he
      · cases he
      · rename_i hne
        split at he
        · rename_i err hcheck
          cases he
          exact checkInsert_ne_notAChild hcheck
        · rw [if_pos (List.contains_iff_mem.mpr (h.mem_children_detach href hne))] at he
          cases he
    · intro href
      rw [insertBefore, if_pos href]
  same d' hd hsame := by
    rw [insertBefore, if_pos hsame] at hd
    split at hd
    · cases hd
    · cases hd
      rfl
  moved d' hd hne := by
    rcases h.insertBefore_spec hd with ⟨hsame, _⟩ | ⟨before, after, hmoved⟩
    · exact absurd hsame hne
    · exact ⟨before, after, hmoved, h.subtreeKept_of_moved hmoved⟩

theorem removes
    (n : NodeId) :
    d.Removes n where
  refused_iff := by
    rw [exists_error_iff, not_iff_comm, not_or, Nat.not_le]
    constructor
    · rintro ⟨hroot, hn⟩
      obtain ⟨e, he⟩ := h.element_of_lt n hn hroot
      exact h.remove_of_element? he
    · rintro ⟨d', hd⟩
      refine ⟨(h.remove_spec hd).1, ?_⟩
      by_contra hn
      rw [remove, if_neg (h.remove_spec hd).1, if_pos (Nat.le_of_not_lt hn)] at hd
      cases hd
  kept e he := by rw [change, he, orKeep]
  removed d' hd :=
    ⟨(h.remove_spec hd).2, h.subtreeKept_of_removed (h.remove_spec hd).2⟩

/-- A new element can go below every node that is there, but not below itself. -/
theorem creates
    (parent : NodeId)
    (e : Element) :
    d.Creates parent e := by
  have hcreated := created_createDetached d e
  by_cases hparent : parent < d.size
  · obtain ⟨d', hcreate, happended⟩ := h.create_spec hparent e
    refine ⟨?_, ?_, ?_⟩
    · simp [hcreate, hparent]
    · intro err herr
      rw [hcreate] at herr
      cases herr
    · intro n hn
      rw [hcreate] at hn ⊢
      cases hn
      exact ⟨rfl, happended⟩
  · have hbarred : (d.createDetached e).1.size ≤ parent ∨
        (d.createDetached e).1.Barred parent d.size := by
      rw [hcreated.size]
      rcases Nat.lt_or_eq_of_le (Nat.le_of_not_lt hparent) with hlt | rfl
      · exact .inl hlt
      · exact .inr (.inr (.inr (.inl rfl)))
    obtain ⟨err, herr⟩ := ((h.created hcreated).appends parent d.size).refused_iff.mpr hbarred
    have hcreate : d.create parent e = ((d.createDetached e).1, .error err) := by
      have hpair : d.createDetached e = ((d.createDetached e).1, d.size) := rfl
      rw [create, hpair]
      simp only [herr]
    refine ⟨?_, ?_, ?_⟩
    · simp [hcreate, Nat.le_of_not_lt hparent]
    · intro _ _
      rw [hcreate]
      exact hcreated
    · intro n hn
      rw [hcreate] at hn
      cases hn

end Changes

end WellFormed

/--
Whatever changes have been made, and whatever nodes are named: a node is not moved to the end
of the children of another one if and only if that one is not there, or the node is the root,
is no element or has the other one in its subtree; it is not moved in front of a third one if
and only if that is no child of the other one, or it is a third one and the same reasons
hold; it is not removed if and only if it is the root or not there; and an element is not
created if and only if its parent is not there. Then the document is left as it was, with
the new element in the last case. Otherwise the node leaves its old place and comes to its new
one, and nothing else moves.
-/
theorem moves_ofChanges
    (changes : List Change) :
    (∀ parent child, (ofChanges changes).Appends parent child) ∧
    (∀ parent child reference, (ofChanges changes).Inserts parent child reference) ∧
    (∀ n, (ofChanges changes).Removes n) ∧
    (∀ parent e, (ofChanges changes).Creates parent e) := by
  have h := wellFormed_ofChanges changes
  exact ⟨h.appends, h.inserts, h.removes, h.creates⟩

end Document
end LiveForms
