import LiveForms.Proofs.Document.Order
import LiveForms.Proofs.Document.Runs

/-!
# Live forms: elements by their ids

A document keeps a list of the ids of its attached elements. New elements and changes of
one element leave the list alone, and moves make it anew, so it is the list that the
document has at the moment (`Document.ids_ofChanges`). Looking an id up in it is a search
for the first attached element with this id in document order.

Main statements:

* `Document.WellFormed.byId_eq_some_iff`: the element that is found for an id.
* `Document.WellFormed.byId_of_removed`, `Document.WellFormed.withBlock_of_movesTo`: what a
  removal and a move do to the ids.
-/

namespace LiveForms
namespace Document

/-- The id of the element of a node. -/
def idOf (d : Document) (n : NodeId) : Option String :=
  (d.element? n).bind Element.id

/-- Whether a search for `id` may find `n`; nothing has the empty id. -/
def holdsId (d : Document) (id : String) (n : NodeId) : Bool :=
  id != "" && d.idOf n == some id

/-- `n` is the first attached node with an id. -/
structure FirstWithId (d : Document) (id : String) (n : NodeId) : Prop where
  attached : d.isAttached n = true
  idOf : d.idOf n = some id
  first : ∀ m, d.isAttached m = true → d.idOf m = some id → m = n ∨ d.Precedes n m

/-- A move of `child` below `parent` that turns `d` into `d'`. -/
def MovesTo (d : Document) (parent child : NodeId) (d' : Document) : Prop :=
  d.append parent child = .ok d' ∨
    ∃ reference, child ≠ reference ∧ d.insertBefore parent child reference = .ok d'

/-- In `d'`, an id is found at its first holder in `d` outside the subtree of `n`. -/
def Without (d d' : Document) (n : NodeId) : Prop :=
  ∀ id, d'.byId id = ((d.descendants root).filter (d.outside n)).find? (d.holdsId id)

/--
In `d'`, the holders of an id in the subtree of `n` come behind those of some attached
nodes of `d` and in front of those of the others.
-/
def WithBlock (d d' : Document) (n : NodeId) : Prop :=
  ∃ front back,
    (d.descendants root).filter (d.outside n) = front ++ back ∧
    ∀ id, d'.byId id =
      ((front.find? (d.holdsId id)).or ((n :: d.descendants n).find? (d.holdsId id))).or
        (back.find? (d.holdsId id))

variable {d d' : Document}

section Ids

theorem lookup_attachedIds
    (d : Document)
    (id : String) :
    d.attachedIds.lookup id = (d.descendants root).find? (d.holdsId id) := by
  rw [attachedIds]
  induction d.descendants root with
  | nil => rfl
  | cons n l ih =>
      have hholds : d.holdsId id n =
        (id != "" && (d.element? n).bind Element.id == some id) := rfl
      rw [List.filterMap_cons, List.find?_cons, hholds, ← ih]
      cases (d.element? n).bind Element.id with
      | none =>
          simp
      | some i =>
          by_cases hi : i = ""
          · have hno : (id != "" && some i == some id) = false := by
              subst hi
              by_cases hid : id = "" <;> simp [hid, Ne.symm]
            simp only [hno, if_pos hi]
          · by_cases hid : i = id
            · subst hid
              simp [bne_iff_ne.mpr hi, hi]
            · have hno : (some i == some id) = false := by simpa using hid
              have hno' : (id == i) = false := by simpa using Ne.symm hid
              simp [hno, hno', hi, List.lookup_cons]

theorem descendants_of_created
    {e : Element}
    (h : d.WellFormed)
    (hd : Created d d' e)
    (n : NodeId) :
    d'.descendants n = d.descendants n := by
  rw [descendants, descendants, hd.size, ← h.belowFrom_succ (by omega)]
  exact belowFrom_congr (fun _ _ _ _ => trivial) (fun m _ => hd.children m) _ trivial

theorem attachedIds_of_created
    {e : Element}
    (h : d.WellFormed)
    (hd : Created d d' e) :
    d'.attachedIds = d.attachedIds := by
  rw [attachedIds, attachedIds, descendants_of_created h hd]
  apply List.filterMap_congr
  intro m hm
  obtain ⟨p, hp, _⟩ := above_iff.mp (h.mem_descendants_iff.mp hm)
  rw [hd.element?, if_neg (Nat.ne_of_lt (lt_size_of_parent? hp))]

theorem ids_of_step
    (h : d.WellFormed)
    (hids : d.ids = d.attachedIds)
    (hd : Step d d') :
    d'.ids = d'.attachedIds := by
  cases hd with
  | created hd =>
      rw [hd.ids, hids, attachedIds_of_created h hd]
  | moved hd => exact hd.ids
  | removed hd => exact hd.ids
  | edited hd hf =>
      rw [hd.ids, hids]
      symm
      apply attachedIds_congr hd.size hd.children
      intro m
      rw [hd.element?]
      split
      · cases d.element? m with
        | none => rfl
        | some e => exact (hf e).id
      · rfl

theorem ids_of_steps
    (h : d.WellFormed)
    (hids : d.ids = d.attachedIds)
    (hd : Steps d d') :
    d'.ids = d'.attachedIds := by
  induction hd with
  | refl => exact hids
  | tail hsteps hstep ih => exact ids_of_step (h.steps hsteps) ih hstep

theorem ids_ofChanges
    (changes : List Change) :
    (ofChanges changes).ids = (ofChanges changes).attachedIds :=
  ids_of_steps wellFormed_empty (by decide) (steps_run wellFormed_empty changes)

end Ids

section Searches

theorem byId_eq_find?
    (hids : d.ids = d.attachedIds)
    (id : String) :
    d.byId id = (d.descendants root).find? (d.holdsId id) := by
  rw [byId, hids, lookup_attachedIds]

theorem holdsId_congr
    (helement : ∀ m, d'.element? m = d.element? m)
    {id : String} :
    d'.holdsId id = d.holdsId id := by
  funext n
  rw [holdsId, holdsId, idOf, idOf, helement]

theorem holdsId_iff
    {id : String} {n : NodeId} :
    d.holdsId id n = true ↔ id ≠ "" ∧ d.idOf n = some id := by
  simp [holdsId]

namespace WellFormed

variable (h : d.WellFormed)
include h

theorem mem_descendants_of_idOf
    {id : String} {n : NodeId}
    (hn : d.isAttached n = true)
    (hid : d.idOf n = some id) :
    n ∈ d.descendants root := by
  obtain ⟨e, he, _⟩ := Option.bind_eq_some_iff.mp hid
  exact h.mem_descendants_root_iff.mpr ⟨h.ne_root_of_element? he, hn⟩

theorem firstWithId_of_byId
    (hids : d.ids = d.attachedIds)
    {id : String} {n : NodeId}
    (hn : d.byId id = some n) :
    id ≠ "" ∧ d.FirstWithId id n := by
  rw [byId_eq_find? hids, List.find?_eq_some_iff_append] at hn
  obtain ⟨hholds, before, after, hsplit, hbefore⟩ := hn
  obtain ⟨hne, hid⟩ := holdsId_iff.mp hholds
  have hmem : n ∈ d.descendants root := by simp [hsplit]
  refine ⟨hne, (h.mem_descendants_root_iff.mp hmem).2, hid, ?_⟩
  intro m hm hmid
  have hmem' := h.mem_descendants_of_idOf hm hmid
  rw [hsplit, List.mem_append, List.mem_cons] at hmem'
  rcases hmem' with hm | rfl | hm
  · have hnot := hbefore m hm
    simp [holdsId_iff.mpr ⟨hne, hmid⟩] at hnot
  · exact .inl rfl
  · have hsorted := h.pairwise_descendants root
    rw [hsplit, List.pairwise_append, List.pairwise_cons] at hsorted
    exact .inr (hsorted.2.1.1 m hm)

theorem byId_eq_none_iff
    (hids : d.ids = d.attachedIds)
    {id : String} :
    d.byId id = none ↔
      id = "" ∨ ∀ n, d.isAttached n = true → d.idOf n ≠ some id := by
  rw [byId_eq_find? hids, List.find?_eq_none]
  constructor
  · intro hnone
    by_cases hid : id = ""
    · exact .inl hid
    · right
      intro n hn hnid
      exact hnone n (h.mem_descendants_of_idOf hn hnid) (holdsId_iff.mpr ⟨hid, hnid⟩)
  · intro hnone n hn hholds
    obtain ⟨hne, hid⟩ := holdsId_iff.mp hholds
    have hattached := (h.mem_descendants_root_iff.mp hn).2
    exact hnone.elim hne fun hall => hall n hattached hid

/-- Only the first holder of an id is found, and it is found. -/
theorem byId_eq_some_iff
    (hids : d.ids = d.attachedIds)
    {id : String} {n : NodeId} :
    d.byId id = some n ↔ id ≠ "" ∧ d.FirstWithId id n := by
  constructor
  · exact h.firstWithId_of_byId hids
  · rintro ⟨hne, hfirst⟩
    cases hfound : d.byId id with
    | none =>
        have hnone := (h.byId_eq_none_iff hids).mp hfound
        exact absurd hfirst.idOf (hnone.resolve_left hne n hfirst.attached)
    | some m =>
        have hfirst' := (h.firstWithId_of_byId hids hfound).2
        rcases hfirst.first m hfirst'.attached hfirst'.idOf with rfl | hnm
        · rfl
        · rcases hfirst'.first n hfirst.attached hfirst.idOf with rfl | hmn
          · rfl
          · exact absurd hmn (h.precedes_asymm hnm)

section Moves

theorem without_of_removed
    {n : NodeId}
    (hroot : n ≠ root)
    (hd : Removed d d' n) :
    d.Without d' n := by
  intro id
  rw [byId_eq_find? hd.ids, h.descendants_of_removed hd (h.outside_root hroot),
    holdsId_congr hd.element?]

theorem moved_of_movesTo
    {parent child : NodeId}
    (hd : d.MovesTo parent child d') :
    ∃ before after, Moved d d' parent child before after := by
  rcases hd with hd | ⟨reference, hne, hd⟩
  · exact ⟨_, _, h.append_spec hd⟩
  · rcases h.insertBefore_spec hd with ⟨heq, _⟩ | ⟨before, after, hmoved⟩
    · exact absurd heq hne
    · exact ⟨before, _, hmoved⟩

theorem without_of_movesTo
    {parent child : NodeId}
    (hd : d.MovesTo parent child d')
    (hparent : d.isAttached parent = false) :
    d.Without d' child := by
  obtain ⟨before, after, hmoved⟩ := h.moved_of_movesTo hd
  have hapart : ¬ (root = parent ∨ d.Above root parent) := by
    rw [eq_comm, ← h.isAttached_iff, hparent]
    simp
  intro id
  rw [byId_eq_find? hmoved.ids, holdsId_congr hmoved.element?,
    h.descendants_of_moved_apart hmoved (h.outside_root hmoved.insertable.child_ne_root) hapart]

theorem withBlock_of_movesTo
    {parent child : NodeId}
    (hd : d.MovesTo parent child d')
    (hparent : d.isAttached parent = true) :
    d.WithBlock d' child := by
  obtain ⟨before, after, hmoved⟩ := h.moved_of_movesTo hd
  have habove : root = parent ∨ d.Above root parent := by
    rw [eq_comm, ← h.isAttached_iff, hparent]
  obtain ⟨front, back, hold, hnew⟩ := h.descendants_of_moved hmoved habove
  refine ⟨front, back, hold, ?_⟩
  intro id
  rw [byId_eq_find? hmoved.ids, holdsId_congr hmoved.element?, hnew, List.find?_append,
    List.find?_append]

/-- The removal of the holder of an id leaves the id to the next one in document order. -/
theorem byId_of_removed
    (hids : d.ids = d.attachedIds)
    {n : NodeId} {id : String} {before after : List NodeId}
    (hd : d.Without d' n)
    (hn : d.byId id = some n)
    (hsplit : d.descendants root = before ++ n :: after) :
    d'.byId id = (after.filter (d.outside n)).find? (d.holdsId id) := by
  have hbefore : ∀ m ∈ before, ¬ d.holdsId id m = true := by
    intro m hm hholds
    obtain ⟨_, hfirst⟩ := h.firstWithId_of_byId hids hn
    have hmem : m ∈ d.descendants root := by simp [hsplit, hm]
    have hattached := (h.mem_descendants_root_iff.mp hmem).2
    have hsorted := h.pairwise_descendants root
    have hnodup := h.nodup_descendants root
    rw [hsplit, List.pairwise_append] at hsorted
    rw [hsplit, List.nodup_append] at hnodup
    rcases hfirst.first m hattached (holdsId_iff.mp hholds).2 with rfl | hnm
    · exact hnodup.2.2 m hm m List.mem_cons_self rfl
    · exact h.precedes_asymm hnm (hsorted.2.2 m hm n List.mem_cons_self)
  have hself : ¬ d.outside n n = true := by
    rw [h.outside_iff, not_not]
    exact .inl rfl
  have hnone : (before.filter (d.outside n)).find? (d.holdsId id) = none := by
    rw [List.find?_eq_none]
    intro m hm
    exact hbefore m (List.mem_of_mem_filter hm)
  rw [hd, hsplit, List.filter_append, List.filter_cons, if_neg hself, List.find?_append,
    hnone]
  rfl

end Moves

end WellFormed

/--
Whatever changes have been made, a search for an id finds the first attached node that
has it, in an order in which no two nodes come before each other, and never a detached
one. Removing the holder of an id hands the id to the next holder that stays, and so does
moving it below a detached node. A subtree that comes below an attached node brings its
ids to one place of the order, in front of those that come later there.
-/
theorem byId_ofChanges
    (changes : List Change) :
    (∀ id n, (ofChanges changes).byId id = some n ↔
      id ≠ "" ∧ (ofChanges changes).FirstWithId id n) ∧
    (∀ id, (ofChanges changes).byId id = none ↔
      id = "" ∨
        ∀ n, (ofChanges changes).isAttached n = true → (ofChanges changes).idOf n ≠ some id) ∧
    (∀ m n, (ofChanges changes).Precedes m n → ¬ (ofChanges changes).Precedes n m) ∧
    ((ofChanges changes).descendants root).Pairwise (ofChanges changes).Precedes ∧
    (∀ n, n ∈ (ofChanges changes).descendants root ↔
      n ≠ root ∧ (ofChanges changes).isAttached n = true) ∧
    (∀ n d', (ofChanges changes).remove n = .ok d' →
      (ofChanges changes).Without d' n ∧
      ∀ id before after, (ofChanges changes).byId id = some n →
        (ofChanges changes).descendants root = before ++ n :: after →
        d'.byId id = (after.filter ((ofChanges changes).outside n)).find?
          ((ofChanges changes).holdsId id)) ∧
    (∀ parent child d', (ofChanges changes).MovesTo parent child d' →
      ((ofChanges changes).isAttached parent = false →
        (ofChanges changes).Without d' child) ∧
      ((ofChanges changes).isAttached parent = true →
        (ofChanges changes).WithBlock d' child)) := by
  have h := wellFormed_ofChanges changes
  have hids := ids_ofChanges changes
  refine ⟨?_, ?_, ?_, h.pairwise_descendants root, ?_, ?_, ?_⟩
  · intro id n
    exact h.byId_eq_some_iff hids
  · intro id
    exact h.byId_eq_none_iff hids
  · intro m n hmn
    exact h.precedes_asymm hmn
  · intro n
    exact h.mem_descendants_root_iff
  · intro n d' hd
    obtain ⟨hroot, hremoved⟩ := h.remove_spec hd
    have hwithout := h.without_of_removed hroot hremoved
    exact ⟨hwithout, fun id before after => h.byId_of_removed hids hwithout⟩
  · intro parent child d' hd
    exact ⟨h.without_of_movesTo hd, h.withBlock_of_movesTo hd⟩

end Searches

end Document
end LiveForms
