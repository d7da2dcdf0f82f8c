import LiveForms.Proofs.Document.Index
import LiveForms.Proofs.Document.Moves
import LiveForms.Proofs.Document.Search

/-!
# Live forms: nodes apart from the tree

A document may have nodes that lie below none of those which were there before: a subtree
that was made apart, or one that was put into the tree and has been taken out. The older nodes
do not notice them. Everything below such a node is as it was, and so is the list of ids.

Taking a subtree out also leaves most searches alone. What it takes from their lists is
inside this subtree, and an id is lost only if a node of the subtree has it.

Main definition:

* `Document.GrownApart`: older nodes do not notice the new ones.

Main statements:

* `Document.WellFormed.subtreeKept_of_grownApart`, `Document.WellFormed.byId_of_grownApart`:
  what older nodes and the tree look like.
* `Document.WellFormed.findAll_of_removed`, `Document.WellFormed.byId_of_removed_unnamed`:
  searches after a subtree was taken out.
-/

namespace LiveForms
namespace Document

/-- `d'` has the nodes of `d`, and new ones that lie below none of these. -/
structure GrownApart (d d' : Document) : Prop where
  grown : d.Grown d'
  children : ∀ n, n < d.size → d'.children n = d.children n

variable {d d' : Document}

/-- All that lies below a node is a node. -/
theorem lt_size_of_above
    {a n : NodeId}
    (ha : d.Above a n) :
    n < d.size := by
  obtain ⟨_, hp, _⟩ := above_iff.mp ha
  exact lt_size_of_parent? hp

/-- Among the children of the older nodes there is no newer one. -/
theorem WellFormed.filter_children_size
    (h : d.WellFormed)
    (n : NodeId) :
    (d.children n).filter (· != d.size) = d.children n := by
  apply h.filter_children
  rw [parent?_of_size_le (Nat.le_refl _)]
  simp

namespace WellFormed

variable (h : d.WellFormed)
include h

theorem isAttached_of_grown
    {n : NodeId}
    (hd : d.Grown d')
    (hn : n < d.size) :
    d'.isAttached n = d.isAttached n := by
  have h' := h.steps hd.steps
  rw [Bool.eq_iff_iff, h.isAttached_iff, h'.isAttached_iff]
  exact or_congr_right ⟨h.above_of_grown hd hn, hd.above⟩

section Apart

variable (hd : d.GrownApart d')
include hd

theorem subtreeKept_of_grownApart
    {n : NodeId}
    (hn : n < d.size) :
    d.SubtreeKept d' n := by
  have hlt : ∀ m, n = m ∨ d.Above n m → m < d.size := by
    rintro m (rfl | hm)
    · exact hn
    · exact lt_size_of_above hm
  have hchildren : ∀ m, n = m ∨ d.Above n m → d'.children m = d.children m :=
    fun m hm => hd.children m (hlt m hm)
  exact ⟨h.descendants_of_children (h.steps hd.grown.steps) hchildren, hchildren,
    fun m hm => hd.grown.parent? m (hlt m (.inr hm)), fun m hm => hd.grown.element? m (hlt m hm)⟩

/-- The tree gives the same list of ids. -/
theorem attachedIds_of_grownApart :
    d'.attachedIds = d.attachedIds := by
  have hkept := h.subtreeKept_of_grownApart hd h.root_lt
  rw [attachedIds, attachedIds, hkept.descendants]
  apply List.filterMap_congr
  intro m hm
  rw [hkept.element? m (.inr (h.mem_descendants_iff.mp hm))]

/-- So does every search for an id. -/
theorem byId_of_grownApart
    (hids : d.ids = d.attachedIds)
    (id : String) :
    d'.byId id = d.byId id := by
  rw [byId, ids_of_steps h hids hd.grown.steps, h.attachedIds_of_grownApart hd, ← hids, byId]

end Apart

section Removed

variable {n : NodeId} (hd : Removed d d' n)
include hd

/-- Where the subtree was not, all that is below a node stays. -/
theorem subtreeKept_of_removed_below
    {p : NodeId}
    (hp : ¬ (p = n ∨ d.Above p n)) :
    d.SubtreeKept d' p := by
  have hne : ∀ m, d.Above p m → m ≠ n := by
    rintro m hm rfl
    exact hp (.inr hm)
  have hchildren : ∀ m, p = m ∨ d.Above p m → d'.children m = d.children m := by
    intro m hm
    rw [hd.children]
    apply h.filter_children
    intro hparent
    refine hp (.inr ?_)
    rcases hm with rfl | hm
    · exact above_of_parent? hparent
    · exact hm.trans (above_of_parent? hparent)
  refine ⟨h.descendants_of_children (h.removed hd) hchildren, hchildren, ?_,
    fun m _ => hd.element? m⟩
  intro m hm
  rw [hd.parent?, if_neg (hne m hm)]

/-- A search that looks for nothing inside the subtree loses at most its top. -/
theorem findAll_of_removed
    {p : NodeId} {kind : Element → Bool}
    (hp : d.outside n p = true)
    (hinside : ∀ m, d.Above n m → d.nodeIs kind m = false) :
    d'.findAll p kind = (d.findAll p kind).filter (· != n) := by
  have hkind : d'.nodeIs kind = d.nodeIs kind := by
    funext m
    rw [nodeIs, nodeIs, hd.element?]
  rw [findAll, findAll, h.descendants_of_removed hd hp, hkind, List.filter_filter,
    List.filter_filter]
  apply List.filter_congr
  intro m _
  cases hm : d.nodeIs kind m with
  | false => simp
  | true =>
      have hnot : ¬ d.Above n m := by
        intro habove
        rw [hinside m habove] at hm
        cases hm
      rw [Bool.true_and, Bool.and_true, Bool.eq_iff_iff, h.outside_iff, bne_iff_ne, ne_comm]
      simp [hnot]

/-- No id changes its holder if nothing in the subtree has an id. -/
theorem byId_of_removed_unnamed
    (hids : d.ids = d.attachedIds)
    (hroot : n ≠ root)
    (hunnamed : ∀ m, n = m ∨ d.Above n m → d.idOf m = none)
    (id : String) :
    d'.byId id = d.byId id := by
  rw [h.without_of_removed hroot hd id, byId_eq_find? hids, List.find?_filter]
  congr 1
  funext m
  rw [Bool.eq_iff_iff, decide_eq_true_iff, and_iff_right_iff_imp, h.outside_iff]
  intro hholds hm
  rw [holdsId_iff, hunnamed m hm] at hholds
  simp at hholds

end Removed

end WellFormed
end Document
end LiveForms
