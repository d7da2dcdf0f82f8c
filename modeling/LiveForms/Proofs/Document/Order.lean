import LiveForms.Proofs.Document.Changes

/-!
# Live forms: document order

A node comes before another one in document order if it lies above it, or if both lie
in the subtrees of two children of one node and the subtree of the former comes first.
This is said on the links alone. The list of the nodes below a node is sorted by it, and
no two nodes come before each other, so the list is the only one in that order.

The last part says how a change moves the nodes of this list. A removal drops the
subtree of the removed node. A move drops the subtree of the moved node, and puts it, in
its old order, to one place among the nodes that are left.

Main statements:

* `Document.pairwise_descendants`: the nodes below a node are listed in document order.
* `Document.precedes_asymm`: document order is an order.
* `Document.descendants_of_removed`, `Document.descendants_of_moved`: the list after a
  change.
-/

namespace LiveForms
namespace Document

/-- `d.Precedes m n`: the node `m` comes before `n` in document order. -/
inductive Precedes (d : Document) : NodeId → NodeId → Prop
  | above
      {m n : NodeId}
      (h : d.Above m n) :
      Precedes d m n
  | beside
      {p a b m n : NodeId}
      (hab : [a, b].Sublist (d.children p))
      (hm : a = m ∨ d.Above a m)
      (hn : b = n ∨ d.Above b n) :
      Precedes d m n

variable {d d' : Document}

theorem not_sublist_swap
    {a b : NodeId} {l : List NodeId}
    (hl : l.Nodup)
    (hab : [a, b].Sublist l) :
    ¬ [b, a].Sublist l := by
  induction l with
  | nil =>
      simp at hab
  | cons x xs ih =>
      obtain ⟨hx, hxs⟩ := List.nodup_cons.mp hl
      intro hba
      cases hab with
      | cons _ hab =>
          cases hba with
          | cons _ hba => exact ih hxs hab hba
          | cons_cons _ hba => exact hx (hab.subset (by simp))
      | cons_cons _ hab =>
          cases hba with
          | cons _ hba => exact hx (hba.subset (by simp))
          | cons_cons _ hba => exact hx (hab.subset (by simp))

namespace WellFormed

variable (h : d.WellFormed)
include h

theorem parent?_of_sublist
    {p a b : NodeId}
    (hab : [a, b].Sublist (d.children p)) :
    d.parent? a = some p ∧ d.parent? b = some p :=
  ⟨(h.mem_children p a).mp (hab.subset (by simp)),
    (h.mem_children p b).mp (hab.subset (by simp))⟩

/-- The child of a node on the way up from another one is unique. -/
theorem child_unique
    {p a b m : NodeId}
    (ha : d.parent? a = some p)
    (hb : d.parent? b = some p)
    (ham : a = m ∨ d.Above a m)
    (hbm : b = m ∨ d.Above b m) :
    a = b := by
  by_contra hab
  exact h.disjoint_of_children ha hb hab ham hbm

theorem ne_of_sublist
    {p a b : NodeId}
    (hab : [a, b].Sublist (d.children p)) :
    a ≠ b := by
  rintro rfl
  exact not_sublist_swap (h.nodup_children p) hab hab

/-- No node above one of two siblings, or equal to it, is above the other. -/
theorem not_above_beside
    {p a b m n : NodeId}
    (hab : [a, b].Sublist (d.children p))
    (hm : a = m ∨ d.Above a m)
    (hn : b = n ∨ d.Above b n) :
    ¬ d.Above m n ∧ ¬ d.Above n m := by
  obtain ⟨ha, hb⟩ := h.parent?_of_sublist hab
  constructor
  · intro hmn
    have han : d.Above a n := by
      rcases hm with rfl | hm
      · exact hmn
      · exact hm.trans hmn
    exact h.ne_of_sublist hab (h.child_unique ha hb (.inr han) hn)
  · intro hnm
    have hbm : d.Above b m := by
      rcases hn with rfl | hn
      · exact hnm
      · exact hn.trans hnm
    exact h.ne_of_sublist hab (h.child_unique ha hb hm (.inr hbm))

/-- A common ancestor below the parent of two siblings would lie in both subtrees. -/
theorem not_above_parent
    {p q a b m n : NodeId}
    (hab : [a, b].Sublist (d.children p))
    (hm : a = m ∨ d.Above a m)
    (hn : b = n ∨ d.Above b n)
    (hqm : d.Above q m)
    (hqn : d.Above q n) :
    ¬ d.Above p q := by
  intro hpq
  obtain ⟨ha, hb⟩ := h.parent?_of_sublist hab
  obtain ⟨c, hc, hcq⟩ := exists_child_of_above hpq
  have hbelow : ∀ {x}, d.Above q x → c = x ∨ d.Above c x := by
    intro x hqx
    rcases hcq with rfl | hcq
    · exact .inr hqx
    · exact .inr (hcq.trans hqx)
  have hac : a = c := h.child_unique ha hc hm (hbelow hqm)
  have hbc : b = c := h.child_unique hb hc hn (hbelow hqn)
  exact h.ne_of_sublist hab (hac.trans hbc.symm)

/-- No two nodes come before each other. -/
theorem precedes_asymm
    {m n : NodeId}
    (hmn : d.Precedes m n) :
    ¬ d.Precedes n m := by
  intro hnm
  cases hmn with
  | above hmn =>
      cases hnm with
      | above hnm => exact h.acyclic m (hmn.trans hnm)
      | beside hab hn hm => exact (h.not_above_beside hab hn hm).2 hmn
  | @beside p a b _ _ hab hm hn =>
      cases hnm with
      | above hnm => exact (h.not_above_beside hab hm hn).2 hnm
      | @beside q a' b' _ _ hab' hn' hm' =>
          obtain ⟨ha, hb⟩ := h.parent?_of_sublist hab
          obtain ⟨ha', hb'⟩ := h.parent?_of_sublist hab'
          have hpm := above_of_child ha hm
          have hqm := above_of_child hb' hm'
          rcases above_total (.inr hpm) (.inr hqm) with rfl | hpq | hqp
          · have hab_eq : a = b' := h.child_unique ha hb' hm hm'
            have hba_eq : b = a' := h.child_unique hb ha' hn hn'
            subst hab_eq hba_eq
            exact not_sublist_swap (h.nodup_children p) hab hab'
          · have hqn := above_of_child ha' hn'
            exact h.not_above_parent hab hm hn hqm hqn hpq
          · have hpn := above_of_child hb hn
            exact h.not_above_parent hab' hn' hm' hpn hpm hqp

theorem pairwise_belowFrom
    (fuel : Nat)
    (n : NodeId) :
    (d.belowFrom fuel n).Pairwise d.Precedes := by
  induction fuel generalizing n with
  | zero =>
      simp [belowFrom]
  | succ fuel ih =>
      rw [belowFrom, List.pairwise_flatMap]
      constructor
      · intro c _
        refine List.pairwise_cons.mpr ⟨?_, ih c⟩
        intro m hm
        exact .above (h.above_of_mem_belowFrom hm)
      · rw [List.pairwise_iff_forall_sublist]
        intro a b hab x hx y hy
        exact .beside hab (h.below_of_mem_cons hx) (h.below_of_mem_cons hy)

/-- The nodes below a node are listed in document order. -/
theorem pairwise_descendants
    (n : NodeId) :
    (d.descendants n).Pairwise d.Precedes :=
  h.pairwise_belowFrom _ n

end WellFormed

/-- Whether `m` is neither `n` nor below `n`. -/
def outside (d : Document) (n m : NodeId) : Bool :=
  m != n && !d.isDescendantOf m n

theorem flatMap_filter_eq
    {l : List NodeId} {q : NodeId → Bool} {f g : NodeId → List NodeId}
    (hg : ∀ c ∈ l, g c = if q c then f c else []) :
    (l.filter q).flatMap f = l.flatMap g := by
  induction l with
  | nil => rfl
  | cons c l ih =>
      have htail := ih fun c hc => hg c (List.mem_cons_of_mem _ hc)
      rw [List.flatMap_cons, hg c List.mem_cons_self, ← htail, List.filter_cons]
      split <;> simp

namespace WellFormed

variable (h : d.WellFormed)
include h

theorem outside_iff
    {n m : NodeId} :
    d.outside n m = true ↔ ¬ (n = m ∨ d.Above n m) := by
  rw [outside, Bool.and_eq_true, bne_iff_ne, Bool.not_eq_true', ← Bool.not_eq_true,
    h.isDescendantOf_iff, not_or, ne_comm]

theorem outside_root
    {n : NodeId}
    (hn : n ≠ root) :
    d.outside n root = true := by
  rw [h.outside_iff, not_or]
  exact ⟨hn, not_above_of_parent?_none h.parent_root⟩

theorem outside_child
    {n p c : NodeId}
    (hp : d.outside n p = true)
    (hc : d.parent? c = some p)
    (hne : c ≠ n) :
    d.outside n c = true := by
  rw [h.outside_iff, not_or, above_iff_of_parent? hc]
  rw [h.outside_iff] at hp
  exact ⟨Ne.symm hne, hp⟩

theorem filter_outside_self
    (fuel : Nat)
    (n : NodeId) :
    (n :: d.belowFrom fuel n).filter (d.outside n) = [] := by
  rw [List.filter_eq_nil_iff]
  intro m hm
  rw [h.outside_iff, not_not]
  exact h.below_of_mem_cons hm

/-- Dropping one child everywhere drops its subtree. -/
theorem belowFrom_filter
    {n p : NodeId}
    (hp : d.outside n p = true)
    (hchildren : ∀ m, (p = m ∨ d.Above p m) →
      d'.children m = (d.children m).filter (· != n))
    (fuel : Nat) :
    d'.belowFrom fuel p = (d.belowFrom fuel p).filter (d.outside n) := by
  induction fuel generalizing p with
  | zero =>
      rfl
  | succ fuel ih =>
      rw [belowFrom, belowFrom, hchildren p (.inl rfl), List.filter_flatMap]
      apply flatMap_filter_eq
      intro c hc
      have hpc := (h.mem_children p c).mp hc
      by_cases hne : c = n
      · subst hne
        rw [h.filter_outside_self]
        simp
      · have hout := h.outside_child hp hpc hne
        have hbelow := ih hout fun m hm => hchildren m (.inr (above_of_child hpc hm))
        rw [List.filter_cons, if_pos hout, hbelow, if_pos (bne_iff_ne.mpr hne)]

theorem descendants_of_removed
    {n p : NodeId}
    (hd : Removed d d' n)
    (hp : d.outside n p = true) :
    d'.descendants p = (d.descendants p).filter (d.outside n) := by
  rw [descendants, descendants, hd.size]
  exact h.belowFrom_filter hp (fun m _ => hd.children m) d.size

section Moved

variable {parent child : NodeId} {before after : List NodeId}
variable (hd : Moved d d' parent child before after)
include hd

theorem descendants_child_of_moved :
    d'.descendants child = d.descendants child := by
  rw [descendants, descendants, hd.size]
  refine @belowFrom_congr d d' (fun m => child = m ∨ d.Above child m) ?_ ?_ _ _ (.inl rfl)
  · intro m hm c hc
    have hmc := above_of_parent? ((h.mem_children m c).mp hc)
    rcases hm with rfl | hm
    · exact .inr hmc
    · exact .inr (hm.trans hmc)
  · intro m hm
    have hne : m ≠ parent := by
      rintro rfl
      rcases hm with hm | hm
      · exact hd.insertable.child_ne_parent hm
      · exact hd.insertable.not_above hm
    rw [hd.children, if_neg hne, List.filter_eq_self]
    intro c hc
    have hmc := above_of_parent? ((h.mem_children m c).mp hc)
    rw [bne_iff_ne]
    rintro rfl
    rcases hm with rfl | hm
    · exact h.acyclic c hmc
    · exact h.acyclic c (hm.trans hmc)

/-- A node that is not above the new parent only loses what has moved. -/
theorem descendants_of_moved_apart
    {p : NodeId}
    (hp : d.outside child p = true)
    (hapart : ¬ (p = parent ∨ d.Above p parent)) :
    d'.descendants p = (d.descendants p).filter (d.outside child) := by
  rw [descendants, descendants, hd.size]
  apply h.belowFrom_filter hp
  intro m hm
  rw [hd.children, if_neg]
  rintro rfl
  exact hapart hm

theorem outside_of_moved
    {p : NodeId}
    (hp : p = parent ∨ d.Above p parent) :
    d.outside child p = true := by
  rw [h.outside_iff]
  rintro (rfl | hchild)
  · rcases hp with hp | hp
    · exact hd.insertable.child_ne_parent hp
    · exact hd.insertable.not_above hp
  · rcases hp with rfl | hp
    · exact hd.insertable.not_above hchild
    · exact hd.insertable.not_above (hchild.trans hp)

theorem flatMap_of_moved
    {p : NodeId} {l : List NodeId}
    (hp : p = parent ∨ d.Above p parent)
    (hl : l ⊆ d.children p)
    (hapart : ∀ c ∈ l, ¬ (c = parent ∨ d.Above c parent)) :
    (l.filter (· != child)).flatMap (fun c => c :: d'.descendants c) =
      (l.flatMap fun c => c :: d.descendants c).filter (d.outside child) := by
  rw [List.filter_flatMap]
  apply flatMap_filter_eq
  intro c hc
  have hpc := (h.mem_children p c).mp (hl hc)
  by_cases hne : c = child
  · subst hne
    rw [descendants, h.filter_outside_self]
    simp
  · have hout := h.outside_child (h.outside_of_moved hd hp) hpc hne
    rw [List.filter_cons, if_pos hout, if_pos (bne_iff_ne.mpr hne),
      h.descendants_of_moved_apart hd hout (hapart c hc)]

theorem descendants_parent_of_moved :
    ∃ front back,
      (d.descendants parent).filter (d.outside child) = front ++ back ∧
      d'.descendants parent = front ++ child :: d.descendants child ++ back := by
  have hapart : ∀ c ∈ d.children parent, ¬ (c = parent ∨ d.Above c parent) := by
    intro c hc hcp
    exact h.acyclic parent (above_of_child ((h.mem_children parent c).mp hc) hcp)
  have hsplit := h.flatMap_of_moved hd (.inl rfl) (List.Subset.refl _) hapart
  rw [← h.descendants_eq, hd.siblings, List.flatMap_append] at hsplit
  refine ⟨_, _, hsplit.symm, ?_⟩
  rw [(h.moved hd).descendants_eq, hd.children, if_pos rfl, List.flatMap_append,
    List.flatMap_cons, h.descendants_child_of_moved hd]
  simp

/-- The block in the list of a node is a block in the list of its parent. -/
theorem descendants_up_of_moved
    {p b : NodeId} {front back : List NodeId}
    (hb : b = parent ∨ d.Above b parent)
    (hpb : d.parent? b = some p)
    (hold : (d.descendants b).filter (d.outside child) = front ++ back)
    (hnew : d'.descendants b = front ++ child :: d.descendants child ++ back) :
    ∃ front back,
      (d.descendants p).filter (d.outside child) = front ++ back ∧
      d'.descendants p = front ++ child :: d.descendants child ++ back := by
  have hp : d.Above p parent := above_of_child hpb hb
  have hout := (h.outside_iff.mp (h.outside_of_moved hd hb))
  have hne : p ≠ parent := by
    rintro rfl
    exact h.acyclic p hp
  obtain ⟨left, right, hchildren⟩ := List.append_of_mem ((h.mem_children p b).mpr hpb)
  have hnodup := h.nodup_children p
  have hapart : ∀ c ∈ left ++ right, ¬ (c = parent ∨ d.Above c parent) := by
    intro c hc hcp
    have hpc : d.parent? c = some p := by
      rw [← h.mem_children, hchildren]
      exact List.perm_middle.mem_iff.mpr (List.mem_cons_of_mem _ hc)
    have hcb : c = b := h.child_unique hpc hpb hcp hb
    rw [hchildren, List.nodup_middle, List.nodup_cons] at hnodup
    exact hnodup.1 (hcb ▸ hc)
  have hleft := h.flatMap_of_moved hd (.inr hp) (l := left) (by simp [hchildren])
    fun c hc => hapart c (List.mem_append_left _ hc)
  have hright := h.flatMap_of_moved hd (.inr hp) (l := right) (by simp [hchildren])
    fun c hc => hapart c (List.mem_append_right _ hc)
  refine ⟨(left.filter (· != child)).flatMap (fun c => c :: d'.descendants c) ++ b :: front,
    back ++ (right.filter (· != child)).flatMap (fun c => c :: d'.descendants c), ?_, ?_⟩
  · rw [h.descendants_eq p, hchildren, List.flatMap_append, List.flatMap_cons,
      List.filter_append, List.filter_append, List.filter_cons,
      if_pos (h.outside_of_moved hd hb), hold, hleft, hright]
    simp
  · have hbne : (b != child) = true := by
      rw [bne_iff_ne]
      rintro rfl
      exact hout (.inl rfl)
    rw [(h.moved hd).descendants_eq p, hd.children, if_neg hne, hchildren,
      List.filter_append, List.filter_cons, if_pos hbne, List.flatMap_append,
      List.flatMap_cons, hnew]
    simp

/-- The new parent and the nodes above it get the moved subtree as one block. -/
theorem descendants_of_moved
    {p : NodeId}
    (hp : p = parent ∨ d.Above p parent) :
    ∃ front back,
      (d.descendants p).filter (d.outside child) = front ++ back ∧
      d'.descendants p = front ++ child :: d.descendants child ++ back := by
  rcases hp with rfl | hp
  · exact h.descendants_parent_of_moved hd
  · induction hp with
    | single hp =>
        obtain ⟨front, back, hold, hnew⟩ := h.descendants_parent_of_moved hd
        exact h.descendants_up_of_moved hd (.inl rfl) hp hold hnew
    | tail hb hp ih =>
        obtain ⟨front, back, hold, hnew⟩ := ih
        exact h.descendants_up_of_moved hd (.inr hb) hp hold hnew

end Moved

end WellFormed
end Document
end LiveForms
