import LiveForms.Proofs.Document.Links
import Mathlib.Data.List.Nodup
import Mathlib.Data.List.Perm.Subperm
import Mathlib.Logic.Relation

/-!
# Live forms: documents are trees

The parents and the children of the nodes are stored apart, and the walks through a
document stop only if the parents form no cycle. `Document.WellFormed` says that both
sets of links are those of one forest with the root as one of its roots. This module
shows what it gives: the walks end in time, and they visit what they should.

Two loops are stated as they run, with a bound on their steps and with what is left to
do when the bound is reached: `Document.seek` follows the parents of a node, and
`Document.drain` empties a stack of nodes on which the children of each node are put.

Main statements:

* `Document.mem_ancestors_iff`, `Document.mem_descendants_iff`: the walks visit exactly
  the nodes above and below a node.
* `Document.descendants_eq`: the nodes below a node, without a bound on the depth.
* `Document.nodup_descendants`: no node is listed twice.
* `Document.WellFormed.walksEnd`: the loops end, and where.
-/

namespace LiveForms
namespace Document

/-- `d.Above a n`: the node `a` is met on the way up from `n`. -/
def Above (d : Document) (a n : NodeId) : Prop :=
  Relation.TransGen (fun x y => d.parent? x = some y) n a

/-- The links of a document are those of a forest; only its root has no element. -/
structure WellFormed (d : Document) : Prop where
  root_lt : root < d.size
  element_root : d.element? root = none
  element_of_lt : ∀ n, n < d.size → n ≠ root → ∃ e, d.element? n = some e
  parent_root : d.parent? root = none
  mem_children : ∀ p c, c ∈ d.children p ↔ d.parent? c = some p
  nodup_children : ∀ p, (d.children p).Nodup
  parent_lt : ∀ c p, d.parent? c = some p → p < d.size
  acyclic : ∀ n, ¬ d.Above n n

variable {d : Document}

section Above

theorem above_of_parent?
    {n p : NodeId}
    (hp : d.parent? n = some p) :
    d.Above p n :=
  .single hp

theorem Above.trans
    {a b n : NodeId}
    (hab : d.Above a b)
    (hbn : d.Above b n) :
    d.Above a n :=
  Relation.TransGen.trans hbn hab

/-- The first step of the way up. -/
theorem above_iff
    {a n : NodeId} :
    d.Above a n ↔ ∃ p, d.parent? n = some p ∧ (a = p ∨ d.Above a p) := by
  constructor
  · intro h
    obtain ⟨p, hp, hpa⟩ := Relation.TransGen.head'_iff.mp h
    refine ⟨p, hp, ?_⟩
    rcases Relation.reflTransGen_iff_eq_or_transGen.mp hpa with rfl | hpa
    · exact .inl rfl
    · exact .inr hpa
  · rintro ⟨p, hp, rfl | hpa⟩
    · exact above_of_parent? hp
    · exact hpa.trans (above_of_parent? hp)

theorem above_of_child
    {p c n : NodeId}
    (hc : d.parent? c = some p)
    (hcn : c = n ∨ d.Above c n) :
    d.Above p n := by
  rcases hcn with rfl | hcn
  · exact above_of_parent? hc
  · exact (above_of_parent? hc).trans hcn

theorem above_iff_of_parent?
    {a n p : NodeId}
    (hp : d.parent? n = some p) :
    d.Above a n ↔ a = p ∨ d.Above a p := by
  rw [above_iff]
  simp [hp]

theorem not_above_of_parent?_none
    {a n : NodeId}
    (hn : d.parent? n = none) :
    ¬ d.Above a n := by
  rw [above_iff]
  simp [hn]

/-- A node above another one has children. -/
theorem exists_child_of_above
    {a n : NodeId}
    (h : d.Above a n) :
    ∃ c, d.parent? c = some a ∧ (c = n ∨ d.Above c n) := by
  obtain ⟨c, hnc, hc⟩ := Relation.TransGen.tail'_iff.mp h
  refine ⟨c, hc, ?_⟩
  rcases Relation.reflTransGen_iff_eq_or_transGen.mp hnc with rfl | hnc
  · exact .inl rfl
  · exact .inr hnc

/-- Of two nodes above a third, one is above the other. -/
theorem above_total
    {a b n : NodeId}
    (ha : a = n ∨ d.Above a n)
    (hb : b = n ∨ d.Above b n) :
    a = b ∨ d.Above a b ∨ d.Above b a := by
  have hunique : Relator.RightUnique fun x y => d.parent? x = some y := by
    intro x y z hy hz
    exact Option.some.inj (hy.symm.trans hz)
  have ha' := Relation.reflTransGen_iff_eq_or_transGen.mpr ha
  have hb' := Relation.reflTransGen_iff_eq_or_transGen.mpr hb
  rcases ha'.total_of_right_unique hunique hb' with hab | hba
  · rcases Relation.reflTransGen_iff_eq_or_transGen.mp hab with rfl | hab
    · exact .inl rfl
    · exact .inr (.inr hab)
  · rcases Relation.reflTransGen_iff_eq_or_transGen.mp hba with rfl | hba
    · exact .inl rfl
    · exact .inr (.inl hba)

end Above

section WayUp

theorem above_of_mem_ancestorsFrom
    {fuel : Nat} {a n : NodeId}
    (ha : a ∈ d.ancestorsFrom fuel n) :
    d.Above a n := by
  induction fuel generalizing n with
  | zero =>
      simp [ancestorsFrom] at ha
  | succ fuel ih =>
      rw [ancestorsFrom] at ha
      split at ha
      · simp at ha
      · rename_i p hp
        rw [above_iff_of_parent? hp]
        exact (List.mem_cons.mp ha).imp_right ih

/-- A walk that stops before its bound does not depend on the bound. -/
theorem ancestorsFrom_succ
    {fuel : Nat} {n : NodeId}
    (h : (d.ancestorsFrom fuel n).length < fuel) :
    d.ancestorsFrom (fuel + 1) n = d.ancestorsFrom fuel n := by
  induction fuel generalizing n with
  | zero =>
      simp at h
  | succ fuel ih =>
      rw [ancestorsFrom, ancestorsFrom]
      rw [ancestorsFrom] at h
      split
      · rfl
      · rename_i p hp
        simp only [hp, List.length_cons, Nat.add_lt_add_iff_right] at h
        rw [ih h]

namespace WellFormed

variable (h : d.WellFormed)
include h

theorem ne_root_of_element?
    {n : NodeId} {e : Element}
    (he : d.element? n = some e) :
    n ≠ root := by
  rintro rfl
  rw [h.element_root] at he
  simp at he

theorem lt_of_above
    {a n : NodeId}
    (ha : d.Above a n) :
    a < d.size := by
  obtain ⟨c, hc, _⟩ := exists_child_of_above ha
  exact h.parent_lt c a hc

theorem ne_of_above
    {a n : NodeId}
    (ha : d.Above a n) :
    a ≠ n := by
  rintro rfl
  exact h.acyclic a ha

theorem nodup_ancestorsFrom
    (fuel : Nat)
    (n : NodeId) :
    (n :: d.ancestorsFrom fuel n).Nodup := by
  induction fuel generalizing n with
  | zero =>
      simp [ancestorsFrom]
  | succ fuel ih =>
      refine List.nodup_cons.mpr ⟨?_, ?_⟩
      · intro hn
        exact h.acyclic n (above_of_mem_ancestorsFrom hn)
      · rw [ancestorsFrom]
        split
        · exact List.nodup_nil
        · exact ih _

/-- The nodes on a way up are distinct, so they are at most all nodes. -/
theorem length_ancestorsFrom_lt
    (fuel : Nat)
    {n : NodeId}
    (hn : n < d.size) :
    (d.ancestorsFrom fuel n).length < d.size := by
  have hsub : n :: d.ancestorsFrom fuel n ⊆ List.range d.size := by
    intro a ha
    rw [List.mem_range]
    rcases List.mem_cons.mp ha with rfl | ha
    · exact hn
    · exact h.lt_of_above (above_of_mem_ancestorsFrom ha)
  have hlen := (List.subperm_of_subset (h.nodup_ancestorsFrom fuel n) hsub).length_le
  simp only [List.length_cons, List.length_range] at hlen
  omega

end WellFormed

theorem ancestors_of_parent?_none
    {n : NodeId}
    (hn : d.parent? n = none) :
    d.ancestors n = [] := by
  rw [ancestors]
  cases d.size with
  | zero => rfl
  | succ size => simp [ancestorsFrom, hn]

namespace WellFormed

variable (h : d.WellFormed)
include h

theorem ancestors_of_parent?
    {n p : NodeId}
    (hp : d.parent? n = some p) :
    d.ancestors n = p :: d.ancestors p := by
  rw [ancestors, ← ancestorsFrom_succ (h.length_ancestorsFrom_lt _ (lt_size_of_parent? hp))]
  simp [ancestorsFrom, hp, ancestors]

/-- The chain of parents holds the nodes above a node. -/
theorem mem_ancestors_iff
    {a n : NodeId} :
    a ∈ d.ancestors n ↔ d.Above a n := by
  constructor
  · exact above_of_mem_ancestorsFrom
  · intro ha
    induction ha using Relation.TransGen.head_induction_on with
    | single hp =>
        simp [h.ancestors_of_parent? hp]
    | head hp _ ih =>
        rw [h.ancestors_of_parent? hp]
        exact List.mem_cons_of_mem _ ih

theorem isDescendantOf_iff
    {a n : NodeId} :
    d.isDescendantOf n a = true ↔ d.Above a n := by
  rw [isDescendantOf, List.contains_iff_mem, h.mem_ancestors_iff]

theorem isAttached_iff
    {n : NodeId} :
    d.isAttached n = true ↔ n = root ∨ d.Above root n := by
  rw [isAttached, List.contains_iff_mem, List.mem_cons, h.mem_ancestors_iff, eq_comm]

theorem length_ancestors_lt
    (n : NodeId) :
    (d.ancestors n).length < d.size := by
  cases hp : d.parent? n with
  | none =>
      rw [ancestors_of_parent?_none hp]
      exact h.root_lt
  | some p =>
      exact h.length_ancestorsFrom_lt _ (lt_size_of_parent? hp)

end WellFormed

end WayUp

section WayDown

/-- The nodes below a node depend only on the children of the nodes there. -/
theorem belowFrom_congr
    {d' : Document} {region : NodeId → Prop}
    (hclosed : ∀ m, region m → ∀ c ∈ d.children m, region c)
    (hchildren : ∀ m, region m → d'.children m = d.children m)
    (fuel : Nat)
    {n : NodeId}
    (hn : region n) :
    d'.belowFrom fuel n = d.belowFrom fuel n := by
  induction fuel generalizing n with
  | zero =>
      rfl
  | succ fuel ih =>
      rw [belowFrom, belowFrom, hchildren n hn]
      apply List.flatMap_congr
      intro c hc
      rw [ih (hclosed n hn c hc)]

theorem descendants_congr
    {d' : Document}
    (hsize : d'.size = d.size)
    (hchildren : ∀ m, d'.children m = d.children m)
    (n : NodeId) :
    d'.descendants n = d.descendants n := by
  rw [descendants, descendants, hsize]
  exact belowFrom_congr (fun _ _ _ _ => trivial) (fun m _ => hchildren m) _ trivial

namespace WellFormed

variable (h : d.WellFormed)
include h

theorem above_of_mem_belowFrom
    {fuel : Nat} {n m : NodeId}
    (hm : m ∈ d.belowFrom fuel n) :
    d.Above n m := by
  induction fuel generalizing n with
  | zero =>
      simp [belowFrom] at hm
  | succ fuel ih =>
      rw [belowFrom, List.mem_flatMap] at hm
      obtain ⟨c, hc, hm⟩ := hm
      have hnc : d.Above n c := above_of_parent? ((h.mem_children n c).mp hc)
      rcases List.mem_cons.mp hm with rfl | hm
      · exact hnc
      · exact hnc.trans (ih hm)

theorem below_of_mem_cons
    {fuel : Nat} {c m : NodeId}
    (hm : m ∈ c :: d.belowFrom fuel c) :
    c = m ∨ d.Above c m := by
  rcases List.mem_cons.mp hm with rfl | hm
  · exact .inl rfl
  · exact .inr (h.above_of_mem_belowFrom hm)

/-- A node at depth `k` has at most `size - k` levels below it. -/
theorem belowFrom_succ
    {fuel : Nat} {n : NodeId}
    (hfuel : d.size ≤ fuel + (d.ancestors n).length) :
    d.belowFrom (fuel + 1) n = d.belowFrom fuel n := by
  induction fuel generalizing n with
  | zero =>
      have := h.length_ancestors_lt n
      omega
  | succ fuel ih =>
      rw [belowFrom, belowFrom]
      apply List.flatMap_congr
      intro c hc
      have hdepth := h.ancestors_of_parent? ((h.mem_children n c).mp hc)
      rw [ih]
      rw [hdepth, List.length_cons]
      omega

/-- The nodes below a node are its children, each before the nodes below it. -/
theorem descendants_eq
    (n : NodeId) :
    d.descendants n = (d.children n).flatMap fun c => c :: d.descendants c := by
  rw [descendants, ← h.belowFrom_succ (by omega)]
  rfl

theorem mem_descendants_iff
    {n m : NodeId} :
    m ∈ d.descendants n ↔ d.Above n m := by
  constructor
  · exact h.above_of_mem_belowFrom
  · intro hm
    induction hm with
    | single hp =>
        rw [h.descendants_eq, List.mem_flatMap]
        exact ⟨m, (h.mem_children _ m).mpr hp, by simp⟩
    | tail _ hp ih =>
        rw [h.descendants_eq, List.mem_flatMap]
        exact ⟨_, (h.mem_children _ _).mpr hp, List.mem_cons_of_mem _ ih⟩

theorem mem_descendants_root_iff
    {n : NodeId} :
    n ∈ d.descendants root ↔ n ≠ root ∧ d.isAttached n = true := by
  rw [h.mem_descendants_iff, h.isAttached_iff]
  constructor
  · intro hn
    exact ⟨(h.ne_of_above hn).symm, .inr hn⟩
  · rintro ⟨hne, hn⟩
    exact hn.resolve_left hne

/-- The subtrees of two children of a node have nothing in common. -/
theorem disjoint_of_children
    {n a b m : NodeId}
    (ha : d.parent? a = some n)
    (hb : d.parent? b = some n)
    (hab : a ≠ b)
    (ham : a = m ∨ d.Above a m)
    (hbm : b = m ∨ d.Above b m) :
    False := by
  rcases above_total ham hbm with rfl | habove | habove
  · exact hab rfl
  · rcases (above_iff_of_parent? hb).mp habove with rfl | habove
    · exact h.acyclic a (above_of_parent? ha)
    · exact h.acyclic a (habove.trans (above_of_parent? ha))
  · rcases (above_iff_of_parent? ha).mp habove with rfl | habove
    · exact h.acyclic b (above_of_parent? hb)
    · exact h.acyclic b (habove.trans (above_of_parent? hb))

theorem nodup_belowFrom
    (fuel : Nat)
    (n : NodeId) :
    (d.belowFrom fuel n).Nodup := by
  induction fuel generalizing n with
  | zero =>
      simp [belowFrom]
  | succ fuel ih =>
      rw [belowFrom, List.nodup_flatMap]
      constructor
      · intro c _
        refine List.nodup_cons.mpr ⟨?_, ih c⟩
        intro hc
        exact h.acyclic c (h.above_of_mem_belowFrom hc)
      · refine (h.nodup_children n).imp_of_mem ?_
        intro a b ha hb hab m hma hmb
        exact h.disjoint_of_children ((h.mem_children n a).mp ha)
          ((h.mem_children n b).mp hb) hab (h.below_of_mem_cons hma)
          (h.below_of_mem_cons hmb)

theorem nodup_descendants
    (n : NodeId) :
    (d.descendants n).Nodup :=
  h.nodup_belowFrom _ n

theorem length_descendants_le
    (n : NodeId) :
    (d.descendants n).length ≤ d.size := by
  have hsub : d.descendants n ⊆ List.range d.size := by
    intro m hm
    obtain ⟨p, hp, _⟩ := above_iff.mp (h.mem_descendants_iff.mp hm)
    exact List.mem_range.mpr (lt_size_of_parent? hp)
  simpa using (List.subperm_of_subset (h.nodup_descendants n) hsub).length_le

end WellFormed

end WayDown

section Loops

/--
Follows the parents of a cursor until `stop` holds, for at most `fuel` steps. The result
is the node where it stopped, if there is one, and nothing if the steps do not suffice.
-/
def seek (d : Document) (stop : NodeId → Bool) :
    Nat → Option NodeId → Option (Option NodeId)
  | _, none => some none
  | 0, some _ => none
  | fuel + 1, some n =>
      if stop n then
        some (some n)
      else
        d.seek stop fuel (d.parent? n)

/--
Takes at most `fuel` nodes from a stack, and puts the children of each on it, the first
child on top. The result is the list of the nodes that were taken, and the stack that is
left.
-/
def drain (d : Document) : Nat → List NodeId → List NodeId × List NodeId
  | 0, stack => ([], stack)
  | _ + 1, [] => ([], [])
  | fuel + 1, n :: stack =>
      (n :: (d.drain fuel (d.children n ++ stack)).1,
        (d.drain fuel (d.children n ++ stack)).2)

namespace WellFormed

variable (h : d.WellFormed)
include h

theorem seek_eq_of_le
    (stop : NodeId → Bool)
    {fuel : Nat} {n : NodeId}
    (hfuel : (n :: d.ancestors n).length ≤ fuel) :
    d.seek stop fuel (some n) = some ((n :: d.ancestors n).find? stop) := by
  induction fuel generalizing n with
  | zero =>
      simp at hfuel
  | succ fuel ih =>
      rw [seek, List.find?_cons]
      cases stop n with
      | true => rfl
      | false =>
          cases hp : d.parent? n with
          | none =>
              rw [ancestors_of_parent?_none hp]
              cases fuel <;> rfl
          | some p =>
              rw [h.ancestors_of_parent? hp] at hfuel ⊢
              exact ih (by simpa using hfuel)

/-- Every walk up ends within as many steps as there are nodes. -/
theorem seek_eq
    (stop : NodeId → Bool)
    (n : NodeId) :
    d.seek stop d.size (some n) = some ((n :: d.ancestors n).find? stop) :=
  h.seek_eq_of_le stop (h.length_ancestors_lt n)

theorem seek_parent?
    (stop : NodeId → Bool)
    (n : NodeId) :
    d.seek stop d.size (d.parent? n) = some ((d.ancestors n).find? stop) := by
  cases hp : d.parent? n with
  | none =>
      rw [ancestors_of_parent?_none hp]
      cases d.size <;> rfl
  | some p =>
      rw [h.ancestors_of_parent? hp]
      exact h.seek_eq stop p

theorem drain_eq_of_le
    {fuel : Nat} {stack : List NodeId}
    (hfuel : (stack.flatMap fun c => c :: d.descendants c).length ≤ fuel) :
    d.drain fuel stack = (stack.flatMap fun c => c :: d.descendants c, []) := by
  induction fuel generalizing stack with
  | zero =>
      cases stack with
      | nil => rfl
      | cons n stack => simp at hfuel
  | succ fuel ih =>
      cases stack with
      | nil => rfl
      | cons n stack =>
          have hstack :
              ((n :: stack).flatMap fun c => c :: d.descendants c) =
                n :: ((d.children n ++ stack).flatMap fun c => c :: d.descendants c) := by
            rw [List.flatMap_cons, List.flatMap_append, ← h.descendants_eq]
            rfl
          rw [hstack] at hfuel ⊢
          rw [drain, ih (by simpa using hfuel)]

/-- The stack is empty after as many steps as there are nodes. -/
theorem drain_eq
    (n : NodeId) :
    d.drain d.size (d.children n) = (d.descendants n, []) := by
  rw [h.descendants_eq]
  apply h.drain_eq_of_le
  rw [← h.descendants_eq]
  exact h.length_descendants_le n

end WellFormed

/-- The loops end within as many steps as there are nodes, with the results of the walks. -/
structure WalksEnd (d : Document) : Prop where
  isAttached : ∀ n,
    (d.seek (· == root) d.size (some n)).map Option.isSome = some (d.isAttached n)
  isDescendantOf : ∀ n a,
    (d.seek (· == a) d.size (d.parent? n)).map Option.isSome = some (d.isDescendantOf n a)
  closestWithClass : ∀ n name,
    d.seek (d.nodeIs fun e => e.hasClass name) d.size (some n) =
      some (d.closestWithClass n name)
  checkInsert : ∀ parent child,
    (d.seek (· == child) d.size (some parent)).map Option.isSome =
      some ((parent :: d.ancestors parent).contains child)
  descendants : ∀ n,
    d.drain d.size (d.children n) = (d.descendants n, []) ∧ (d.descendants n).Nodup

theorem isSome_find?_beq
    (l : List NodeId)
    (a : NodeId) :
    (l.find? (· == a)).isSome = l.contains a := by
  rw [List.isSome_find?, List.any_beq']

theorem WellFormed.walksEnd
    (h : d.WellFormed) :
    d.WalksEnd where
  isAttached n := by
    rw [h.seek_eq, Option.map_some, isSome_find?_beq]
    rfl
  isDescendantOf n a := by
    rw [h.seek_parent?, Option.map_some, isSome_find?_beq]
    rfl
  closestWithClass n name := h.seek_eq _ n
  checkInsert parent child := by
    rw [h.seek_eq, Option.map_some, isSome_find?_beq]
  descendants n := ⟨h.drain_eq n, h.nodup_descendants n⟩

end Loops

end Document
end LiveForms
