import LiveForms.Formula.Form
import LiveForms.Proofs.Page.Numbering
import Mathlib.Data.List.TakeWhile

/-!
# Live forms: rows that come in

A new row is made apart from the tree, with its two cells and its button, and then put
among the children of the container. Making it is building a small forest below one new
node, so it gets four numbers in a row, and nothing that was there changes. Putting it into
the container opens one gap among the children there, in front of the first formula.

Main definitions:

* `Form.beforeFormulas`, `Form.fromFormulas`: the children on both sides of this gap.
* `Form.IsNewRow`: a row with its cells and its button, as they are made.
* `Form.RowAdded`: what a new row makes of a document.

Main statements:

* `Form.createRow_spec`, `Form.placeRow_spec`: the two operations.
* `Form.RowCreated.added`: both together.
-/

namespace LiveForms
namespace Form

/-- What is inside a new row, in the way of a page. -/
def rowDefinitions (m : Markup) : List Definition :=
  [{ tag := "input", attrs := [("type", "text")], classes := [m.gradeClass],
     placeholder := some "Grade (/20)" },
   { tag := "input", attrs := [("type", "text")], classes := [m.creditClass],
     placeholder := some "Credit" },
   { tag := "button", attrs := [("type", "button")], classes := [m.removeClass],
     text := some "-" }]

theorem rowContent_eq
    (m : Markup) :
    rowContent m = (rowDefinitions m).map Definition.toElement :=
  rfl

/-- Whether a node has the tag of a formula. -/
def isFormula (m : Markup) (d : Document) (n : NodeId) : Bool :=
  d.nodeIs (fun e => e.tag == m.formulaTag) n

/-- The children of a node in front of the first one that is a formula. -/
def beforeFormulas (m : Markup) (d : Document) (container : NodeId) : List NodeId :=
  (d.children container).takeWhile fun n => !isFormula m d n

/-- The children of a node from the first one on that is a formula. -/
def fromFormulas (m : Markup) (d : Document) (container : NodeId) : List NodeId :=
  (d.children container).dropWhile fun n => !isFormula m d n

/-- The node `row` is a new row; the nodes behind it are its cells and its button. -/
structure IsNewRow (m : Markup) (d : Document) (row : Nat) : Prop where
  element : d.element? row = some (rowElement m)
  children : d.children row = [row + 1, row + 2, row + 3]
  inside : ∀ k e, (rowContent m)[k]? = some e → d.element? (row + 1 + k) = some e

/-- `d'` is `d` with a row that is not part of the tree yet. -/
structure RowCreated (m : Markup) (d d' : Document) : Prop where
  grown : d.Grown d'
  size : d'.size = d.size + 4
  children : ∀ n, n < d.size → d'.children n = d.children n
  parent_row : d'.parent? d.size = none
  row : IsNewRow m d' d.size

/-- `d'` is `d` with a row between `before` and `after` below `container`. -/
structure RowAdded (m : Markup) (d d' : Document) (container : NodeId)
    (before after : List NodeId) : Prop where
  grown : d.Grown d'
  size : d'.size = d.size + 4
  siblings : d.children container = before ++ after
  children : ∀ n, n < d.size →
    d'.children n = if n = container then before ++ d.size :: after else d.children n
  parent_row : d'.parent? d.size = some container
  row : IsNewRow m d' d.size

variable {m : Markup} {d d' : Document}

/-- The elements of a row are created in the way of definitions of a page. -/
theorem fillRow_of_build
    {row : NodeId} {definitions : List Definition}
    (hd : (Page.leaves definitions .nil).build d row = .ok d') :
    fillRow d row (definitions.map Definition.toElement) = (d', .ok row) := by
  induction definitions generalizing d with
  | nil =>
      cases hd
      rfl
  | cons s rest ih =>
      rw [Page.leaves, Forest.build] at hd
      rw [List.map_cons, fillRow]
      cases hcreate : d.create row s.toElement with
      | mk created outcome =>
          rw [hcreate] at hd
          cases outcome with
          | error e => cases hd
          | ok n => exact ih hd

/-- The row has the number of the next node, and is made without a refusal. -/
theorem createRow_spec
    (m : Markup)
    (h : d.WellFormed) :
    ∃ d', createRow m d = (d', .ok d.size) ∧ RowCreated m d d' := by
  have hcreated := Document.created_createDetached d (rowElement m)
  have hgrown := Document.grown_createDetached d (rowElement m)
  have hrow : d.size < (d.createDetached (rowElement m)).1.size := by
    rw [hcreated.size]
    exact Nat.lt_succ_self _
  obtain ⟨d', hbuild, hbuilt⟩ :=
    (Page.leaves (rowDefinitions m) .nil).build_spec (h.created hcreated) hrow
  have hinside := hbuilt.extended
  have hcell := hbuilt.element?
  rw [hcreated.size] at hinside hcell
  refine ⟨d', fillRow_of_build hbuild, hgrown.trans hinside.grown, ?_, ?_, ?_, ?_, ?_, ?_⟩
  · rw [hbuilt.size, hcreated.size]
    rfl
  · intro n hn
    rw [hinside.children n (Nat.lt_trans hn hrow), if_neg (Nat.ne_of_lt hn), hcreated.children]
  · rw [hinside.grown.parent? _ hrow, hcreated.parent?]
    exact Document.parent?_of_size_le (Nat.le_refl _)
  · rw [hinside.grown.element? _ hrow, hcreated.element?, if_pos rfl]
  · rw [hinside.children _ hrow, if_pos rfl, hcreated.children,
      Document.children_of_size_le (Nat.le_refl _)]
    rfl
  · intro k e hk
    rw [rowContent_eq, List.getElem?_map, Option.map_eq_some_iff] at hk
    obtain ⟨s, hs, rfl⟩ := hk
    exact hcell k s hs

/-- Where a list is cut depends on its members only. -/
theorem cut_congr
    {p q : NodeId → Bool} {l : List NodeId}
    (h : ∀ n ∈ l, p n = q n) :
    l.takeWhile p = l.takeWhile q ∧ l.dropWhile p = l.dropWhile q := by
  induction l with
  | nil => exact ⟨rfl, rfl⟩
  | cons x xs ih =>
      obtain ⟨htake, hdrop⟩ := ih fun n hn => h n (List.mem_cons_of_mem x hn)
      rw [List.takeWhile_cons, List.takeWhile_cons, List.dropWhile_cons, List.dropWhile_cons,
        h x List.mem_cons_self, htake, hdrop]
      exact ⟨rfl, rfl⟩

namespace RowCreated

variable (hd : RowCreated m d d')
include hd

/-- A new row may go below every node that was there. -/
theorem insertable
    (h : d.WellFormed)
    {container : NodeId}
    (hcontainer : container < d.size) :
    d'.Insertable container d.size where
  child_ne_root := Nat.ne_of_gt h.root_lt
  parent_lt := Nat.lt_of_lt_of_le hcontainer hd.grown.size_le
  child_element := ⟨_, hd.row.element⟩
  child_ne_parent := Nat.ne_of_gt hcontainer
  not_above := by
    intro habove
    have hlt := h.lt_of_above (h.above_of_grown hd.grown hcontainer habove)
    exact Nat.lt_irrefl _ hlt

/-- The children of the container are the same formulas and others as before. -/
theorem isFormula_eq
    (h : d.WellFormed)
    {container n : NodeId}
    (hn : n ∈ d.children container) :
    isFormula m d' n = isFormula m d n := by
  have hlt := Document.lt_size_of_parent? ((h.mem_children container n).mp hn)
  rw [isFormula, isFormula, Document.nodeIs, Document.nodeIs, hd.grown.element? n hlt]

/-- So the gap for a row is where it was. -/
theorem gap_eq
    (h : d.WellFormed)
    {container : NodeId}
    (hcontainer : container < d.size) :
    beforeFormulas m d' container = beforeFormulas m d container ∧
      fromFormulas m d' container = fromFormulas m d container := by
  have hkind : ∀ n ∈ d.children container, (!isFormula m d' n) = !isFormula m d n := by
    intro n hn
    rw [hd.isFormula_eq h hn]
  rw [beforeFormulas, beforeFormulas, fromFormulas, fromFormulas, hd.children container hcontainer]
  exact cut_congr hkind

theorem added
    (h : d.WellFormed)
    {placed : Document} {container : NodeId} {before after : List NodeId}
    (hcontainer : container < d.size)
    (hmoved : d'.Moved placed container d.size before after) :
    RowAdded m d placed container before after := by
  obtain ⟨hsiblings, hchildren⟩ :=
    (h.steps hd.grown.steps).children_of_moved_in hd.parent_row hmoved
  refine ⟨⟨hd.grown.steps.tail (.moved hmoved), ?_, ?_, ?_⟩, ?_, ?_, ?_, ?_, ?_, ?_, ?_⟩
  · rw [hmoved.size]
    exact hd.grown.size_le
  · intro n hn
    rw [hmoved.parent?, if_neg (Nat.ne_of_lt hn), hd.grown.parent? n hn]
  · intro n hn
    rw [hmoved.element?, hd.grown.element? n hn]
  · rw [hmoved.size, hd.size]
  · rw [← hd.children container hcontainer, hsiblings]
  · intro n hn
    rw [hchildren, hd.children n hn]
  · rw [hmoved.parent?, if_pos rfl]
  · rw [hmoved.element?, hd.row.element]
  · rw [hchildren, if_neg (Nat.ne_of_gt hcontainer), hd.row.children]
  · intro k e hk
    rw [hmoved.element?, hd.row.inside k e hk]

end RowCreated

/-- Of the formulas below a node, the first that is a child of it is its first child that is a
formula: what is below the children has other parents. -/
theorem rowAnchor?_eq
    (h : d.WellFormed)
    (m : Markup)
    (container : NodeId) :
    rowAnchor? m d container = (d.children container).find? (isFormula m d) := by
  have hchildren : ∀ cs : List NodeId, (∀ c ∈ cs, d.parent? c = some container) →
      (cs.flatMap fun c => c :: d.descendants c).find? (fun n =>
          decide (isFormula m d n = true ∧ d.parent? n = some container)) =
        cs.find? (isFormula m d) := by
    intro cs hcs
    induction cs with
    | nil => rfl
    | cons c cs ih =>
        have hc := hcs c List.mem_cons_self
        have hbelow : (d.descendants c).find? (fun n =>
            decide (isFormula m d n = true ∧ d.parent? n = some container)) = none := by
          rw [List.find?_eq_none]
          intro n hn hfound
          obtain ⟨_, hparent⟩ := of_decide_eq_true hfound
          have hcn := h.mem_descendants_iff.mp hn
          rcases (Document.above_iff_of_parent? hparent).mp hcn with rfl | habove
          · exact h.acyclic c (Document.above_of_parent? hc)
          · exact h.acyclic c (habove.trans (Document.above_of_parent? hc))
        rw [List.flatMap_cons, List.cons_append, List.find?_cons, List.find?_cons,
          List.find?_append, hbelow, Option.none_or,
          ih fun c' hc' => hcs c' (List.mem_cons_of_mem c hc')]
        simp [hc]
  rw [rowAnchor?, Document.withTag, Document.findAll, List.find?_filter, h.descendants_eq]
  simp only [decide_eq_true_eq]
  exact hchildren _ fun c hc => (h.mem_children container c).mp hc

/-- The first formula among distinct nodes ends those before all formulas. -/
theorem takeWhile_of_find?
    {p : NodeId → Bool} {before after : List NodeId} {f : NodeId}
    (hnodup : (before ++ f :: after).Nodup)
    (hf : (before ++ f :: after).find? p = some f) :
    (before ++ f :: after).takeWhile (fun n => !p n) = before ∧
      (before ++ f :: after).dropWhile (fun n => !p n) = f :: after := by
  have hbefore : ∀ n ∈ before, (!p n) = true := by
    intro n hn
    rw [Bool.not_eq_true']
    have hnone : before.find? p = none := by
      rw [List.find?_append] at hf
      cases hfound : before.find? p with
      | none => rfl
      | some g =>
          rw [hfound, Option.some_or] at hf
          obtain rfl := Option.some.inj hf
          have hmem := List.mem_of_find?_eq_some hfound
          exact absurd rfl ((List.nodup_append.mp hnodup).2.2 g hmem g List.mem_cons_self)
    exact Bool.eq_false_iff.mpr (List.find?_eq_none.mp hnone n hn)
  have hstop : ¬ (!p f) = true := by
    rw [List.find?_some hf]
    exact Bool.false_ne_true
  constructor
  · rw [List.takeWhile_append_of_pos hbefore,
      List.takeWhile_cons_of_neg (p := fun n => !p n) hstop, List.append_nil]
  · rw [List.dropWhile_append_of_pos hbefore,
      List.dropWhile_cons_of_neg (p := fun n => !p n) hstop]

/-- A row comes in front of the first child that is a formula, or behind all children. -/
theorem placeRow_spec
    {container row : NodeId}
    (h : d.WellFormed)
    (m : Markup)
    (hparent : d.parent? row = none)
    (hinsertable : d.Insertable container row) :
    ∃ d', placeRow m d container row = .ok d' ∧
      d.Moved d' container row (beforeFormulas m d container) (fromFormulas m d container) := by
  have hsame : (d.children container).filter (· != row) = d.children container := by
    apply h.filter_children
    rw [hparent]
    simp
  rw [placeRow]
  cases hanchor : rowAnchor? m d container with
  | none =>
      obtain ⟨d', hd⟩ := h.append_of_insertable hinsertable
      have hmoved := h.append_spec hd
      rw [rowAnchor?_eq h, List.find?_eq_none] at hanchor
      have hall : ∀ n ∈ d.children container, (!isFormula m d n) = true :=
        fun n hn => by simpa using hanchor n hn
      rw [hsame] at hmoved
      refine ⟨d', hd, ?_⟩
      rw [beforeFormulas, fromFormulas, List.takeWhile_eq_self_iff.mpr hall,
        List.dropWhile_eq_nil_iff.mpr hall]
      exact hmoved
  | some formula =>
      have hformula : d.parent? formula = some container := by
        simpa using List.find?_some hanchor
      have hne : row ≠ formula := by
        rintro rfl
        rw [hparent] at hformula
        simp at hformula
      obtain ⟨d', hd⟩ := h.insertBefore_of_insertable hformula hne hinsertable
      rcases h.insertBefore_spec hd with ⟨heq, _⟩ | ⟨before, after, hmoved⟩
      · exact absurd heq hne
      · have hsiblings := hsame.symm.trans hmoved.siblings
        rw [rowAnchor?_eq h, hsiblings] at hanchor
        have hnodup := h.nodup_children container
        rw [hsiblings] at hnodup
        obtain ⟨hbefore, hafter⟩ := takeWhile_of_find? hnodup hanchor
        refine ⟨d', hd, ?_⟩
        rw [beforeFormulas, fromFormulas, hsiblings, hbefore, hafter]
        exact hmoved

/-- The cell for the grade of a new row lies in the tree with the container. -/
theorem RowAdded.above_grade
    {container : NodeId} {before after : List NodeId}
    (h : d.WellFormed)
    (hd : RowAdded m d d' container before after)
    (hcontainer : d.isAttached container = true) :
    d'.Above Document.root (d.size + 1) := by
  have hcell : d'.parent? (d.size + 1) = some d.size := by
    rw [← (h.steps hd.grown.steps).mem_children, hd.row.children]
    exact List.mem_cons_self
  have hrow := Document.above_of_parent? hd.parent_row
  have habove := hrow.trans (Document.above_of_parent? hcell)
  rcases h.isAttached_iff.mp hcontainer with rfl | hroot
  · exact habove
  · exact (hd.grown.above hroot).trans habove

end Form
end LiveForms
