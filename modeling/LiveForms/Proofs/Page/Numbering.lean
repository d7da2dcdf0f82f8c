import LiveForms.Page.Basic
import LiveForms.Proofs.Document.Creation
import LiveForms.Proofs.Document.Index

/-!
# Live forms: the nodes of a page

A page is built by recursion, each definition before those inside it, and every definition
becomes a new node of a document that is still growing. So the nodes are numbered in the
order in which the definitions are written, and the numbers alone say where everything is:
if the first definition of a forest has some number, then those inside it begin with the
next one, and its first sibling comes behind all of them.

The induction on the forest goes through the document that has been built so far. What is
built below one definition leaves alone what was there, and with it the nodes of the
definitions before (`Forest.LaidOut.congr`).

Main definitions:

* `Definition.Written`: the element of a definition.
* `Forest.tops`: the nodes of the outermost definitions of a forest.
* `Forest.LaidOut`: the links of a document are those of a forest.

Main statements:

* `Forest.build_spec`: what building a forest below a node adds to a document.
* `Page.build_numbered`: the document of a page.
-/

namespace LiveForms

/-- An element has what a definition says; what is missing there is empty. -/
structure Definition.Written (s : Definition) (e : Element) : Prop where
  tag : e.tag = s.tag
  id : e.id = s.id
  classes : e.classes = s.classes
  attrs : e.attrs = s.attrs
  value : e.value = s.value.getD ""
  text : e.text = s.text.getD ""
  placeholder : e.placeholder = s.placeholder
  label : e.label = s.label

theorem Definition.written_toElement
    (s : Definition) :
    s.Written s.toElement :=
  ⟨rfl, rfl, rfl, rfl, rfl, rfl, rfl, rfl⟩

namespace Forest

/-- The nodes of the outermost definitions, if the first definition has the number `first`. -/
def tops (first : Nat) : Forest → List NodeId
  | .nil => []
  | .cons _ children siblings =>
      first :: siblings.tops (first + 1 + children.preorder.length)

/--
The definitions of a forest have the numbers from `first` on, in the order in which they
are written. The outermost ones stand below `parent`, and the others below the definition
around them; the children of each are the definitions directly inside it.
-/
def LaidOut (d : Document) (parent : NodeId) (first : Nat) : Forest → Prop
  | .nil => True
  | .cons _ children siblings =>
      d.parent? first = some parent ∧
      d.children first = children.tops (first + 1) ∧
      children.LaidOut d first (first + 1) ∧
      siblings.LaidOut d parent (first + 1 + children.preorder.length)

/-- `d'` is `d` with the nodes of a forest below `parent`. -/
structure Built (forest : Forest) (d d' : Document) (parent : NodeId) : Prop where
  extended : d.Extended d' parent (forest.tops d.size)
  size : d'.size = d.size + forest.preorder.length
  element? : ∀ k s, forest.preorder[k]? = some s →
    d'.element? (d.size + k) = some s.toElement
  laidOut : forest.LaidOut d' parent d.size

variable {d d' : Document} {parent : NodeId} {first : Nat}

@[simp] theorem preorder_cons
    (s : Definition)
    (children siblings : Forest) :
    (cons s children siblings).preorder = s :: (children.preorder ++ siblings.preorder) :=
  rfl

@[simp] theorem tops_cons
    (s : Definition)
    (children siblings : Forest) :
    (cons s children siblings).tops first =
      first :: siblings.tops (first + 1 + children.preorder.length) :=
  rfl

/-- Only the links of the nodes of a forest matter. -/
theorem LaidOut.congr
    {forest : Forest}
    (hlinks : ∀ n : Nat, first ≤ n → n < first + forest.preorder.length →
      d'.parent? n = d.parent? n ∧ d'.children n = d.children n)
    (h : forest.LaidOut d parent first) :
    forest.LaidOut d' parent first := by
  induction forest generalizing parent first with
  | nil =>
      trivial
  | cons s children siblings ihchildren ihsiblings =>
      obtain ⟨hparent, hchildren, hinside, hbehind⟩ := h
      simp only [preorder_cons, List.length_cons, List.length_append] at hlinks
      obtain ⟨hfirst, hfirst'⟩ := hlinks first (Nat.le_refl _) (by omega)
      refine ⟨hfirst.trans hparent, hfirst'.trans hchildren, ihchildren ?_ hinside,
        ihsiblings ?_ hbehind⟩
      · intro n hle hlt
        exact hlinks n (by omega) (by omega)
      · intro n hle hlt
        exact hlinks n (by omega) (by omega)

theorem LaidOut.of_extended
    {forest : Forest} {n : Nat} {tops : List NodeId}
    (hd : d.Extended d' n tops)
    (hn : n < first)
    (hsize : first + forest.preorder.length ≤ d.size)
    (h : forest.LaidOut d parent first) :
    forest.LaidOut d' parent first := by
  refine h.congr ?_
  intro m hle hlt
  have hm : m < d.size := Nat.lt_of_lt_of_le hlt hsize
  refine ⟨hd.grown.parent? m hm, ?_⟩
  rw [hd.children m hm, if_neg (Nat.ne_of_gt (Nat.lt_of_lt_of_le hn hle))]

/-- The nodes of a definition, of those inside it and of those behind it. -/
theorem built_cons
    {s : Definition} {children siblings : Forest} {d₁ d₂ : Document}
    (hparent : parent < d.size)
    (hcreated : d.Appended d₁ parent s.toElement)
    (hchildren : children.Built d₁ d₂ d.size)
    (hsiblings : siblings.Built d₂ d' parent) :
    (cons s children siblings).Built d d' parent := by
  have hsize₁ : d₁.size = d.size + 1 := hcreated.size
  have hsize₂ : d₂.size = d.size + 1 + children.preorder.length := by
    rw [hchildren.size, hsize₁]
  have hnew : d.size < d₁.size := by omega
  have hnew' : d.size < d₂.size := by omega
  have hinside : d₁.Extended d₂ d.size (children.tops (d.size + 1)) := hsize₁ ▸ hchildren.extended
  have hbehind := hsize₂ ▸ hsiblings.extended
  have hlaid : children.LaidOut d₂ d.size (d.size + 1) := hsize₁ ▸ hchildren.laidOut
  have hfirst : d'.children d.size = children.tops (d.size + 1) := by
    rw [hbehind.children d.size hnew', if_neg (Nat.ne_of_gt hparent),
      hinside.children d.size hnew, if_pos rfl, hcreated.children,
      if_neg (Nat.ne_of_gt hparent), Document.children_of_size_le (Nat.le_refl _),
      List.nil_append]
  refine ⟨?_, ?_, ?_, ?_, hfirst, ?_, hsize₂ ▸ hsiblings.laidOut⟩
  · rw [tops_cons, ← List.singleton_append]
    exact (hcreated.extended.trans_inside hinside (Nat.le_refl _)).trans hbehind
  · rw [hsiblings.size, hsize₂, preorder_cons, List.length_cons, List.length_append]
    omega
  · intro k s' hk
    cases k with
    | zero =>
        obtain rfl : s = s' := Option.some.inj hk
        rw [Nat.add_zero, hbehind.grown.element? _ hnew', hinside.grown.element? _ hnew,
          hcreated.element?, if_pos rfl]
    | succ k =>
        rw [preorder_cons, List.getElem?_cons_succ, List.getElem?_append] at hk
        split at hk
        · rename_i hlt
          have hnode := hchildren.element? k s' hk
          have hnumber : d.size + (k + 1) = d₁.size + k := by omega
          have hold : d₁.size + k < d₂.size := by omega
          rw [hnumber, hbehind.grown.element? _ hold, hnode]
        · have hnode := hsiblings.element? _ s' hk
          have hnumber : d.size + (k + 1) = d₂.size + (k - children.preorder.length) := by omega
          rw [hnumber, hnode]
  · rw [hbehind.grown.parent? _ hnew', hinside.grown.parent? _ hnew, hcreated.parent?,
      if_pos rfl]
  · exact hlaid.of_extended hbehind (Nat.lt_succ_of_lt hparent) (Nat.le_of_eq hsize₂.symm)

/-- Building a forest below a node that is there is never refused. -/
theorem build_spec
    (forest : Forest)
    (h : d.WellFormed)
    (hparent : parent < d.size) :
    ∃ d', forest.build d parent = .ok d' ∧ forest.Built d d' parent := by
  induction forest generalizing d parent with
  | nil =>
      exact ⟨d, rfl, .refl d parent, rfl, by simp [preorder], trivial⟩
  | cons s children siblings ihchildren ihsiblings =>
      obtain ⟨d₁, hcreate, hcreated⟩ := h.create_spec hparent s.toElement
      have h₁ := h.steps hcreated.steps
      have hnew : d.size < d₁.size := by rw [hcreated.size]; exact Nat.lt_succ_self _
      obtain ⟨d₂, hbuild₂, hbuilt₂⟩ := ihchildren h₁ hnew
      have h₂ := h₁.steps hbuilt₂.extended.grown.steps
      have hparent₂ : parent < d₂.size :=
        Nat.lt_of_lt_of_le (Nat.lt_trans hparent hnew) hbuilt₂.extended.grown.size_le
      obtain ⟨d₃, hbuild₃, hbuilt₃⟩ := ihsiblings h₂ hparent₂
      refine ⟨d₃, ?_, built_cons hparent hcreated hbuilt₂ hbuilt₃⟩
      simp only [build, hcreate, hbuild₂, hbuild₃]

/-- The nodes of a forest in document order are its numbers, one after the other. -/
theorem LaidOut.flatMap_tops
    {forest : Forest}
    (h : d.WellFormed)
    (hforest : forest.LaidOut d parent first) :
    (forest.tops first).flatMap (fun c => c :: d.descendants c) =
      List.range' first forest.preorder.length := by
  induction forest generalizing parent first with
  | nil =>
      rfl
  | cons s children siblings ihchildren ihsiblings =>
      obtain ⟨_, hchildren, hinside, hbehind⟩ := hforest
      rw [tops_cons, List.flatMap_cons, ihsiblings hbehind, h.descendants_eq, hchildren,
        ihchildren hinside, preorder_cons, List.length_cons, List.length_append,
        List.cons_append, List.range'_append_1, List.range'_succ]

end Forest

/-- A search through consecutive numbers is one through what they stand for. -/
theorem find?_range'_eq
    {α : Type} {l : List α} {first : Nat} {p : Nat → Bool} {q : α → Bool}
    (hpq : ∀ k x, l[k]? = some x → p (first + k) = q x) :
    (List.range' first l.length).find? p = (l.findIdx? q).map (first + ·) := by
  induction l generalizing first with
  | nil =>
      rfl
  | cons x l ih =>
      have hx : p first = q x := hpq 0 x rfl
      have hl : ∀ k y, l[k]? = some y → p (first + 1 + k) = q y := by
        intro k y hk
        rw [Nat.add_assoc, Nat.add_comm 1 k]
        exact hpq (k + 1) y hk
      rw [List.length_cons, List.range'_succ, List.find?_cons, List.findIdx?_cons, hx, ih hl]
      cases q x with
      | true => rfl
      | false =>
          cases l.findIdx? q with
          | none => rfl
          | some k => simp [Nat.add_assoc, Nat.add_comm 1 k]

/-- The nodes of a page come from the empty document. -/
theorem Page.build_spec
    (page : Page) :
    ∃ d, page.build = .ok d ∧ page.body.Built Document.empty d Document.root :=
  page.body.build_spec Document.wellFormed_empty Document.wellFormed_empty.root_lt

/-- The definition with an id, as the document of a page finds it. -/
theorem Forest.Built.byId
    {forest : Forest} {d : Document}
    (hbuilt : forest.Built Document.empty d Document.root)
    (hids : d.ids = d.attachedIds)
    (hlist : d.descendants Document.root = List.range' 1 forest.preorder.length)
    (id : String) :
    d.byId id =
      if id = "" then none
      else (forest.preorder.findIdx? fun s => s.id == some id).map (1 + ·) := by
  rw [Document.byId_eq_find? hids, hlist]
  split
  · rename_i hid
    rw [List.find?_eq_none]
    intro n _ hn
    exact (Document.holdsId_iff.mp hn).1 hid
  · rename_i hid
    apply find?_range'_eq
    intro k s hk
    have hnode : d.element? (1 + k) = some s.toElement := hbuilt.element? k s hk
    rw [Document.holdsId, Document.idOf, hnode]
    simp [bne_iff_ne.mpr hid, Definition.toElement]

/--
Every page has a document. It has a node for each definition and the root; the node of the
definition at a position of the page has the next number and the element that the
definition describes. The parent of a node is that of the definition around it, or the
root, and its children are the definitions directly inside it, in their order. In document
order the nodes are numbered without a gap, and an id is found at the first definition that
has it, if it is not empty.
-/
theorem Page.build_numbered
    (page : Page) :
    ∃ d, page.build = .ok d ∧
      d.size = page.body.preorder.length + 1 ∧
      (∀ k s, page.body.preorder[k]? = some s →
        ∃ e, d.element? (k + 1) = some e ∧ s.Written e) ∧
      page.body.LaidOut d Document.root 1 ∧
      d.children Document.root = page.body.tops 1 ∧
      d.descendants Document.root = List.range' 1 page.body.preorder.length ∧
      ∀ id, d.byId id =
        if id = "" then none
        else (page.body.preorder.findIdx? fun s => s.id == some id).map (1 + ·) := by
  obtain ⟨d, hbuild, hbuilt⟩ := page.build_spec
  have hsteps := hbuilt.extended.grown.steps
  have h := Document.wellFormed_empty.steps hsteps
  have hids := Document.ids_of_steps Document.wellFormed_empty (by decide) hsteps
  have hchildren : d.children Document.root = page.body.tops 1 := by
    rw [hbuilt.extended.children _ Document.wellFormed_empty.root_lt, if_pos rfl]
    rfl
  have hlist : d.descendants Document.root = List.range' 1 page.body.preorder.length := by
    rw [h.descendants_eq, hchildren]
    exact hbuilt.laidOut.flatMap_tops h
  refine ⟨d, hbuild, ?_, ?_, hbuilt.laidOut, hchildren, hlist, hbuilt.byId hids hlist⟩
  · rw [hbuilt.size, Nat.add_comm]
    rfl
  · intro k s hk
    refine ⟨s.toElement, ?_, s.written_toElement⟩
    rw [Nat.add_comm]
    exact hbuilt.element? k s hk

/-- The section with the rows: its row, which has three definitions inside, and two more. -/
example : Page.demoAverage.tops 14 = [14, 18, 19] := by
  decide

end LiveForms
