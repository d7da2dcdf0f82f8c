import LiveForms.Proofs.Session.Focus

/-!
# Live forms: rows stand in the order in which they came

A row that comes in is empty and stands in front of the first formula among the children of
the container. As long as a row is no formula itself, the next one comes to stand between it
and this formula. A row that goes out leaves the others in their order. So those rows that
are still there after some keys stand in the order in which the keys have added them, and
all formulas of the container stand behind them.

Main definitions:

* `Form.RowPlaced`: a new row is where it should be, and all else is where it was.
* `Session.rowsAdded`: the rows that keys have added.
* `Session.childRows`: those of some rows that are children of a node.

Main statements:

* `Session.childRows_stroke`: what one key keeps of the order.
* `Session.sublist_childRows_pressAll`: the order of the rows after all keys.
* `Session.rowOrder_pressAll`: one row on every page, and all rows after that.
-/

namespace LiveForms

namespace Form

/-- An element with a tag and a class into which nothing has been entered. -/
def IsEmptyElement (d : Document) (n : NodeId) (tag name : String) : Prop :=
  ∃ e, d.element? n = some e ∧ e.tag = tag ∧ e.hasClass name = true ∧ e.value = ""

/--
The nodes of `d'` from `d.size` on are a new row with its two cells and its button, and the
row stands in front of the first formula among the children of `container`. Nothing else of
the tree is new.
-/
structure RowPlaced (m : Markup) (d d' : Document) (container : NodeId) : Prop where
  size : d'.size = d.size + 4
  row : IsEmptyElement d' d.size "div" m.rowClass
  grade : IsEmptyElement d' (d.size + 1) "input" m.gradeClass
  credit : IsEmptyElement d' (d.size + 2) "input" m.creditClass
  button : IsEmptyElement d' (d.size + 3) "button" m.removeClass
  children_row : d'.children d.size = [d.size + 1, d.size + 2, d.size + 3]
  parent_row : d'.parent? d.size = some container
  siblings : d'.children container =
    beforeFormulas m d container ++ d.size :: fromFormulas m d container
  parent? : ∀ n, n < d.size → d'.parent? n = d.parent? n
  children : ∀ n, n < d.size → n ≠ container → d'.children n = d.children n

variable {m : Markup} {d d' : Document} {container : NodeId}

section NewRow

/-- What a recomputation shows is not entered, and takes away no class but its own. -/
theorem isEmptyElement_of_quiet
    {n : NodeId} {e : Element} {name : String}
    (hquiet : d'.quiet m.invalidClass = d.quiet m.invalidClass)
    (hname : m.invalidClass ≠ name)
    (he : d.element? n = some e)
    (hclass : e.hasClass name = true)
    (hvalue : e.value = "") :
    IsEmptyElement d' n e.tag name := by
  obtain ⟨e', he', hsame⟩ := Document.element?_of_quiet hquiet he
  have hvalues : (e'.quiet m.invalidClass).value = (e.quiet m.invalidClass).value :=
    congrArg Element.value hsame
  refine ⟨e', he', (Element.sameIdentity_of_quiet hsame).tag, ?_, hvalues.trans hvalue⟩
  rw [← Element.hasClass_quiet hname, hsame, Element.hasClass_quiet hname, hclass]

/-- All children are on one of the two sides of the gap. -/
theorem beforeFormulas_append
    (m : Markup)
    (d : Document)
    (container : NodeId) :
    beforeFormulas m d container ++ fromFormulas m d container = d.children container :=
  List.takeWhile_append_dropWhile

/-- Recomputing the formulas leaves a new row where it is. -/
theorem RowAdded.rowPlaced
    {placed : Document}
    (hm : m.InvalidApart)
    (hremove : m.invalidClass ≠ m.removeClass)
    (hcontainer : container < d.size)
    (hadded : RowAdded m d placed container
      (beforeFormulas m d container) (fromFormulas m d container))
    (hquiet : d'.quiet m.invalidClass = placed.quiet m.invalidClass) :
    RowPlaced m d d' container := by
  have hchildren := Document.children_of_quiet hquiet
  have hinside := hadded.row.inside
  refine ⟨(Document.size_of_quiet hquiet).trans hadded.size, ?_, ?_, ?_, ?_,
    (hchildren _).trans hadded.row.children,
    (Document.parent?_of_quiet hquiet _).trans hadded.parent_row, ?_, ?_, ?_⟩
  · exact isEmptyElement_of_quiet hquiet hm.row hadded.row.element
      (by simp [rowElement, Element.hasClass]) rfl
  · exact isEmptyElement_of_quiet hquiet hm.grade (hinside 0 _ rfl)
      (by simp [Element.hasClass]) rfl
  · exact isEmptyElement_of_quiet hquiet hm.credit (hinside 1 _ rfl)
      (by simp [Element.hasClass]) rfl
  · exact isEmptyElement_of_quiet hquiet hremove (hinside 2 _ rfl)
      (by simp [Element.hasClass]) rfl
  · rw [hchildren, hadded.children container hcontainer, if_pos rfl]
  · intro n hn
    rw [Document.parent?_of_quiet hquiet, hadded.grown.parent? n hn]
  · intro n hn hne
    rw [hchildren, hadded.children n hn, if_neg hne]

end NewRow

section Gap

/-- What a node is decides whether it is a formula. -/
theorem isFormula_of_tag
    {n : NodeId} {e : Element}
    (he : d.element? n = some e) :
    isFormula m d n = (e.tag == m.formulaTag) := by
  rw [isFormula, Document.nodeIs, he, Option.any_some]

/-- The children in front of all formulas stay if all children do. -/
theorem beforeFormulas_congr
    {n : NodeId}
    (hchildren : d'.children n = d.children n)
    (hformula : ∀ c ∈ d.children n, isFormula m d' c = isFormula m d c) :
    beforeFormulas m d' n = beforeFormulas m d n := by
  rw [beforeFormulas, beforeFormulas, hchildren]
  exact (cut_congr fun c hc => congrArg not (hformula c hc)).1

/-- Without some members, a list starts with what is left of its start. -/
theorem filter_takeWhile_sublist
    (p q : NodeId → Bool)
    (l : List NodeId) :
    ((l.takeWhile p).filter q).Sublist ((l.filter q).takeWhile p) := by
  induction l with
  | nil => exact .slnil
  | cons x xs ih =>
      by_cases hp : p x = true
      · by_cases hq : q x = true
        · rw [List.takeWhile_cons_of_pos hp, List.filter_cons_of_pos hq,
            List.filter_cons_of_pos hq, List.takeWhile_cons_of_pos hp]
          exact ih.cons_cons x
        · rw [List.takeWhile_cons_of_pos hp, List.filter_cons_of_neg hq,
            List.filter_cons_of_neg hq]
          exact ih
      · rw [List.takeWhile_cons_of_neg hp]
        exact List.nil_sublist _

/-- A child that is no formula, put into the gap, is the last one in front of all formulas. -/
theorem takeWhile_gap
    (p : NodeId → Bool)
    (l : List NodeId)
    {x : NodeId}
    (hx : p x = true) :
    (l.takeWhile p ++ x :: l.dropWhile p).takeWhile p = l.takeWhile p ++ [x] := by
  have hall : ∀ y ∈ l.takeWhile p, p y = true := fun y hy => List.mem_takeWhile_imp hy
  have hstop : (l.dropWhile p).takeWhile p = [] := by
    rw [List.takeWhile_eq_nil_iff]
    intro hlt
    exact List.dropWhile_get_zero_not p l hlt
  rw [List.takeWhile_append_of_pos hall, List.takeWhile_cons_of_pos hx, hstop]

/-- A new row is the last child in front of the formulas, unless it is one. -/
theorem RowPlaced.beforeFormulas_eq
    (hd : RowPlaced m d d' container)
    (hdiv : m.formulaTag ≠ "div")
    (hformula : ∀ c ∈ d.children container, isFormula m d' c = isFormula m d c) :
    beforeFormulas m d' container = beforeFormulas m d container ++ [d.size] := by
  obtain ⟨e, he, htag, _⟩ := hd.row
  have hrow : (!isFormula m d' d.size) = true := by
    rw [isFormula_of_tag he, htag, beq_false_of_ne hdiv.symm]
    rfl
  obtain ⟨hbefore, hafter⟩ := cut_congr fun c hc => congrArg not (hformula c hc).symm
  have hsiblings := hd.siblings
  rw [beforeFormulas, fromFormulas, hbefore, hafter] at hsiblings
  rw [beforeFormulas, beforeFormulas, hsiblings, takeWhile_gap _ _ hrow, hbefore]

/-- On a settled form with a container, a new row is always placed. -/
theorem Settled.addRow_rowPlaced
    {form : Form}
    (h : form.Settled)
    (hm : form.markup.InvalidApart)
    (hremove : form.markup.invalidClass ≠ form.markup.removeClass)
    (hcontainer : form.container = some container) :
    ∃ form', form.addRow = (form', .ok (some form.document.size)) ∧
      RowPlaced form.markup form.document form'.document container := by
  obtain ⟨placed, shown, hadded, hdone, hadd⟩ := h.addRow_places hcontainer
  exact ⟨_, hadd, hadded.rowPlaced hm hremove (h.container_lt hcontainer) hdone.quiet⟩

end Gap

end Form

namespace Session

/-- The rows that keys add, in the order in which they come. A new row is the next node, so
a key has added one if there are more nodes than before. -/
def rowsAdded (s : Session) : List Stroke → List NodeId
  | [] => []
  | k :: strokes =>
      if s.document.size < (s.stroke k).document.size then
        s.document.size :: rowsAdded (s.stroke k) strokes
      else
        rowsAdded (s.stroke k) strokes

/-- Those of some rows that are children of a node. -/
def childRows (d : Document) (parent : NodeId) (rows : List NodeId) : List NodeId :=
  rows.filter fun n => d.parent? n = some parent

/-- Some rows, as far as they are children of a node, stand there in their order and in front
of all formulas. -/
structure RowsInOrder (m : Markup) (d : Document) (parent : NodeId) (rows : List NodeId) :
    Prop where
  parent_lt : parent < d.size
  lt_size : ∀ n ∈ rows, n < d.size
  sublist : (childRows d parent rows).Sublist (Form.beforeFormulas m d parent)

variable {m : Markup} {s : Session} {parent : NodeId} {rows : List NodeId}

section RowsOfKeys

theorem rowsAdded_of_size_lt
    {k : Stroke}
    (hsize : s.document.size < (s.stroke k).document.size) :
    s.rowsAdded [k] = [s.document.size] :=
  if_pos hsize

theorem rowsAdded_of_size_eq
    {k : Stroke}
    (hsize : (s.stroke k).document.size = s.document.size) :
    s.rowsAdded [k] = [] :=
  if_neg (by rw [hsize]; exact Nat.lt_irrefl _)

theorem rowsAdded_cons
    (k : Stroke)
    (strokes : List Stroke) :
    s.rowsAdded (k :: strokes) = s.rowsAdded [k] ++ (s.stroke k).rowsAdded strokes := by
  rw [rowsAdded, rowsAdded, rowsAdded]
  split <;> rfl

theorem childRows_congr
    {d d' : Document}
    (hparent : ∀ n ∈ rows, d'.parent? n = d.parent? n) :
    childRows d' parent rows = childRows d parent rows :=
  List.filter_congr fun n hn => by rw [hparent n hn]

end RowsOfKeys

section OneKey

/-- No key makes a formula out of anything else, or the other way round. -/
theorem Framed.isFormula_eq
    {s' : Session}
    (hframed : s.Framed m s')
    {n : NodeId}
    (hn : n < s.document.size) :
    Form.isFormula m s'.document n = Form.isFormula m s.document n := by
  by_cases hroot : n = Document.root
  · rw [hroot, Form.isFormula, Form.isFormula, Document.nodeIs, Document.nodeIs,
      hframed.root.1, hframed.root.2]
  · obtain ⟨e, e', he, he', htouched⟩ := hframed.element n hn hroot
    rw [Form.isFormula_of_tag he, Form.isFormula_of_tag he', htouched.identity.tag]

/-- No key takes a node away. -/
theorem Framed.lt_size
    {s' : Session}
    (hframed : s.Framed m s')
    (hup' : s'.UpToDate m)
    {n : NodeId}
    (hn : n < s.document.size) :
    n < s'.document.size := by
  by_cases hroot : n = Document.root
  · rw [hroot]
    exact hup'.settled.wellFormed.root_lt
  · obtain ⟨_, _, _, he', _⟩ := hframed.element n hn hroot
    exact Document.lt_size_of_element? he'

/-- A key that adds a row puts it into the container. -/
theorem UpToDate.rowPlaced_stroke
    (h : s.UpToDate m)
    (hm : m.InvalidApart)
    (hremove : m.invalidClass ≠ m.removeClass)
    {k : Stroke}
    (hsize : s.document.size < (s.stroke k).document.size) :
    ∃ container, Form.RowPlaced m s.document (s.stroke k).document container := by
  obtain rfl := h.markup
  obtain ⟨hmode, hk, container, hcontainer⟩ := (h.size_lt_iff k).mp hsize
  obtain ⟨form, hadd, hplaced⟩ :=
    h.settled.addRow_rowPlaced hm hremove (h.settled.container.trans hcontainer)
  refine ⟨container, ?_⟩
  rw [document, document, hk.form_stroke hmode, hadd]
  exact hplaced

namespace RowsInOrder

variable {s' : Session} (h : RowsInOrder m s.document parent rows)
include h

theorem of_sameLinks
    (hup : s.UpToDate m)
    (hframed : s.Framed m s')
    (hd : s.document.SameLinks s'.document) :
    RowsInOrder m s'.document parent rows := by
  have hgap : Form.beforeFormulas m s'.document parent =
      Form.beforeFormulas m s.document parent := by
    refine Form.beforeFormulas_congr (hd.children parent) fun c hc => hframed.isFormula_eq ?_
    exact Document.lt_size_of_parent? ((hup.settled.wellFormed.mem_children parent c).mp hc)
  refine ⟨hd.size.symm ▸ h.parent_lt, fun n hn => hd.size.symm ▸ h.lt_size n hn, ?_⟩
  rw [hgap, childRows_congr fun n _ => hd.parent? n]
  exact h.sublist

/-- A row that goes out leaves the others in their order. -/
theorem of_rowUnlinked
    (hup : s.UpToDate m)
    (hframed : s.Framed m s')
    {other row : NodeId}
    (hd : s.document.RowUnlinked s'.document other row) :
    RowsInOrder m s'.document parent rows := by
  have hdoc := hup.settled.wellFormed
  have hchildren : s'.document.children parent =
      (s.document.children parent).filter (· != row) := by
    rw [hd.children]
    split
    · rfl
    · rename_i hne
      refine (hdoc.filter_children ?_).symm
      rw [hd.parent_row]
      exact fun heq => hne (Option.some.inj heq).symm
  have hrows : childRows s'.document parent rows =
      (childRows s.document parent rows).filter (· != row) := by
    rw [childRows, childRows, List.filter_filter]
    refine List.filter_congr fun n _ => ?_
    rw [hd.parent?]
    by_cases hn : n = row
    · simp [hn]
    · simp [hn]
  have hformula : ∀ c ∈ (s.document.children parent).filter (· != row),
      (!Form.isFormula m s'.document c) = !Form.isFormula m s.document c := by
    intro c hc
    have hchild := (hdoc.mem_children parent c).mp (List.mem_of_mem_filter hc)
    rw [hframed.isFormula_eq (Document.lt_size_of_parent? hchild)]
  refine ⟨hd.size.symm ▸ h.parent_lt, fun n hn => hd.size.symm ▸ h.lt_size n hn, ?_⟩
  rw [hrows, Form.beforeFormulas, hchildren, (Form.cut_congr hformula).1]
  exact (h.sublist.filter _).trans (Form.filter_takeWhile_sublist _ _ _)

/-- A row that comes in is the last one in front of the formulas. -/
theorem of_rowPlaced
    (hup : s.UpToDate m)
    (hframed : s.Framed m s')
    (hdiv : m.formulaTag ≠ "div")
    {container : NodeId}
    (hd : Form.RowPlaced m s.document s'.document container) :
    RowsInOrder m s'.document parent (rows ++ [s.document.size]) := by
  have hold : childRows s'.document parent rows = childRows s.document parent rows :=
    childRows_congr fun n hn => hd.parent? n (h.lt_size n hn)
  have hformula : ∀ c ∈ s.document.children parent,
      Form.isFormula m s'.document c = Form.isFormula m s.document c := fun c hc =>
    hframed.isFormula_eq
      (Document.lt_size_of_parent? ((hup.settled.wellFormed.mem_children parent c).mp hc))
  have hsize : s.document.size < s'.document.size := by
    rw [hd.size]
    exact Nat.lt_add_of_pos_right (by decide)
  refine ⟨Nat.lt_trans h.parent_lt hsize, ?_, ?_⟩
  · intro n hn
    rcases List.mem_append.mp hn with hn | hn
    · exact Nat.lt_trans (h.lt_size n hn) hsize
    · rw [List.mem_singleton.mp hn]
      exact hsize
  · rw [childRows, List.filter_append, ← childRows, hold]
    by_cases hparent : parent = container
    · subst hparent
      rw [hd.beforeFormulas_eq hdiv hformula]
      exact h.sublist.append List.filter_sublist
    · have hnone : [s.document.size].filter
          (fun n => s'.document.parent? n = some parent) = [] := by
        simp [hd.parent_row, Ne.symm hparent]
      rw [hnone, List.append_nil, Form.beforeFormulas_congr
        (hd.children parent h.parent_lt hparent) hformula]
      exact h.sublist

end RowsInOrder

/-- What one key keeps of the order. -/
theorem RowsInOrder.stroke
    (h : RowsInOrder m s.document parent rows)
    (hup : s.UpToDate m)
    (hm : m.InvalidApart)
    (hremove : m.invalidClass ≠ m.removeClass)
    (hdiv : m.formulaTag ≠ "div")
    (k : Stroke) :
    RowsInOrder m (s.stroke k).document parent (rows ++ s.rowsAdded [k]) := by
  have hframed := framed_stroke hup k
  cases hframed.links with
  | same hd =>
      rw [rowsAdded_of_size_eq hd.size, List.append_nil]
      exact h.of_sameLinks hup hframed hd
  | added _ hd =>
      have hsize : s.document.size < (s.stroke k).document.size := by
        rw [hd.size]
        exact Nat.lt_add_of_pos_right (by decide)
      obtain ⟨container, hplaced⟩ := hup.rowPlaced_stroke hm hremove hsize
      rw [rowsAdded_of_size_lt hsize]
      exact h.of_rowPlaced hup hframed hdiv hplaced
  | removed _ _ hd =>
      rw [rowsAdded_of_size_eq hd.size, List.append_nil]
      exact h.of_rowUnlinked hup hframed hd

end OneKey

section AllKeys

/-- What all keys keep of it, with the rows that they have added on the way. -/
theorem RowsInOrder.pressAll
    (h : RowsInOrder m s.document parent rows)
    (hup : s.UpToDate m)
    (hm : m.InvalidApart)
    (hremove : m.invalidClass ≠ m.removeClass)
    (hdiv : m.formulaTag ≠ "div")
    (strokes : List Stroke) :
    RowsInOrder m (s.pressAll strokes).document parent (rows ++ s.rowsAdded strokes) := by
  induction strokes generalizing s rows with
  | nil =>
      rw [rowsAdded, List.append_nil]
      exact h
  | cons k strokes ih =>
      rw [rowsAdded_cons, ← List.append_assoc]
      exact ih (h.stroke hup hm hremove hdiv k) (hup.press k.clipboard k.key k.mods)

/-- Formulas are found behind all the rows that are in front of them. -/
theorem RowsInOrder.sublist_formula
    (h : RowsInOrder m s.document parent rows)
    {f : NodeId}
    (hf : f ∈ s.document.children parent)
    (hformula : Form.isFormula m s.document f = true) :
    (childRows s.document parent rows ++ [f]).Sublist (s.document.children parent) := by
  rw [← Form.beforeFormulas_append m, List.mem_append] at hf
  rw [← Form.beforeFormulas_append m]
  refine h.sublist.append (List.singleton_sublist.mpr (hf.resolve_left fun hbefore => ?_))
  have hnot := List.mem_takeWhile_imp hbefore
  rw [hformula] at hnot
  cases hnot

/-- The kind of a node is the same after all keys. -/
theorem UpToDate.isFormula_pressAll
    (h : s.UpToDate m)
    {n : NodeId}
    (hn : n < s.document.size)
    (strokes : List Stroke) :
    Form.isFormula m (s.pressAll strokes).document n = Form.isFormula m s.document n := by
  have hkept : n < (s.pressAll strokes).document.size ∧
      Form.isFormula m (s.pressAll strokes).document n = Form.isFormula m s.document n :=
    h.pressAll_induction (P := fun t => n < t.document.size ∧
      Form.isFormula m t.document n = Form.isFormula m s.document n) ⟨hn, rfl⟩
      fun t hup ht k _ =>
        have hframed := framed_stroke hup k
        ⟨hframed.lt_size (hup.press k.clipboard k.key k.mods) ht.1,
          (hframed.isFormula_eq ht.1).trans ht.2⟩
  exact hkept.2

/-- After all keys, the rows that they have added stand in their order, in front of every
formula that was a child and has stayed one. -/
theorem UpToDate.sublist_childRows_pressAll
    (h : s.UpToDate m)
    (hm : m.InvalidApart)
    (hremove : m.invalidClass ≠ m.removeClass)
    (hdiv : m.formulaTag ≠ "div")
    (hparent : parent < s.document.size)
    (strokes : List Stroke) :
    let d := (s.pressAll strokes).document
    let rows := childRows d parent (s.rowsAdded strokes)
    rows.Sublist (d.children parent) ∧
      ∀ f ∈ s.document.children parent, Form.isFormula m s.document f = true →
        f ∈ d.children parent → (rows ++ [f]).Sublist (d.children parent) := by
  intro d rows
  have hstart : RowsInOrder m s.document parent [] := ⟨hparent, by simp, List.nil_sublist _⟩
  have hreached := hstart.pressAll h hm hremove hdiv strokes
  refine ⟨?_, fun f hf hformula hkept => hreached.sublist_formula hkept ?_⟩
  · rw [← Form.beforeFormulas_append m]
    exact hreached.sublist.trans (List.sublist_append_left _ _)
  · have hlt := Document.lt_size_of_parent? ((h.settled.wellFormed.mem_children parent f).mp hf)
    rw [h.isFormula_pressAll hlt, hformula]

/--
Every page opens, and whatever keys have been pressed on a page with a container, adding a
row succeeds. The row is empty, with its two cells and its button, and stands in front of
the first formula among the children of the container, or behind all of them; all other
links are as they were. The keys for that do the same. If rows are no formulas then, whatever
keys are pressed next, the rows that they have added and that are still children of the
container stand there in the order in which they were added, and the first formula stands
behind them if it is still there.
-/
theorem rowOrder_pressAll
    (page : Page)
    (m : Markup)
    (hrow : m.invalidClass ≠ m.rowClass)
    (hgrade : m.invalidClass ≠ m.gradeClass)
    (hcredit : m.invalidClass ≠ m.creditClass)
    (hremove : m.invalidClass ≠ m.removeClass)
    (strokes : List Stroke) :
    ∃ opened reached,
      ofPage page m = .ok opened ∧
      opened.pressAll strokes = reached ∧
      ∀ container, reached.form.container = some container →
        (∃ form, reached.form.addRow = (form, .ok (some reached.document.size)) ∧
          Form.RowPlaced m reached.document form.document container ∧
          ∀ k : Stroke, reached.mode = .normal → reached.AddsRow k.key k.mods →
            (reached.stroke k).form = form ∧ reached.rowsAdded [k] = [reached.document.size]) ∧
        (m.formulaTag ≠ "div" → ∀ later,
          let d := (reached.pressAll later).document
          let rows := childRows d container (reached.rowsAdded later)
          rows.Sublist (d.children container) ∧
            ∀ f, (reached.document.children container).find?
                (Form.isFormula m reached.document) = some f →
              f ∈ d.children container → (rows ++ [f]).Sublist (d.children container)) := by
  have hm : m.InvalidApart := ⟨hrow, hgrade, hcredit⟩
  obtain ⟨opened, hopened, hfirst⟩ := ofPage_spec page m
  have hup := hfirst.pressAll strokes
  refine ⟨opened, _, hopened, rfl, fun container hcontainer => ⟨?_, ?_⟩⟩
  · obtain rfl := hup.markup
    obtain ⟨form, hadd, hplaced⟩ := hup.settled.addRow_rowPlaced hm hremove hcontainer
    refine ⟨form, hadd, hplaced, fun k hmode hk => ⟨?_, rowsAdded_of_size_lt ?_⟩⟩
    · rw [hk.form_stroke hmode, hadd]
    · exact (hup.size_lt_iff k).mpr
        ⟨hmode, hk, container, hup.settled.container.symm.trans hcontainer⟩
  · intro hdiv later
    obtain ⟨hrows, hbehind⟩ := hup.sublist_childRows_pressAll hm hremove hdiv
      (hup.settled.container_lt hcontainer) later
    exact ⟨hrows, fun f hf => hbehind f (List.mem_of_find?_eq_some hf) (List.find?_some hf)⟩

/-- A page with an average in a paragraph and one behind it. -/
def twoDeepAverages : Page where
  title := "Grades"
  body :=
    .cons { tag := "div", id := some "gpa-container" }
      (.cons { tag := "p" }
        (.cons { tag := "formula", attrs := [("evaluator", "calculateGPA")] } .nil .nil)
        (.cons { tag := "formula", attrs := [("evaluator", "calculateGPA")] } .nil .nil))
      .nil

/-- Three rows are added to this page, in front of the second average, and the one in the
middle is taken out. -/
theorem rowOrder_pressAll_twoDeepAverages :
    ({} : Markup).invalidClass ≠ ({} : Markup).rowClass ∧
    ({} : Markup).invalidClass ≠ ({} : Markup).gradeClass ∧
    ({} : Markup).invalidClass ≠ ({} : Markup).creditClass ∧
    ({} : Markup).invalidClass ≠ ({} : Markup).removeClass ∧
    ({} : Markup).formulaTag ≠ "div" ∧
    ∃ opened form,
      ofPage twoDeepAverages {} = .ok opened ∧
      opened.form.addRow = (form, .ok (some 5)) ∧
      form.document.children 1 = [2, 5, 4] ∧
      ∃ reached,
        opened.pressAll [{ key := .char 'a' }, { key := .char 'a' }, { key := .char 'a' },
          { key := .backTab }, { key := .char 'd' }] = reached ∧
        reached.document.children 1 = [2, 5, 13, 4] ∧
        [5, 13, 4].Sublist (reached.document.children 1) := by
  refine ⟨by decide, by decide, by decide, by decide, by decide, ?_⟩
  obtain ⟨opened, first, hopened, hfirst, hadds⟩ :=
    rowOrder_pressAll twoDeepAverages {} (by decide) (by decide) (by decide) (by decide) []
  obtain rfl : opened = first := hfirst
  have hfacts : (ofPage twoDeepAverages {}).map (fun s =>
      let strokes : List Stroke := [{ key := .char 'a' }, { key := .char 'a' },
        { key := .char 'a' }, { key := .backTab }, { key := .char 'd' }]
      let d := (s.pressAll strokes).document
      decide ((s.form.container = some 1 ∧ s.document.size = 5 ∧
          Form.beforeFormulas {} s.document 1 = [2] ∧
          Form.fromFormulas {} s.document 1 = [4] ∧
          (s.document.children 1).find? (Form.isFormula {} s.document) = some 4) ∧
        childRows d 1 (s.rowsAdded strokes) = [5, 13] ∧ d.children 1 = [2, 5, 13, 4])) =
          .ok true := by
    decide +kernel
  rw [hopened] at hfacts
  obtain ⟨⟨hcontainer, hsize, hbefore, hfrom, hformula⟩, hrows, hchildren⟩ :=
    of_decide_eq_true (Except.ok.inj hfacts)
  obtain ⟨⟨form, hadd, hplaced, _⟩, horder⟩ := hadds 1 hcontainer
  have hsiblings := hplaced.siblings
  rw [hbefore, hfrom, hsize] at hsiblings
  rw [hsize] at hadd
  refine ⟨opened, form, hopened, hadd, hsiblings, _, rfl, hchildren, ?_⟩
  have hbehind := (horder (by decide) _).2 4 hformula (by rw [hchildren]; decide)
  rw [hrows] at hbehind
  exact hbehind

end AllKeys

end Session
end LiveForms
