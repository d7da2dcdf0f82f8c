import LiveForms.Proofs.Session.Focus

/-!
# Live forms: which averages an added row takes part in

A row goes into the container of the page, among its children. An average goes through the
rows below the parent of its formula. The two are the same node if the formula is a child of
the container. A formula that lies deeper has a parent of its own below the container, and
no row that is added comes to lie there: neither at once nor after any keys.

A row in the container stays what it was made, with the cells for its grade and its credit
in front. Values are written into these cells, and what the average reads is written there.

Main definitions:

* `Formula.Visits`: an average goes through a row.
* `Session.RowStands`: what an added row is, until and after it is removed.
* `Session.RowCounts`: which averages it takes part in, and with what.

Main statements:

* `Session.RowStands.stroke`, `Session.RowStands.pressAll`: one key, and all keys.
* `Session.addedRow_pressAll`: every row that is added, after all keys.
-/

namespace LiveForms

/-- The classes by which a page tells its elements apart. -/
def Markup.classNames (m : Markup) : List String :=
  [m.rowClass, m.gradeClass, m.creditClass, m.addClass, m.removeClass, m.invalidClass]

/-- The classes of a new row and of the nodes inside it. -/
structure Markup.CellsApart (m : Markup) : Prop where
  row_grade : m.rowClass ≠ m.gradeClass
  row_credit : m.rowClass ≠ m.creditClass
  row_remove : m.rowClass ≠ m.removeClass
  row_invalid : m.rowClass ≠ m.invalidClass
  grade_credit : m.gradeClass ≠ m.creditClass
  grade_invalid : m.gradeClass ≠ m.invalidClass
  credit_invalid : m.creditClass ≠ m.invalidClass

theorem Markup.cellsApart
    {m : Markup}
    (hm : m.classNames.Nodup) :
    m.CellsApart := by
  simp only [classNames, List.nodup_cons, List.mem_cons, not_or] at hm
  obtain ⟨⟨hgrade, hcredit, _, hremove, hinvalid, _⟩, ⟨hcredit', _, _, hinvalid', _⟩,
    ⟨_, _, hinvalid'', _⟩, _⟩ := hm
  exact ⟨hgrade, hcredit, hremove, hinvalid, hcredit', hinvalid', hinvalid''⟩

/-- The average of the formula `f` goes through a row. -/
def Formula.Visits (m : Markup) (d : Document) (f row : NodeId) : Prop :=
  ∃ p, d.parent? f = some p ∧ row ∈ d.withClass p m.rowClass

/-- The element of a new row and those inside it. -/
def Form.rowElements (m : Markup) : List Element :=
  rowElement m :: rowContent m

/-- What holds whatever was written and shown holds in particular for some of it. -/
theorem Element.Touched.weaken
    {m : Markup} {written shown : Prop} {e e' : Element}
    (h : e.Touched m written shown e') :
    e.Touched m True True e' :=
  ⟨h.identity, fun _ => trivial, fun _ => trivial, fun _ => trivial, h.hasClass⟩

namespace Session

/--
The node `row` was put into `container` as a new row. It is still there or was taken out, and
the nodes behind it are still its cells and its button; what they hold and show may be new.
-/
structure RowStands (m : Markup) (d : Document) (container row : NodeId) : Prop where
  parent : d.parent? row = some container ∨ d.parent? row = none
  children : d.children row = [row + 1, row + 2, row + 3]
  leaves : ∀ n ∈ d.children row, d.children n = []
  element : ∀ k e, (Form.rowElements m)[k]? = some e →
    ∃ e', d.element? (row + k) = some e' ∧ e.Touched m True True e'

/--
A row that was added to `container`: an average inside the container goes through it exactly
if its formula is a child of the container and the row was not taken out. Its grade and its
credit are what its two cells hold.
-/
structure RowCounts (m : Markup) (d : Document) (container row : NodeId) : Prop where
  visits_iff : ∀ f, d.Above container f →
    (Formula.Visits m d f row ↔
      d.parent? f = some container ∧ d.parent? row = some container)
  grade : Formula.cell? d row m.gradeClass = (d.value? (row + 1)).bind Formula.readCell
  credit : Formula.cell? d row m.creditClass = (d.value? (row + 2)).bind Formula.readCell

variable {m : Markup} {d d' : Document} {container row : NodeId}

section Adding

theorem mem_behind
    {row n : Nat} :
    n ∈ [row + 1, row + 2, row + 3] ↔ row < n ∧ n < row + 4 := by
  simp only [List.mem_cons, List.not_mem_nil, or_false]
  omega

/-- Nothing lies below the nodes inside a row that was added. -/
theorem leaves_of_rowAdded
    {before after : List NodeId}
    (h : d.WellFormed)
    (hcontainer : container < d.size)
    (hd : Form.RowAdded m d d' container before after)
    {n : NodeId}
    (hn : n ∈ d'.children d.size) :
    d'.children n = [] := by
  have h' := h.steps hd.grown.steps
  rw [hd.row.children, mem_behind] at hn
  rw [List.eq_nil_iff_forall_not_mem]
  intro c hc
  have hparent := (h'.mem_children n c).mp hc
  have hlt := Document.lt_size_of_parent? hparent
  rw [hd.size] at hlt
  rcases Nat.lt_trichotomy c d.size with hold | rfl | hinside
  · rw [hd.grown.parent? c hold] at hparent
    exact Nat.lt_asymm hn.1 (h.parent_lt c n hparent)
  · rw [hd.parent_row, Option.some.injEq] at hparent
    exact Nat.lt_asymm hn.1 (hparent ▸ hcontainer)
  · have hchild : c ∈ d'.children d.size := by
      rw [hd.row.children]
      exact mem_behind.mpr ⟨hinside, hlt⟩
    rw [(h'.mem_children _ c).mp hchild, Option.some.injEq] at hparent
    exact Nat.ne_of_lt hn.1 hparent

theorem rowStands_of_rowAdded
    {before after : List NodeId}
    (h : d.WellFormed)
    (hcontainer : container < d.size)
    (hd : Form.RowAdded m d d' container before after) :
    RowStands m d' container d.size where
  parent := .inl hd.parent_row
  children := hd.row.children
  leaves _ hn := leaves_of_rowAdded h hcontainer hd hn
  element k e hk := by
    cases k with
    | zero =>
        cases hk
        exact ⟨_, hd.row.element, .refl _⟩
    | succ k =>
        have hinside := hd.row.inside k e hk
        rw [Nat.add_assoc, Nat.add_comm 1 k] at hinside
        exact ⟨e, hinside, .refl e⟩

theorem cell?_eq_bind
    {name : String} {n : NodeId}
    (hn : d.firstWithClass row name = some n) :
    Formula.cell? d row name = (d.value? n).bind Formula.readCell := by
  simp only [Formula.cell?, hn]
  cases d.value? n <;> rfl

end Adding

namespace RowStands

section Nodes

variable (h : RowStands m d container row)
include h

/-- The row stands as long as the lists stay that make it a row. -/
theorem of_children
    (hparent : d'.parent? row = some container ∨ d'.parent? row = none)
    (hchildren : ∀ n, n = row ∨ n ∈ d.children row → d'.children n = d.children n)
    (helement : ∀ n e, d.element? n = some e →
      ∃ e', d'.element? n = some e' ∧ e.Touched m True True e') :
    RowStands m d' container row where
  parent := hparent
  children := by
    rw [hchildren row (.inl rfl), h.children]
  leaves n hn := by
    rw [hchildren row (.inl rfl)] at hn
    rw [hchildren n (.inr hn), h.leaves n hn]
  element k e hk := by
    obtain ⟨e', he', htouched⟩ := h.element k e hk
    obtain ⟨e'', he'', htouched'⟩ := helement _ e' he'
    exact ⟨e'', he'', htouched.trans htouched'⟩

/-- A recomputation leaves the row as it is. -/
theorem of_quiet
    (hquiet : d'.quiet m.invalidClass = d.quiet m.invalidClass) :
    RowStands m d' container row := by
  refine h.of_children ?_ (fun n _ => Document.children_of_quiet hquiet n) ?_
  · rw [Document.parent?_of_quiet hquiet]
    exact h.parent
  · intro n e he
    obtain ⟨e', he', hsame⟩ := Document.element?_of_quiet hquiet he
    exact ⟨e', he', .of_quiet hsame trivial⟩

/-- The row and the nodes inside it have elements without ids. -/
theorem element_of_node
    {n : NodeId}
    (hn : n = row ∨ n ∈ d.children row) :
    ∃ e, d.element? n = some e ∧ e.id = none := by
  have hle : row ≤ n ∧ n < row + 4 := by
    rcases hn with rfl | hn
    · exact ⟨Nat.le_refl _, Nat.lt_add_of_pos_right (by decide)⟩
    · rw [h.children, mem_behind] at hn
      exact ⟨Nat.le_of_lt hn.1, hn.2⟩
  obtain ⟨k, rfl⟩ := Nat.exists_eq_add_of_le hle.1
  have hk : k < (Form.rowElements m).length := Nat.lt_of_add_lt_add_left hle.2
  obtain ⟨e', he', htouched⟩ := h.element k _ (List.getElem?_eq_getElem hk)
  have hid : ∀ e ∈ Form.rowElements m, e.id = none := by
    simp [Form.rowElements, Form.rowElement, Form.rowContent]
  exact ⟨e', he', htouched.identity.id.trans (hid _ (List.getElem_mem hk))⟩

theorem hasClass_eq
    {k : Nat} {e : Element} {name : String}
    (hk : (Form.rowElements m)[k]? = some e)
    (hname : name ≠ m.invalidClass) :
    d.hasClass (row + k) name = e.hasClass name := by
  obtain ⟨e', he', htouched⟩ := h.element k e hk
  rw [Document.hasClass, Document.nodeIs, he', Option.any_some, htouched.hasClass name hname]

variable (hm : m.CellsApart)
include hm

theorem hasClass_row :
    d.hasClass row m.rowClass = true := by
  have hclass := h.hasClass_eq (k := 0) rfl hm.row_invalid
  rw [Nat.add_zero] at hclass
  rw [hclass]
  simp [Form.rowElement, Element.hasClass]

/-- No node inside a row is a row. -/
theorem hasClass_inside
    {n : NodeId}
    (hn : n ∈ d.children row) :
    d.hasClass n m.rowClass = false := by
  rw [h.children] at hn
  simp only [List.mem_cons, List.not_mem_nil, or_false] at hn
  rcases hn with rfl | rfl | rfl
  · rw [h.hasClass_eq (k := 1) rfl hm.row_invalid]
    simp [Element.hasClass, hm.row_grade]
  · rw [h.hasClass_eq (k := 2) rfl hm.row_invalid]
    simp [Element.hasClass, hm.row_credit]
  · rw [h.hasClass_eq (k := 3) rfl hm.row_invalid]
    simp [Element.hasClass, hm.row_remove]

omit hm in
theorem descendants_eq
    (hd : d.WellFormed) :
    d.descendants row = [row + 1, row + 2, row + 3] := by
  have hleaf : ∀ n ∈ d.children row, n :: d.descendants n = [n] := by
    intro n hn
    rw [hd.descendants_eq, h.leaves n hn]
    rfl
  rw [hd.descendants_eq, List.flatMap_congr hleaf, h.children]
  rfl

theorem firstWithClass_grade
    (hd : d.WellFormed) :
    d.firstWithClass row m.gradeClass = some (row + 1) := by
  have hgrade : d.hasClass (row + 1) m.gradeClass = true := by
    rw [h.hasClass_eq (k := 1) rfl hm.grade_invalid]
    simp [Element.hasClass]
  rw [Document.firstWithClass, Document.findFirst, Document.nodeIs_hasClass,
    h.descendants_eq hd]
  simp [hgrade]

theorem firstWithClass_credit
    (hd : d.WellFormed) :
    d.firstWithClass row m.creditClass = some (row + 2) := by
  have hgrade : d.hasClass (row + 1) m.creditClass = false := by
    rw [h.hasClass_eq (k := 1) rfl hm.credit_invalid]
    simp [Element.hasClass, hm.grade_credit.symm]
  have hcredit : d.hasClass (row + 2) m.creditClass = true := by
    rw [h.hasClass_eq (k := 2) rfl hm.credit_invalid]
    simp [Element.hasClass]
  rw [Document.firstWithClass, Document.findFirst, Document.nodeIs_hasClass,
    h.descendants_eq hd]
  simp [hgrade, hcredit]

/-- Below a node that lies in the container there is no row from the container. -/
theorem visits_iff
    (hd : d.WellFormed)
    {f : NodeId}
    (hf : d.Above container f) :
    Formula.Visits m d f row ↔
      d.parent? f = some container ∧ d.parent? row = some container := by
  have hmem : ∀ p, row ∈ d.withClass p m.rowClass ↔ d.Above p row := by
    intro p
    rw [Document.withClass, Document.findAll, List.mem_filter, hd.mem_descendants_iff]
    exact and_iff_left (h.hasClass_row hm)
  simp only [Formula.Visits, hmem]
  constructor
  · rintro ⟨p, hp, habove⟩
    have hparent : d.parent? row = some container := by
      refine h.parent.resolve_right fun hnone => ?_
      exact Document.not_above_of_parent?_none hnone habove
    refine ⟨?_, hparent⟩
    rcases (Document.above_iff_of_parent? hparent).mp habove with rfl | hover
    · exact hp
    · rcases (Document.above_iff_of_parent? hp).mp hf with rfl | hunder
      · exact hp
      · exact absurd (hover.trans hunder) (hd.acyclic p)
  · rintro ⟨hp, hparent⟩
    exact ⟨container, hp, Document.above_of_parent? hparent⟩

/-- What a row that was added means for the averages. -/
theorem counts
    (hd : d.WellFormed) :
    RowCounts m d container row where
  visits_iff _ hf := h.visits_iff hm hd hf
  grade := cell?_eq_bind (h.firstWithClass_grade hm hd)
  credit := cell?_eq_bind (h.firstWithClass_credit hm hd)

end Nodes

section Key

variable {s s' : Session} (h : RowStands m s.document container row) (hup : s.UpToDate m)
include h hup

/-- The container has an id, and the nodes of the row have none. -/
theorem ne_of_byId
    {n other : NodeId}
    (hn : n = row ∨ n ∈ s.document.children row)
    (hother : s.document.byId m.gpaContainerId = some other) :
    n ≠ other := by
  rintro rfl
  have hid := (hup.settled.firstWithId_container
    (hup.settled.container.trans (hup.markup ▸ hother))).idOf
  obtain ⟨e, he, hnone⟩ := h.element_of_node hn
  rw [Document.idOf, ← document, he, Option.bind_some, hnone] at hid
  cases hid

/-- A new row becomes a child of the container, and not of a row or a node inside one. -/
theorem of_rowLinked
    {other : NodeId} {before after : List NodeId}
    (hother : s.document.byId m.gpaContainerId = some other)
    (hd : s.document.RowLinked m s'.document other before after)
    (helement : ∀ n e, s.document.element? n = some e →
      ∃ e', s'.document.element? n = some e' ∧ e.Touched m True True e') :
    RowStands m s'.document container row := by
  have hlt : ∀ n, n = row ∨ n ∈ s.document.children row → n < s.document.size := by
    intro n hn
    obtain ⟨_, he, _⟩ := h.element_of_node hn
    exact Document.lt_size_of_element? he
  refine h.of_children ?_ ?_ helement
  · rw [hd.parent? row (hlt row (.inl rfl))]
    exact h.parent
  · intro n hn
    rw [hd.children n (hlt n hn), if_neg (h.ne_of_byId hup hn hother)]

omit hup in
/-- What is taken out is a row, and the nodes inside this one are not. -/
theorem of_rowUnlinked
    {parent removed : NodeId}
    (hm : m.CellsApart)
    (hremoved : s.document.hasClass removed m.rowClass = true)
    (hd : s.document.RowUnlinked s'.document parent removed)
    (helement : ∀ n e, s.document.element? n = some e →
      ∃ e', s'.document.element? n = some e' ∧ e.Touched m True True e') :
    RowStands m s'.document container row := by
  have hinside : ∀ n ∈ s.document.children row, n ≠ removed := by
    rintro n hn rfl
    rw [h.hasClass_inside hm hn] at hremoved
    cases hremoved
  refine h.of_children ?_ ?_ helement
  · rw [hd.parent?]
    split
    · exact .inr rfl
    · exact h.parent
  · rintro n hn
    have hkept : (s.document.children n).filter (· != removed) = s.document.children n := by
      rw [List.filter_eq_self]
      rcases hn with rfl | hn
      · intro c hc
        exact bne_iff_ne.mpr (hinside c hc)
      · rw [h.leaves n hn]
        exact fun c hc => absurd hc List.not_mem_nil
    rw [hd.children, hkept, ite_self]

/-- A key leaves a row that was added in its place, or takes it out as a whole. -/
theorem framed
    (hm : m.CellsApart)
    (hframed : s.Framed m s') :
    RowStands m s'.document container row := by
  have helement : ∀ n e, s.document.element? n = some e →
      ∃ e', s'.document.element? n = some e' ∧ e.Touched m True True e' := by
    intro n e he
    obtain ⟨_, e', he', hd', htouched⟩ :=
      hframed.element n (Document.lt_size_of_element? he)
        (hup.settled.wellFormed.ne_root_of_element? he)
    obtain rfl := Option.some.inj (he.symm.trans he')
    exact ⟨e', hd', htouched.weaken⟩
  cases hframed.links with
  | same hd =>
      refine h.of_children ?_ (fun n _ => hd.children n) helement
      rw [hd.parent?]
      exact h.parent
  | added hother hd => exact h.of_rowLinked hup hother hd helement
  | removed _ hrow hd => exact h.of_rowUnlinked hm hrow.hasClass hd helement

theorem stroke
    (hm : m.CellsApart)
    (k : Stroke) :
    RowStands m (s.stroke k).document container row :=
  h.framed hup hm (framed_stroke hup k)

theorem pressAll
    (hm : m.CellsApart)
    (strokes : List Stroke) :
    RowStands m (s.pressAll strokes).document container row :=
  hup.pressAll_induction (P := fun t => RowStands m t.document container row) h
    fun _ hup h k _ => h.stroke hup hm k

end Key

end RowStands

/-- On a page with a container, adding a row succeeds and moves nothing inside the container. -/
theorem addRow_rowStands
    {s : Session}
    (hup : s.UpToDate m)
    (hcontainer : s.document.byId m.gpaContainerId = some container) :
    ∃ form, s.form.addRow = (form, .ok (some s.document.size)) ∧
      form.document.WellFormed ∧
      form.document.parent? s.document.size = some container ∧
      RowStands m form.document container s.document.size ∧
      ∀ f, s.document.Above container f →
        form.document.Above container f ∧ form.document.parent? f = s.document.parent? f := by
  obtain rfl := hup.markup
  have hcached := hup.settled.container.trans hcontainer
  have hdoc := hup.settled.wellFormed
  obtain ⟨_, _, placed, shown, hadded, hdone, hadd⟩ := hup.settled.addRow_eq hcached
  have hparent : ∀ n, shown.parent? n = placed.parent? n := Document.parent?_of_quiet hdone.quiet
  refine ⟨_, hadd, (hdoc.steps hadded.grown.steps).steps hdone.steps, ?_, ?_, ?_⟩
  · exact (hparent _).trans hadded.parent_row
  · exact (rowStands_of_rowAdded hdoc (hup.settled.container_lt hcached) hadded).of_quiet
      hdone.quiet
  · intro f hf
    obtain ⟨_, hp, _⟩ := Document.above_iff.mp hf
    exact ⟨(Document.above_congr hparent).mpr (hadded.grown.above hf),
      (hparent f).trans (hadded.grown.parent? f (Document.lt_size_of_parent? hp))⟩

/--
Every page opens. Whatever keys have been pressed on a page with a container, adding a row
succeeds, and then an average inside the container goes through the new row if and only if
its formula is a child of the container. If it was a key that added the row, the same holds
after all further keys as long as the row is not taken out, and the average takes as its
grade and its credit what its two cells hold. An average of a formula that lies deeper never
goes through it.
-/
theorem addedRow_pressAll
    (page : Page)
    (m : Markup)
    (hclasses : m.classNames.Nodup)
    (strokes : List Stroke) :
    ∃ opened reached,
      ofPage page m = .ok opened ∧
      opened.pressAll strokes = reached ∧
      ∀ container, reached.document.byId m.gpaContainerId = some container →
        ∃ form, reached.form.addRow = (form, .ok (some reached.document.size)) ∧
          form.document.parent? reached.document.size = some container ∧
          (∀ f, reached.document.Above container f →
            (Formula.Visits m form.document f reached.document.size ↔
              reached.document.parent? f = some container)) ∧
          ∀ k : Stroke, reached.mode = .normal → reached.AddsRow k.key k.mods →
            (reached.stroke k).form = form ∧
            ∀ later, RowCounts m ((reached.stroke k).pressAll later).document container
              reached.document.size := by
  obtain ⟨opened, hopened, hfirst⟩ := ofPage_spec page m
  have hup := hfirst.pressAll strokes
  have hm := Markup.cellsApart hclasses
  refine ⟨opened, _, hopened, rfl, ?_⟩
  generalize opened.pressAll strokes = s at hup
  intro container hcontainer
  obtain ⟨form, hadd, hwell, hplaced, hstands, hinside⟩ := addRow_rowStands hup hcontainer
  refine ⟨form, hadd, hplaced, ?_, ?_⟩
  · intro f hf
    obtain ⟨hunder, hparent⟩ := hinside f hf
    rw [hstands.visits_iff hm hwell hunder, hparent, and_iff_left hplaced]
  · intro k hmode hk
    have hform : (s.stroke k).form = form := by
      rw [hk.form_stroke hmode, hadd]
    refine ⟨hform, fun later => ?_⟩
    have hup' : (s.stroke k).UpToDate m := hup.press k.clipboard k.key k.mods
    have hstroke : RowStands m (s.stroke k).document container s.document.size := by
      rw [document, hform]
      exact hstands
    exact (hstroke.pressAll hup' hm later).counts hm (hup'.pressAll later).settled.wellFormed

/-- A page with its average in a paragraph inside the container. -/
def wrappedAverage : Page where
  title := "Grades"
  body :=
    .cons { tag := "div", id := some "gpa-container" }
      (.cons { tag := "p" }
        (.cons { tag := "formula", attrs := [("evaluator", "calculateGPA")] } .nil .nil) .nil)
      .nil

/-- The row that is added to this page is filled in, and the average is still that of no
rows. -/
theorem addedRow_pressAll_wrappedAverage :
    ({} : Markup).classNames.Nodup ∧
    ∃ opened form reached,
      ofPage wrappedAverage {} = .ok opened ∧
      opened.document.byId "gpa-container" = some 1 ∧
      opened.document.Above 1 3 ∧
      opened.form.addRow = (form, .ok (some 4)) ∧
      ¬ Formula.Visits {} form.document 3 4 ∧
      opened.pressAll [{ key := .char 'a' }, { key := .char '7' }, { key := .tab },
        { key := .char '2' }] = reached ∧
      reached.document.value? 5 = some "7" ∧
      reached.document.value? 6 = some "2" ∧
      ¬ Formula.Visits {} reached.document 3 4 ∧
      reached.document.text? 3 = some "0" := by
  refine ⟨by decide, ?_⟩
  obtain ⟨opened, first, hopened, hfirst, hadds⟩ :=
    addedRow_pressAll wrappedAverage {} (by decide) []
  obtain rfl : opened = first := hfirst
  have hfacts : (ofPage wrappedAverage {}).map (fun s =>
      let d := s.document
      let d' := (s.pressAll [{ key := .char 'a' }, { key := .char '7' }, { key := .tab },
        { key := .char '2' }]).document
      decide ((d.byId "gpa-container" = some 1 ∧ d.parent? 3 = some 2 ∧ d.parent? 2 = some 1 ∧
          d.size = 4 ∧ s.mode = .normal) ∧
        d'.parent? 3 = some 2 ∧ d'.parent? 2 = some 1 ∧ d'.value? 5 = some "7" ∧
          d'.value? 6 = some "2" ∧ d'.text? 3 = some "0")) = .ok true := by
    decide +kernel
  rw [hopened] at hfacts
  obtain ⟨⟨hcontainer, hformula, hparagraph, hsize, hmode⟩,
      hformula', hparagraph', hgrade, hcredit, htext⟩ :=
    of_decide_eq_true (Except.ok.inj hfacts)
  obtain ⟨form, hadd, _, hvisits, hkeys⟩ := hadds 1 hcontainer
  have hcounts := (hkeys { key := .char 'a' } hmode (.letter {})).2
    [{ key := .char '7' }, { key := .tab }, { key := .char '2' }]
  rw [hsize] at hadd hvisits hcounts
  have hinside : opened.document.Above 1 3 :=
    (Document.above_of_parent? hparagraph).trans (Document.above_of_parent? hformula)
  have hinside' := (Document.above_of_parent? hparagraph').trans
    (Document.above_of_parent? hformula')
  refine ⟨opened, form, _, hopened, hcontainer, hinside, hadd, ?_, rfl, hgrade, hcredit, ?_, htext⟩
  · rw [hvisits 3 hinside, hformula]
    decide
  · intro hvisited
    have hparent := ((hcounts.visits_iff 3 hinside').mp hvisited).1
    have hne := hformula'.symm.trans hparent
    cases hne

end Session
end LiveForms
