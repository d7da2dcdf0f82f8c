import LiveForms.Proofs.Document.Apart
import LiveForms.Proofs.Formula.Dependence
import LiveForms.Proofs.Session.AddedRows

/-!
# Live forms: rows that come and go

A row that is added and at once taken out leaves no trace in the tree. In between all
formulas are recomputed with it, and some may have shown something else. But neither what
they showed nor the four nodes that stay apart from the tree are read by any formula, so
the second recomputation shows what was there at the beginning. Only the order of the classes of
a formula may be a new one.

Main definitions:

* `Element.Alike`: elements up to the order of their classes.
* `Form.Restored`: a form as it was, with the nodes of a row apart.

Main statements:

* `Formula.compute_of_grownApart`: no formula reads nodes apart from the tree.
* `Form.Settled.restored_of_removed`: a row is added and taken out.
* `Session.passingRow_pressAll`: this, after any keys on any page.
-/

namespace LiveForms

/-- Two elements differ at most in the order of their classes. -/
structure Element.Alike (e e' : Element) : Prop where
  identity : e.SameIdentity e'
  value : e'.value = e.value
  text : e'.text = e.text
  hasClass : ∀ name, e'.hasClass name = e.hasClass name

/-- The nodes of `form` are in `form'` as they were, and there are the four nodes of a row
apart from the tree. -/
structure Form.Restored (form form' : Form) : Prop where
  markup : form'.markup = form.markup
  formulas : form'.formulas = form.formulas
  container : form'.container = form.container
  byId : ∀ id, form'.document.byId id = form.document.byId id
  parent? : ∀ n, n < form.document.size →
    form'.document.parent? n = form.document.parent? n
  children : ∀ n, n < form.document.size →
    form'.document.children n = form.document.children n
  element? : ∀ n, n < form.document.size →
    Option.Rel Element.Alike (form.document.element? n) (form'.document.element? n)
  size : form'.document.size = form.document.size + 4
  apart : ∀ n, form.document.size ≤ n → n < form.document.size + 4 →
    (∃ e, form'.document.element? n = some e) ∧ form'.document.isAttached n = false

theorem Element.alike_of_quiet
    {invalid : String} {e e' : Element}
    (hquiet : e'.quiet invalid = e.quiet invalid)
    (hshown : (e'.text, e'.hasClass invalid) = (e.text, e.hasClass invalid)) :
    e.Alike e' where
  identity := sameIdentity_of_quiet hquiet
  value := show (e'.quiet invalid).value = (e.quiet invalid).value by rw [hquiet]
  text := congrArg Prod.fst hshown
  hasClass name := by
    by_cases hname : invalid = name
    · subst hname
      exact congrArg Prod.snd hshown
    · rw [← hasClass_quiet hname e', hquiet, hasClass_quiet hname e]

section Alike

variable {d d' : Document} {n : NodeId}
variable (h : Option.Rel Element.Alike (d.element? n) (d'.element? n))
include h

theorem Document.text?_of_alike :
    d'.text? n = d.text? n := by
  rw [text?, text?]
  generalize d.element? n = old, d'.element? n = new at h
  cases h with
  | none => rfl
  | some halike => exact congrArg some halike.text

theorem Document.hasClass_of_alike
    (name : String) :
    d'.hasClass n name = d.hasClass n name := by
  rw [hasClass, hasClass, nodeIs, nodeIs]
  generalize d.element? n = old, d'.element? n = new at h
  cases h with
  | none => rfl
  | some halike => exact halike.hasClass name

end Alike

namespace Document

variable {d d' e e' : Document} {name : String}

theorem element?_map_quiet
    (h : d'.quiet name = d.quiet name)
    (n : NodeId) :
    (d'.element? n).map (Element.quiet name) = (d.element? n).map (Element.quiet name) := by
  rw [← element?_quiet, h, element?_quiet]

/-- Taking a node out keeps the quiet copies equal. -/
theorem quiet_of_removed
    {n : NodeId}
    (h : e.quiet name = d.quiet name)
    (hd : Removed d d' n)
    (he : Removed e e' n) :
    e'.quiet name = d'.quiet name := by
  have hsize : e'.size = d'.size := by
    rw [he.size, hd.size, size_of_quiet h]
  have hchildren : ∀ m, e'.children m = d'.children m := by
    intro m
    rw [he.children, hd.children, children_of_quiet h]
  have helement : ∀ m, (e'.element? m).map (Element.quiet name) =
      (d'.element? m).map (Element.quiet name) := by
    intro m
    rw [he.element?, hd.element?, element?_map_quiet h]
  apply eq_of_reads
  · rw [size_quiet, size_quiet, hsize]
  · intro m
    rw [parent?_quiet, parent?_quiet, he.parent?, hd.parent?, parent?_of_quiet h]
  · intro m
    rw [children_quiet, children_quiet, hchildren]
  · intro m
    rw [element?_quiet, element?_quiet, helement]
  · show e'.ids = d'.ids
    rw [he.ids, hd.ids]
    apply attachedIds_congr hsize hchildren
    intro m
    have hid := congrArg (fun found => found.bind Element.id) (helement m)
    simp only [Option.bind_map] at hid
    exact hid

end Document

/-- Nodes apart from the tree are read by no formula. -/
theorem Formula.compute_of_grownApart
    {m : Markup} {d d' : Document} {f : NodeId}
    (h : d.WellFormed)
    (hids : d.ids = d.attachedIds)
    (hd : d.GrownApart d')
    (hf : f < d.size) :
    compute m d' f = compute m d f := by
  apply compute_eq_of_kind
  · rw [Document.attr?, hd.grown.element? f hf, Document.attr?]
  · exact hd.grown.parent? f hf
  · intro _ p hparent
    have hkept := h.subtreeKept_of_grownApart hd (h.parent_lt f p hparent)
    have hrows : d'.withClass p m.rowClass = d.withClass p m.rowClass :=
      h.findAll_of_subtreeKept hkept _
    rw [hrows]
    apply averageOf_of_kept
    intro row hrow
    exact sameCells_of_subtreeKept h (h.steps hd.grown.steps) hkept
      (h.mem_descendants_iff.mp (List.mem_of_mem_filter (mem_of_mem_reached hrow)))
  · intro _ _ _ name _
    apply field_congr (h.byId_of_grownApart hd hids name)
    intro n hn
    obtain ⟨e, he, _⟩ := Option.bind_eq_some_iff.mp (h.firstWithId_of_byId hids hn).2.idOf
    rw [Document.value?, hd.grown.element? n (Document.lt_size_of_element? he), Document.value?]

namespace Form

namespace RowAdded

variable {m : Markup} {d placed plain : Document} {container : NodeId}
variable {before after : List NodeId}
variable (h : d.WellFormed) (hadded : RowAdded m d placed container before after)
variable (hplain : placed.Removed plain d.size)
include h hadded hplain

/-- Without the row the older nodes are linked as they were. -/
theorem grownApart_of_removed :
    d.GrownApart plain where
  grown := by
    refine ⟨hadded.grown.steps.tail (.removed hplain), hplain.size ▸ hadded.grown.size_le, ?_, ?_⟩
    · intro n hn
      rw [hplain.parent?, if_neg (Nat.ne_of_lt hn), hadded.grown.parent? n hn]
    · intro n hn
      rw [hplain.element?, hadded.grown.element? n hn]
  children n hn := by
    rw [hplain.children, hadded.children n hn]
    split
    · rename_i hcontainer
      subst hcontainer
      rw [List.filter_append, List.filter_cons, bne_self_eq_false, if_neg Bool.false_ne_true,
        ← List.filter_append, ← hadded.siblings, h.filter_children_size]
    · exact h.filter_children_size n

/-- The nodes of the row stay, without a way up to the root. -/
theorem new_of_removed
    {n : Nat}
    (hle : d.size ≤ n)
    (hlt : n < d.size + 4) :
    (∃ e, plain.element? n = some e) ∧ plain.isAttached n = false := by
  have hplaced := h.steps hadded.grown.steps
  have hwell := hplaced.removed hplain
  have hroot : n ≠ Document.root := Nat.ne_of_gt (Nat.lt_of_lt_of_le h.root_lt hle)
  have hparent : plain.parent? d.size = none := by
    rw [hplain.parent?, if_pos rfl]
  refine ⟨hwell.element_of_lt n ?_ hroot, ?_⟩
  · rw [hplain.size, hadded.size]
    exact hlt
  · rw [← Bool.not_eq_true, hwell.isAttached_iff, not_or]
    refine ⟨hroot, ?_⟩
    rcases Nat.eq_or_lt_of_le hle with rfl | hinside
    · exact Document.not_above_of_parent?_none hparent
    · have hmem : n ∈ placed.children d.size := by
        rw [hadded.row.children]
        exact Session.mem_behind.mpr ⟨hinside, hlt⟩
      have hrow : plain.parent? n = some d.size := by
        rw [hplain.parent?, if_neg (Nat.ne_of_gt hinside), (hplaced.mem_children _ n).mp hmem]
      rw [Document.above_iff_of_parent? hrow, not_or]
      exact ⟨Nat.ne_of_lt h.root_lt, Document.not_above_of_parent?_none hparent⟩

end RowAdded

/-- The old formulas are found with the row and without it. -/
theorem withTag_of_grownApart
    {d d' : Document}
    (h : d.WellFormed)
    (hd : d.GrownApart d')
    (tag : String) :
    d'.withTag Document.root tag = d.withTag Document.root tag :=
  h.findAll_of_subtreeKept (h.subtreeKept_of_grownApart hd h.root_lt) _

/-- Of the older nodes the same are formulas of the tree when a document grows. -/
theorem mem_withTag_of_grown_iff
    {d d' : Document} {n : NodeId} {tag : String}
    (h : d.WellFormed)
    (hd : d.Grown d')
    (hn : n < d.size) :
    n ∈ d'.withTag Document.root tag ↔ n ∈ d.withTag Document.root tag := by
  rw [(h.steps hd.steps).mem_withTag_root_iff, h.mem_withTag_root_iff,
    h.isAttached_of_grown hd hn, hd.element? n hn]

/-- The row of a settled form to which it was added is the nearest row around itself. -/
theorem closestWithClass_of_rowAdded
    {m : Markup} {d placed shown : Document} {container : NodeId} {before after : List NodeId}
    (hm : m.InvalidApart)
    (hadded : RowAdded m d placed container before after)
    (hquiet : shown.quiet m.invalidClass = placed.quiet m.invalidClass) :
    shown.closestWithClass d.size m.rowClass = some d.size := by
  obtain ⟨e, he, hsame⟩ := Document.element?_of_quiet hquiet hadded.row.element
  have hclass : shown.nodeIs (fun e => e.hasClass m.rowClass) d.size = true := by
    rw [Document.nodeIs, he, Option.any_some, ← Element.hasClass_quiet hm.row, hsame,
      Element.hasClass_quiet hm.row]
    simp [rowElement, Element.hasClass]
  rw [Document.closestWithClass, List.find?_cons_of_pos hclass]

namespace Settled

variable {form : Form} (h : form.Settled)
include h

/-- Nodes that were formulas show what they showed if they have the same values. -/
theorem alike_of_refreshed
    {changed shown : Document} {formulas : List NodeId} {n : NodeId}
    (hm : form.markup.InvalidApart)
    (hdone : Formula.Refreshed form.markup changed shown formulas)
    (hformulas : n ∈ formulas ↔ n ∈ form.formulas)
    (hquiet : (shown.element? n).map (Element.quiet form.markup.invalidClass) =
      (form.document.element? n).map (Element.quiet form.markup.invalidClass))
    (hcompute : n ∈ form.formulas →
      Formula.compute form.markup shown n = Formula.compute form.markup form.document n)
    (hkept : n ∉ form.formulas → changed.element? n = form.document.element? n) :
    Option.Rel Element.Alike (form.document.element? n) (shown.element? n) := by
  by_cases hn : n ∈ form.formulas
  · obtain ⟨e, he, hshown⟩ := Option.map_eq_some_iff.mp (h.shows hm n hn)
    obtain ⟨e', he', hshown'⟩ := Option.map_eq_some_iff.mp (hdone.shows hm n (hformulas.mpr hn))
    rw [he, he', Option.map_some, Option.map_some, Option.some.injEq] at hquiet
    rw [he, he']
    refine .some (Element.alike_of_quiet hquiet ?_)
    rw [hshown, hshown', hcompute hn]
  · rw [hdone.element? n (mt hformulas.mp hn), hkept hn]
    cases form.document.element? n with
    | none => exact .none
    | some e => exact .some ⟨.refl e, rfl, rfl, fun _ => rfl⟩

/-- What is known about the formulas does not change with nodes apart from the tree. -/
theorem locate_of_grownApart
    {plain changed : Document}
    (hapart : form.document.GrownApart plain)
    (hquiet : changed.quiet form.markup.invalidClass = plain.quiet form.markup.invalidClass) :
    changed.withTag Document.root form.markup.formulaTag = form.formulas ∧
      changed.byId form.markup.gpaContainerId = form.container := by
  constructor
  · rw [← Document.withTag_quiet form.markup.invalidClass, hquiet, Document.withTag_quiet,
      withTag_of_grownApart h.wellFormed hapart, h.formulas]
  · rw [← Document.byId_quiet form.markup.invalidClass, hquiet, Document.byId_quiet,
      h.wellFormed.byId_of_grownApart hapart h.ids, h.container]

/-- In between the row is there, and the old nodes that are no formulas do not change. -/
theorem restored_of_removed
    {container : NodeId} {before after : List NodeId} {placed shown removed final : Document}
    (hm : form.markup.InvalidApart)
    (hadded : RowAdded form.markup form.document placed container before after)
    (hdone : Formula.Refreshed form.markup placed shown
      (placed.withTag Document.root form.markup.formulaTag))
    (hremoved : shown.Removed removed form.document.size)
    (hdone' : Formula.Refreshed form.markup removed final
      (removed.withTag Document.root form.markup.formulaTag)) :
    form.Restored ((form.renewed placed shown).renewed removed final) := by
  have hdoc := h.wellFormed
  have hplaced := hdoc.steps hadded.grown.steps
  -- `plain` is what is left of the row without the recomputation in between
  obtain ⟨plain, hremove⟩ := hplaced.remove_of_element? hadded.row.element
  have hplain := (hplaced.remove_spec hremove).2
  have hapart := hadded.grownApart_of_removed hdoc hplain
  have hquiet := Document.quiet_of_removed hdone.quiet hplain hremoved
  have hfinal := hdone'.quiet.trans hquiet
  obtain ⟨hformulas, hcontainer⟩ := h.locate_of_grownApart hapart hquiet
  have hold : ∀ n, n < form.document.size → n ∉ form.formulas →
      removed.element? n = form.document.element? n := by
    intro n hn hnot
    rw [h.formulas, ← mem_withTag_of_grown_iff hdoc hadded.grown hn] at hnot
    rw [hremoved.element?, hdone.element? n hnot, hadded.grown.element? n hn]
  refine ⟨rfl, hformulas, hcontainer, ?_, ?_, ?_, ?_, ?_, ?_⟩
  · intro id
    show final.byId id = form.document.byId id
    rw [← Document.byId_quiet form.markup.invalidClass, hfinal, Document.byId_quiet,
      hdoc.byId_of_grownApart hapart h.ids]
  · intro n hn
    exact (Document.parent?_of_quiet hfinal n).trans (hapart.grown.parent? n hn)
  · intro n hn
    exact (Document.children_of_quiet hfinal n).trans (hapart.children n hn)
  · intro n hn
    apply h.alike_of_refreshed hm hdone' _ _ _ (hold n hn)
    · rw [hformulas]
    · rw [Document.element?_map_quiet hfinal, hapart.grown.element? n hn]
    · intro _
      rw [Formula.compute_congr hm hfinal,
        Formula.compute_of_grownApart hdoc h.ids hapart hn]
  · show final.size = form.document.size + 4
    rw [Document.size_of_quiet hfinal, hplain.size, hadded.size]
  · intro n hle hlt
    obtain ⟨⟨e, he⟩, hdetached⟩ := hadded.new_of_removed hdoc hplain hle hlt
    obtain ⟨e', he', _⟩ := Document.element?_of_quiet hfinal he
    have hwell := ((hplaced.steps hdone.steps).removed hremoved).steps hdone'.steps
    exact ⟨⟨e', he'⟩,
      (Document.isAttached_of_quiet hfinal (hplaced.removed hplain) hwell n).trans hdetached⟩

/-- A row can be added and taken out again, and then the form is as it was. -/
theorem addRow_removeRow
    {container : NodeId}
    (hm : form.markup.InvalidApart)
    (hcontainer : form.container = some container) :
    ∃ added undone,
      form.addRow = (added, .ok (some form.document.size)) ∧
      added.removeRow form.document.size = (undone, .ok (some form.document.size)) ∧
      form.Restored undone := by
  obtain ⟨_, _, placed, shown, hadded, hdone, hadd⟩ := h.addRow_eq hcontainer
  have hsettled := settled_renewed form (h.wellFormed.steps hadded.grown.steps)
    (Document.ids_of_steps h.wellFormed h.ids hadded.grown.steps) hdone
  have hrow : (form.renewed placed shown).document.closestWithClass form.document.size
      form.markup.rowClass = some form.document.size :=
    closestWithClass_of_rowAdded hm hadded hdone.quiet
  obtain ⟨removed, final, hremoved, hdone', hremove⟩ := hsettled.removeRow_eq hrow
  exact ⟨_, _, hadd, hremove, h.restored_of_removed hm hadded hdone hremoved hdone'⟩

end Settled

end Form

namespace Session

/--
Every page opens. Whatever keys have been pressed on a page with a container, a row can be
added and then taken out by its number. After that every node from before has the parent, the
children in their order, the value, the text and the classes that it had, if not always in
the same order; every id is found where it was; the formulas and the container are those
from before; and the four nodes of the row are still there, apart from the tree.
-/
theorem passingRow_pressAll
    (page : Page)
    (m : Markup)
    (hrow : m.invalidClass ≠ m.rowClass)
    (hgrade : m.invalidClass ≠ m.gradeClass)
    (hcredit : m.invalidClass ≠ m.creditClass)
    (strokes : List Stroke) :
    ∃ opened reached,
      ofPage page m = .ok opened ∧
      opened.pressAll strokes = reached ∧
      ∀ container, reached.form.container = some container →
        ∃ added undone,
          reached.form.addRow = (added, .ok (some reached.document.size)) ∧
          added.removeRow reached.document.size = (undone, .ok (some reached.document.size)) ∧
          reached.form.Restored undone := by
  obtain ⟨opened, hopened, hfirst⟩ := ofPage_spec page m
  have hup := hfirst.pressAll strokes
  refine ⟨opened, _, hopened, rfl, ?_⟩
  intro container hcontainer
  exact hup.settled.addRow_removeRow (hup.markup ▸ ⟨hrow, hgrade, hcredit⟩) hcontainer

/-- A page with its container in a row, in front of the cells of this row. -/
def containerInRow : Page where
  title := "Grades"
  body :=
    .cons { tag := "div", classes := ["gpa-row"] }
      (.cons { tag := "div", id := some "gpa-container" } .nil
        (.cons { tag := "input", classes := ["grade"], value := some "1" } .nil
          (.cons { tag := "input", classes := ["credit"], value := some "2" } .nil .nil)))
      (.cons { tag := "formula", attrs := [("evaluator", "calculateGPA")] } .nil .nil)

/-- On this page the cells of the new row are for a moment the first ones of the outer row, and
its average is not that of the grade that was typed in. -/
theorem passingRow_pressAll_containerInRow :
    ({} : Markup).invalidClass ≠ ({} : Markup).rowClass ∧
    ({} : Markup).invalidClass ≠ ({} : Markup).gradeClass ∧
    ({} : Markup).invalidClass ≠ ({} : Markup).creditClass ∧
    ∃ opened reached added undone,
      ofPage containerInRow {} = .ok opened ∧
      opened.pressAll [{ key := .char '2' }] = reached ∧
      reached.form.addRow = (added, .ok (some 6)) ∧
      added.removeRow 6 = (undone, .ok (some 6)) ∧
      reached.document.text? 5 = some "12" ∧
      added.document.text? 5 = some "0" ∧
      undone.document.text? 5 = some "12" ∧
      reached.form.Restored undone := by
  refine ⟨by decide, by decide, by decide, ?_⟩
  obtain ⟨opened, reached, hopened, hreached, hrestored⟩ :=
    passingRow_pressAll containerInRow {} (by decide) (by decide) (by decide)
      [{ key := .char '2' }]
  have hfacts : (ofPage containerInRow {}).map (fun s =>
      let t := s.pressAll [{ key := .char '2' }]
      decide (t.document.size = 6 ∧ t.form.container = some 2 ∧
        t.document.text? 5 = some "12" ∧ t.form.addRow.1.document.text? 5 = some "0")) =
      .ok true := by
    decide +kernel
  rw [hopened] at hfacts
  obtain ⟨hsize, hcontainer, htext, hbetween⟩ := of_decide_eq_true (Except.ok.inj hfacts)
  rw [hreached] at hsize hcontainer htext hbetween
  obtain ⟨added, undone, hadd, hremove, hform⟩ := hrestored 2 hcontainer
  rw [hsize] at hadd hremove
  rw [hadd] at hbetween
  refine ⟨opened, reached, added, undone, hopened, hreached, hadd, hremove, htext, hbetween, ?_,
    hform⟩
  rw [← htext]
  exact Document.text?_of_alike (hform.element? 5 (hsize ▸ (by decide : 5 < 6)))

end Session
end LiveForms
