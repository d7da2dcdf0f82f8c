import LiveForms.Proofs.Document.Search
import LiveForms.Proofs.Formula.Refresh
import LiveForms.Proofs.Formula.Rows

/-!
# Live forms: settled forms

A form is settled if its document is a tree, what it knows about its formulas is what the
document says, and every formula shows its value. The last is asked only where the class
of an invalid formula is apart from those of rows and cells: otherwise what one formula
shows can change the rows of another one. The form of a document is settled, and
every operation on a settled form succeeds and gives a settled form again.

Rows may hold formulas or the container, and both may lie in rows. The proofs do not ask
where they lie: a row that comes or goes is a sequence of steps of the document, and what
is known about the formulas is renewed after it.

Main definitions:

* `Form.Settled`: settled forms.
* `Form.renewed`: the form after a change of its document.

Main statements:

* `Form.attach_spec`: the form of a document is settled.
* `Form.Settled.attach_eq`: attaching anew to the document of a settled form gives this
  form.
* `Form.Settled.addRow_spec`, `Form.Settled.removeRow_spec`, `Form.Settled.click_spec`,
  `Form.Settled.setValue_spec`: the operations succeed.
* `Form.Settled.addRow_places`, `Form.Settled.removeRow_eq`, `Form.Settled.entered_spec`: what
  they make of the document.
-/

namespace LiveForms
namespace Form

/-- The document of a form is a tree, its cache is up to date, and its formulas show
their values. -/
structure Settled (form : Form) : Prop where
  wellFormed : form.document.WellFormed
  ids : form.document.ids = form.document.attachedIds
  formulas : form.formulas = form.document.withTag Document.root form.markup.formulaTag
  container : form.container = form.document.byId form.markup.gpaContainerId
  shows : form.markup.InvalidApart →
    ∀ f ∈ form.formulas, Formula.Shows form.markup form.document f

/-- An operation succeeded and has left a settled form with the same markup. -/
def Succeeds {α : Type} (form : Form) (outcome : Form × Except DocumentError α) : Prop :=
  ∃ form' result, outcome = (form', .ok result) ∧ form'.Settled ∧ form'.markup = form.markup

/-- What becomes of a form when its document is changed into `changed`, and recomputing the
formulas of that makes it `shown`. -/
def renewed (form : Form) (changed shown : Document) : Form :=
  { locate { form with document := changed } with document := shown }

variable (form : Form)

section Recomputing

/-- What is known about the formulas stays true when they are recomputed. -/
theorem settled_of_refreshed
    {d : Document}
    (h : form.document.WellFormed)
    (hids : form.document.ids = form.document.attachedIds)
    (hformulas : form.formulas = form.document.withTag Document.root form.markup.formulaTag)
    (hcontainer : form.container = form.document.byId form.markup.gpaContainerId)
    (hdone : Formula.Refreshed form.markup form.document d form.formulas) :
    Settled { form with document := d } := by
  refine ⟨h.steps hdone.steps, Document.ids_of_steps h hids hdone.steps, ?_, ?_, hdone.shows⟩
  · show form.formulas = d.withTag Document.root form.markup.formulaTag
    rw [← Document.withTag_quiet form.markup.invalidClass d, hdone.quiet,
      Document.withTag_quiet, hformulas]
  · show form.container = d.byId form.markup.gpaContainerId
    rw [← Document.byId_quiet form.markup.invalidClass d, hdone.quiet,
      Document.byId_quiet, hcontainer]

theorem settled_renewed
    {changed shown : Document}
    (h : changed.WellFormed)
    (hids : changed.ids = changed.attachedIds)
    (hdone : Formula.Refreshed form.markup changed shown
      (changed.withTag Document.root form.markup.formulaTag)) :
    (form.renewed changed shown).Settled :=
  settled_of_refreshed (locate { form with document := changed }) h hids rfl rfl hdone

/-- Renewing what is known and recomputing is never refused. -/
theorem locate_update_eq
    (changed : Document) :
    ∃ shown,
      Formula.Refreshed form.markup changed shown
        (changed.withTag Document.root form.markup.formulaTag) ∧
      update (locate { form with document := changed }) = (form.renewed changed shown, none) := by
  have hformulas : ∀ f ∈ changed.withTag Document.root form.markup.formulaTag,
      ∃ e, changed.element? f = some e :=
    fun f hf => Document.element_of_mem_withTag hf
  obtain ⟨shown, hall, hdone⟩ := Formula.refreshAll_spec (m := form.markup) hformulas
  refine ⟨shown, hdone, ?_⟩
  simp only [update, locate, hall, renewed]

theorem settle_eq
    {α : Type}
    (changed : Document)
    (result : α) :
    ∃ shown,
      Formula.Refreshed form.markup changed shown
        (changed.withTag Document.root form.markup.formulaTag) ∧
      settle { form with document := changed } result =
        (form.renewed changed shown, .ok result) := by
  obtain ⟨shown, hdone, hupdate⟩ := locate_update_eq form changed
  exact ⟨shown, hdone, by simp only [settle, hupdate]⟩

/-- The form of a document is settled. -/
theorem attach_spec
    {d : Document} {m : Markup}
    (h : d.WellFormed)
    (hids : d.ids = d.attachedIds) :
    ∃ form, attach d m = (form, none) ∧ form.Settled ∧ form.markup = m := by
  obtain ⟨shown, hdone, hupdate⟩ := locate_update_eq ⟨d, m, [], none⟩ d
  exact ⟨_, hupdate, settled_renewed ⟨d, m, [], none⟩ h hids hdone, rfl⟩

end Recomputing

namespace Settled

variable {form : Form} (h : form.Settled)
include h

theorem element_of_mem_formulas
    {f : NodeId}
    (hf : f ∈ form.formulas) :
    ∃ e, form.document.element? f = some e := by
  rw [h.formulas] at hf
  exact Document.element_of_mem_withTag hf

/-- Attaching anew changes neither the document nor what is known about it. -/
theorem attach_eq
    (hm : form.markup.InvalidApart) :
    attach form.document form.markup = (form, none) := by
  have hlocate :
      locate { document := form.document, markup := form.markup, formulas := [],
               container := none } = form := by
    rw [locate, ← h.formulas, ← h.container]
  rw [attach, hlocate, update, Formula.refreshAll_of_shows (h.shows hm)]

section Operations

theorem succeeds_self
    {α : Type}
    (result : α) :
    form.Succeeds (form, .ok result) :=
  ⟨form, result, rfl, h, rfl⟩

theorem succeeds_renewed
    {α : Type} {changed shown : Document}
    (hchanged : form.document.Steps changed)
    (hdone : Formula.Refreshed form.markup changed shown
      (changed.withTag Document.root form.markup.formulaTag))
    (result : α) :
    form.Succeeds (form.renewed changed shown, .ok result) :=
  ⟨_, result, rfl, settled_renewed form (h.wellFormed.steps hchanged)
    (Document.ids_of_steps h.wellFormed h.ids hchanged) hdone, rfl⟩

/-- What a value that is written into an element makes of the document. -/
theorem entered_spec
    {n : NodeId} {e : Element}
    (hn : form.document.element? n = some e)
    (value : String) :
    ∃ d shown, form.document.setValue n value = .ok d ∧
      form.document.Edited d n (fun e => { e with value := value }) ∧
      update { form with document := d } = ({ form with document := shown }, none) ∧
      Formula.Refreshed form.markup d shown form.formulas := by
  obtain ⟨d, hd⟩ := Document.modifyElement_of_element? (fun e => { e with value := value }) hn
  have hedited := Document.modifyElement_spec hd
  have hformulas : ∀ f ∈ form.formulas, ∃ e, d.element? f = some e := by
    intro f hf
    exact hedited.exists_element (h.element_of_mem_formulas hf)
  obtain ⟨shown, hall, hdone⟩ := Formula.refreshAll_spec (m := form.markup) hformulas
  exact ⟨d, shown, hd, hedited, by simp only [update, hall], hdone⟩

theorem setValue_spec
    {n : NodeId} {e : Element}
    (hn : form.document.element? n = some e)
    (value : String) :
    ∃ d form', form.document.setValue n value = .ok d ∧
      update { form with document := d } = (form', none) ∧ form'.Settled ∧
      form'.markup = form.markup := by
  obtain ⟨d, shown, hd, hedited, hupdate, hdone⟩ := h.entered_spec hn value
  have hsame : ∀ e : Element, e.SameIdentity { e with value := value } :=
    fun _ => ⟨rfl, rfl, rfl, rfl, rfl⟩
  have hstep := Document.Step.edited hedited hsame
  have hformulas : form.formulas = d.withTag Document.root form.markup.formulaTag := by
    rw [Document.withTag_of_edited hedited hsame, h.formulas]
  have hcontainer : form.container = d.byId form.markup.gpaContainerId := by
    rw [Document.byId, hedited.ids, h.container, Document.byId]
  have hsettled := settled_of_refreshed { form with document := d } (h.wellFormed.step hstep)
    (Document.ids_of_step h.wellFormed h.ids hstep) hformulas hcontainer hdone
  exact ⟨d, _, hd, hupdate, hsettled, rfl⟩

/-- The container is in the tree, as the first element with its id. -/
theorem firstWithId_container
    {container : NodeId}
    (hcontainer : form.container = some container) :
    form.document.FirstWithId form.markup.gpaContainerId container := by
  rw [h.container] at hcontainer
  exact (h.wellFormed.firstWithId_of_byId h.ids hcontainer).2

theorem container_lt
    {container : NodeId}
    (hcontainer : form.container = some container) :
    container < form.document.size := by
  obtain ⟨e, he, _⟩ := Option.bind_eq_some_iff.mp (h.firstWithId_container hcontainer).idOf
  exact Document.lt_size_of_element? he

end Operations

end Settled

theorem succeeds_action
    {form : Form} {outcome : Form × Except DocumentError (Option NodeId)}
    (made : NodeId → ClickAction)
    (houtcome : form.Succeeds outcome) :
    form.Succeeds (action made outcome) := by
  obtain ⟨form', result, rfl, hsettled, hmarkup⟩ := houtcome
  cases result with
  | none => exact ⟨form', .ignored, rfl, hsettled, hmarkup⟩
  | some row => exact ⟨form', made row, rfl, hsettled, hmarkup⟩

namespace Settled

variable {form : Form} (h : form.Settled)
include h

/-- A row is made and put in front of the first formula among the children of the container, and
then all formulas are recomputed. -/
theorem addRow_places
    {container : NodeId}
    (hcontainer : form.container = some container) :
    ∃ placed shown,
      RowAdded form.markup form.document placed container
        (beforeFormulas form.markup form.document container)
        (fromFormulas form.markup form.document container) ∧
      Formula.Refreshed form.markup placed shown
        (placed.withTag Document.root form.markup.formulaTag) ∧
      form.addRow = (form.renewed placed shown, .ok (some form.document.size)) := by
  have hlt := h.container_lt hcontainer
  obtain ⟨created, hcreate, hcreated⟩ := createRow_spec form.markup h.wellFormed
  obtain ⟨placed, hplace, hmoved⟩ :=
    placeRow_spec (h.wellFormed.steps hcreated.grown.steps) form.markup hcreated.parent_row
      (hcreated.insertable h.wellFormed hlt)
  obtain ⟨hbefore, hafter⟩ := hcreated.gap_eq h.wellFormed hlt
  rw [hbefore, hafter] at hmoved
  obtain ⟨shown, hdone, hsettle⟩ := settle_eq form placed (some form.document.size)
  refine ⟨placed, shown, hcreated.added h.wellFormed hlt hmoved, hdone, ?_⟩
  rw [← hsettle]
  simp only [addRow, hcontainer, hcreate, hplace]

/-- Wherever in the container the row is put. -/
theorem addRow_eq
    {container : NodeId}
    (hcontainer : form.container = some container) :
    ∃ before after placed shown,
      RowAdded form.markup form.document placed container before after ∧
      Formula.Refreshed form.markup placed shown
        (placed.withTag Document.root form.markup.formulaTag) ∧
      form.addRow = (form.renewed placed shown, .ok (some form.document.size)) := by
  obtain ⟨placed, shown, hadded, hdone, hadd⟩ := h.addRow_places hcontainer
  exact ⟨_, _, placed, shown, hadded, hdone, hadd⟩

/-- The nearest row is taken out of the tree, and then all formulas are recomputed. -/
theorem removeRow_eq
    {clicked row : NodeId}
    (hrow : form.document.closestWithClass clicked form.markup.rowClass = some row) :
    ∃ removed shown, form.document.Removed removed row ∧
      Formula.Refreshed form.markup removed shown
        (removed.withTag Document.root form.markup.formulaTag) ∧
      form.removeRow clicked = (form.renewed removed shown, .ok (some row)) := by
  obtain ⟨e, he, _⟩ := Document.nodeIs_iff.mp (List.find?_some hrow)
  obtain ⟨removed, hremove⟩ := h.wellFormed.remove_of_element? he
  obtain ⟨shown, hdone, hsettle⟩ := settle_eq form removed (some row)
  refine ⟨removed, shown, (h.wellFormed.remove_spec hremove).2, hdone, ?_⟩
  simp only [removeRow, hrow, hremove, hsettle]

theorem addRow_spec :
    form.Succeeds form.addRow := by
  cases hcontainer : form.container with
  | none =>
      rw [addRow, hcontainer]
      exact h.succeeds_self none
  | some container =>
      obtain ⟨_, _, placed, shown, hadded, hdone, hadd⟩ := h.addRow_eq hcontainer
      rw [hadd]
      exact h.succeeds_renewed hadded.grown.steps hdone _

theorem removeRow_spec
    (clicked : NodeId) :
    form.Succeeds (form.removeRow clicked) := by
  cases hrow : form.document.closestWithClass clicked form.markup.rowClass with
  | none =>
      rw [removeRow, hrow]
      exact h.succeeds_self none
  | some row =>
      obtain ⟨removed, shown, hremoved, hdone, hremove⟩ := h.removeRow_eq hrow
      rw [hremove]
      exact h.succeeds_renewed (.single (.removed hremoved)) hdone _

theorem click_spec
    (target : NodeId) :
    form.Succeeds (form.click target) := by
  rw [click]
  split
  · exact h.succeeds_self _
  · split
    · exact succeeds_action .added h.addRow_spec
    · split
      · exact succeeds_action .removed (h.removeRow_spec target)
      · exact h.succeeds_self _

end Settled
end Form
end LiveForms
