import LiveForms.Proofs.Decimal.Written
import LiveForms.Proofs.Formula.Settled

/-!
# Live forms: what formulas show

A formula that has been recomputed shows an error and has the class of an invalid formula,
or it shows a finite number and does not have that class. Whatever text and classes it had
before, the recomputation writes over them. Nothing is asked of the markup: if the class
of an invalid formula is that of rows or cells, one formula can change the value of
another one, but each of them was still written last with some outcome of its own.

Main definitions:

* `Element.Rendered`: what is shown.

Main statements:

* `Formula.isFinite_of_compute`: the value of a formula is finite.
* `Formula.refreshAll_rendered`: what a recomputation leaves.
* `Form.rendered_update`, `Form.Settled.rendered_addRow`, `Form.Settled.rendered_removeRow`:
  the operations on forms.
-/

namespace LiveForms

/-- An element shows the outcome of a computation. -/
inductive Element.Rendered (m : Markup) (e : Element) : Prop
  | error
      (err : FormulaError)
      (htext : e.text = err.message)
      (hinvalid : e.hasClass m.invalidClass = true)
  | number
      (x : Float)
      (hx : x.isFinite = true)
      (htext : e.text = Formula.display x)
      (hvalid : e.hasClass m.invalidClass = false)

namespace Element.Rendered

variable {m : Markup} {e : Element} (h : e.Rendered m)
include h

/-- The class says whether the text is that of an error. -/
theorem invalid_iff :
    e.hasClass m.invalidClass = true ↔ ∃ err : FormulaError, e.text = err.message := by
  cases h with
  | error err htext hinvalid => exact ⟨fun _ => ⟨err, htext⟩, fun _ => hinvalid⟩
  | number x hx htext hvalid =>
      constructor
      · intro hinvalid
        rw [hvalid] at hinvalid
        cases hinvalid
      · rintro ⟨err, herr⟩
        exact absurd (htext ▸ herr) (Formula.display_ne_message hx err)

/-- Without the class, the text is a numeral and none of the words for other numbers. -/
theorem numeral
    (hvalid : e.hasClass m.invalidClass = false) :
    Decimal.IsNumeral e.text.toList ∧ e.text ∉ ["NaN", "inf", "-inf"] := by
  cases h with
  | error err htext hinvalid =>
      rw [hvalid] at hinvalid
      cases hinvalid
  | number x hx htext _ =>
      rw [htext]
      exact ⟨Formula.isNumeral_display hx, Formula.display_not_mem_words hx⟩

end Element.Rendered

namespace Formula

variable {m : Markup} {d d' : Document}

section Finite

theorem isFinite_of_finite
    {x y : Float}
    (h : finite x = .ok y) :
    y.isFinite = true := by
  rw [finite] at h
  split at h
  · rename_i hx
    cases h
    exact hx
  · cases h

theorem isFinite_zero : (0.0 : Float).isFinite = true := by
  decide +kernel

theorem isFinite_of_average
    {formula : NodeId} {x : Float}
    (h : average m d formula = .ok x) :
    x.isFinite = true := by
  rw [average] at h
  split at h
  · cases h
    exact isFinite_zero
  · split at h
    · cases h
    · rw [quotient] at h
      split at h
      · cases h
        exact isFinite_zero
      · exact isFinite_of_finite h

theorem isFinite_of_expression
    {text : String} {x : Float}
    (h : expression d text = .ok x) :
    x.isFinite = true := by
  rw [expression] at h
  split at h
  · cases h
  · split at h
    · cases h
    · split at h
      · cases h
      · exact isFinite_of_finite h

/-- Overflow and division by zero are errors, not values. -/
theorem isFinite_of_compute
    {formula : NodeId} {x : Float}
    (h : compute m d formula = .ok x) :
    x.isFinite = true := by
  simp only [compute] at h
  split at h
  · exact isFinite_of_average h
  · exact isFinite_of_expression h

end Finite

section Recomputing

theorem rendered_showing
    (formula : NodeId)
    (e : Element) :
    (showing m (compute m d formula) e).Rendered m := by
  obtain ⟨htext, hclass⟩ := Prod.mk.inj (rendering_showing m (compute m d formula) e)
  cases hvalue : compute m d formula with
  | error err =>
      rw [hvalue] at htext hclass
      exact .error err htext hclass
  | ok x =>
      rw [hvalue] at htext hclass
      exact .number x (isFinite_of_compute hvalue) htext hclass

/-- The formulas of a list are elements, and they show outcomes. -/
def AllRendered (m : Markup) (d : Document) (formulas : List NodeId) : Prop :=
  ∀ f ∈ formulas, ∃ e, d.element? f = some e ∧ e.Rendered m

/-- Every formula is written at least once, and not changed after the last time. -/
theorem refreshAll_rendered
    {formulas : List NodeId}
    (hformulas : ∀ f ∈ formulas, ∃ e, d.element? f = some e)
    (hall : refreshAll m d formulas = (d', none)) :
    AllRendered m d' formulas := by
  induction formulas generalizing d with
  | nil =>
      intro f hf
      cases hf
  | cons f rest ih =>
      obtain ⟨e, he⟩ := hformulas f List.mem_cons_self
      obtain ⟨d₁, hrefresh, hedited⟩ := refresh_spec (m := m) he
      have hrest : ∀ g ∈ rest, ∃ e, d₁.element? g = some e := by
        intro g hg
        exact hedited.exists_element (hformulas g (List.mem_cons_of_mem _ hg))
      simp only [refreshAll, hrefresh] at hall
      intro g hg
      by_cases hmem : g ∈ rest
      · exact ih hrest hall g hmem
      · have hgf : g = f := (List.mem_cons.mp hg).resolve_right hmem
        subst hgf
        obtain ⟨d₂, hall₂, hdone⟩ := refreshAll_spec (m := m) hrest
        rw [hall] at hall₂
        obtain ⟨rfl, _⟩ := Prod.mk.inj hall₂
        refine ⟨_, ?_, rendered_showing (d := d) g e⟩
        rw [hdone.element? g hmem, hedited.element?, if_pos rfl, he]
        rfl

end Recomputing

end Formula

namespace Form

/-- All formulas of a form show outcomes. -/
def Rendered (form : Form) : Prop :=
  Formula.AllRendered form.markup form.document form.formulas

variable {form : Form}

theorem rendered_update
    (hformulas : ∀ f ∈ form.formulas, ∃ e, form.document.element? f = some e) :
    form.update.1.Rendered := by
  obtain ⟨d', hall, _⟩ := Formula.refreshAll_spec (m := form.markup) hformulas
  simp only [update, hall]
  exact Formula.refreshAll_rendered hformulas hall

theorem rendered_locate_update
    (form : Form) :
    form.locate.update.1.Rendered := by
  apply rendered_update
  intro f hf
  exact Document.element_of_mem_withTag hf

theorem rendered_settle
    {α : Type}
    (form : Form)
    (result : α) :
    (form.settle result).1.Rendered := by
  have hupdate := rendered_locate_update form
  rw [settle]
  split
  · rename_i heq
    rw [heq] at hupdate
    exact hupdate
  · rename_i heq
    rw [heq] at hupdate
    exact hupdate

namespace Settled

variable (h : form.Settled) (hrendered : form.Rendered)
include h hrendered

/-- A new row may hold formulas, and may be one itself. -/
theorem rendered_addRow :
    form.addRow.1.Rendered := by
  obtain ⟨form', row, hadd, _⟩ := h.addRow_spec
  rw [addRow] at hadd ⊢
  split at hadd
  · exact hrendered
  · split at hadd
    · cases hadd
    · split at hadd
      · cases hadd
      · exact rendered_settle _ _

theorem rendered_removeRow
    (clicked : NodeId) :
    (form.removeRow clicked).1.Rendered := by
  obtain ⟨form', row, hremove, _⟩ := h.removeRow_spec clicked
  rw [removeRow] at hremove ⊢
  split at hremove
  · exact hrendered
  · split at hremove
    · cases hremove
    · exact rendered_settle _ _

end Settled
end Form
end LiveForms
