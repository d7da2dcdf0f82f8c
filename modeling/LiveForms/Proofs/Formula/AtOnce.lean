import LiveForms.Proofs.Formula.Refresh

/-!
# Live forms: formulas recompute all at once

Formulas are recomputed one after the other, each from the document into which those
before it have been written. The outcome is that of a recomputation in which all of them
look at the document from before: what one formula shows is never read by another. So
neither the order of the formulas nor a failure among them makes a difference.

Main statements:

* `Formula.refreshAll_eq_atOnce`: the recomputation of a list of formulas is one change
  of the whole document, made from values of the document before it.
* `Form.update_at_once`: what this says of each node, of other orders of the formulas, of
  a formula that is recomputed alone, and of a second recomputation.
-/

namespace LiveForms

namespace Document

/-- A document with every element changed, each one in the way that `f` gives its node. -/
def mapElements (d : Document) (f : NodeId → Element → Element) : Document :=
  { d with
    nodes := d.nodes.mapIdx fun n node => { node with content := node.content.map (f n) } }

variable (d : Document) (f : NodeId → Element → Element)

@[simp] theorem size_mapElements : (d.mapElements f).size = d.size := by
  simp [mapElements, size]

@[simp] theorem parent?_mapElements
    (n : NodeId) :
    (d.mapElements f).parent? n = d.parent? n := by
  simp only [mapElements, parent?, Array.getElem?_mapIdx]
  cases d.nodes[n]? <;> rfl

@[simp] theorem children_mapElements
    (n : NodeId) :
    (d.mapElements f).children n = d.children n := by
  simp only [mapElements, children, Array.getElem?_mapIdx]
  cases d.nodes[n]? <;> rfl

@[simp] theorem element?_mapElements
    (n : NodeId) :
    (d.mapElements f).element? n = (d.element? n).map (f n) := by
  simp only [mapElements, element?, Array.getElem?_mapIdx]
  cases d.nodes[n]? <;> rfl

@[simp] theorem ids_mapElements : (d.mapElements f).ids = d.ids :=
  rfl

end Document

/--
The element `e'` is `e` after it was made to present an outcome: it has the text of the
outcome, it has the class of an invalid formula if that is an error, and all else is as
in `e`, the other classes included.
-/
structure Element.Presents (m : Markup) (outcome : Except FormulaError Float)
    (e e' : Element) : Prop where
  text : e'.text = (Formula.rendering outcome).1
  invalid : e'.hasClass m.invalidClass = (Formula.rendering outcome).2
  identity : e.SameIdentity e'
  value : e'.value = e.value
  classes : e'.classes.filter (· != m.invalidClass) = e.classes.filter (· != m.invalidClass)

namespace Formula

/-- The document in which all formulas of a list show the values that they have in `d`. -/
def atOnce (m : Markup) (d : Document) (formulas : List NodeId) : Document :=
  d.mapElements fun n e => if n ∈ formulas then showing m (compute m d n) e else e

variable {m : Markup}

theorem presents_showing
    (outcome : Except FormulaError Float)
    (e : Element) :
    e.Presents m outcome (showing m outcome e) := by
  obtain ⟨htext, hinvalid⟩ := Prod.mk.inj (rendering_showing m outcome e)
  have hquiet := quiet_showing m outcome e
  have hvalue := congrArg Element.value hquiet
  have hclasses := congrArg Element.classes hquiet
  exact ⟨htext, hinvalid, sameIdentity_showing m outcome e, hvalue, hclasses⟩

/-- Presenting an outcome twice is presenting it once. -/
theorem showing_showing
    (outcome : Except FormulaError Float)
    (e : Element) :
    showing m outcome (showing m outcome e) = showing m outcome e :=
  showing_eq_self m (rendering_showing m outcome e)

variable {d : Document} {formulas : List NodeId}

theorem element?_atOnce
    (n : NodeId) :
    (atOnce m d formulas).element? n =
      if n ∈ formulas then (d.element? n).map (showing m (compute m d n))
      else d.element? n := by
  rw [atOnce, Document.element?_mapElements]
  split
  · rfl
  · exact Option.map_id'

theorem element?_atOnce_of_mem
    {n : NodeId}
    (hn : n ∈ formulas) :
    (atOnce m d formulas).element? n = (d.element? n).map (showing m (compute m d n)) := by
  rw [element?_atOnce, if_pos hn]

theorem atOnce_nil : atOnce m d [] = d := by
  apply Document.eq_of_reads
  · exact Document.size_mapElements d _
  · exact Document.parent?_mapElements d _
  · exact Document.children_mapElements d _
  · intro n
    rw [element?_atOnce, if_neg List.not_mem_nil]
  · rfl

/-- Only the members of the list matter. -/
theorem atOnce_congr
    {order : List NodeId}
    (horder : ∀ f, f ∈ order ↔ f ∈ formulas) :
    atOnce m d order = atOnce m d formulas := by
  simp only [atOnce, horder]

/-- The first formula of a list may be written before the others are computed. -/
theorem atOnce_of_edited
    {d' : Document} {f : NodeId}
    (hm : m.InvalidApart)
    (hd : d.Edited d' f (showing m (compute m d f)))
    (rest : List NodeId) :
    atOnce m d' rest = atOnce m d (f :: rest) := by
  have hquiet := Document.quiet_of_edited hd (quiet_showing m _)
  apply Document.eq_of_reads
  · simp only [atOnce, Document.size_mapElements, hd.size]
  · intro n
    simp only [atOnce, Document.parent?_mapElements, hd.parent?]
  · intro n
    simp only [atOnce, Document.children_mapElements, hd.children]
  · intro n
    rw [element?_atOnce, element?_atOnce, compute_congr hm hquiet, hd.element?]
    by_cases hnf : n = f
    · subst hnf
      rw [if_pos rfl, if_pos List.mem_cons_self]
      split
      · -- the formula occurs again, and is written with the same outcome
        cases d.element? n with
        | none => rfl
        | some e => exact congrArg some (showing_showing _ e)
      · rfl
    · have hmem : n ∈ f :: rest ↔ n ∈ rest := by simp [hnf]
      simp only [hmem, if_neg hnf]
  · exact hd.ids

/-- Recomputing formulas one after the other is writing all of them at once. -/
theorem refreshAll_eq_atOnce
    (hm : m.InvalidApart)
    (hformulas : ∀ f ∈ formulas, ∃ e, d.element? f = some e) :
    refreshAll m d formulas = (atOnce m d formulas, none) := by
  induction formulas generalizing d with
  | nil =>
      rw [refreshAll, atOnce_nil]
  | cons f rest ih =>
      obtain ⟨e, he⟩ := hformulas f List.mem_cons_self
      obtain ⟨d₁, hrefresh, hedited⟩ := refresh_spec (m := m) he
      have hrest : ∀ g ∈ rest, ∃ e, d₁.element? g = some e := by
        intro g hg
        exact hedited.exists_element (hformulas g (List.mem_cons_of_mem _ hg))
      simp only [refreshAll, hrefresh]
      rw [ih hrest, atOnce_of_edited hm hedited]

/-- In the outcome every formula shows its value there, which is the one from before. -/
theorem shows_atOnce
    (hm : m.InvalidApart)
    (hformulas : ∀ f ∈ formulas, ∃ e, d.element? f = some e) :
    ∀ f ∈ formulas, Shows m (atOnce m d formulas) f := by
  obtain ⟨d', hall, hdone⟩ := refreshAll_spec (m := m) hformulas
  rw [refreshAll_eq_atOnce hm hformulas] at hall
  obtain ⟨rfl, _⟩ := Prod.mk.inj hall
  exact hdone.shows hm

/-- A formula that shows its value before is left as it is, whatever the others show. -/
theorem element?_of_shows
    {d' : Document} {f : NodeId}
    (hm : m.InvalidApart)
    (hformulas : ∀ f ∈ formulas, ∃ e, d.element? f = some e)
    (hall : refreshAll m d formulas = (d', none))
    (hshows : Shows m d f) :
    d'.element? f = d.element? f := by
  rw [refreshAll_eq_atOnce hm hformulas] at hall
  obtain ⟨rfl, _⟩ := Prod.mk.inj hall
  obtain ⟨e, he, hrendering⟩ := Option.map_eq_some_iff.mp hshows
  rw [element?_atOnce, he, Option.map_some, showing_eq_self m hrendering, ite_self]

/-- A formula shows what it would show if it were recomputed alone. -/
theorem element?_atOnce_eq_refresh
    {f : NodeId}
    (hf : f ∈ formulas)
    (helement : ∃ e, d.element? f = some e) :
    ∃ alone, refresh m d f = .ok alone ∧
      (atOnce m d formulas).element? f = alone.element? f := by
  obtain ⟨e, he⟩ := helement
  obtain ⟨alone, hrefresh, hedited⟩ := refresh_spec (m := m) he
  refine ⟨alone, hrefresh, ?_⟩
  rw [element?_atOnce_of_mem hf, hedited.element?, if_pos rfl]

end Formula

namespace Form

/--
A recomputation succeeds if all formulas are elements. Afterwards every formula presents
the value that it has in the document before, all other elements, the links and the list
of ids are as they were, and: any order of the same formulas leads to the same document;
each formula ends up as if it were the only one to be recomputed; a second recomputation
changes nothing.
-/
theorem update_at_once
    (form : Form)
    (hrow : form.markup.invalidClass ≠ form.markup.rowClass)
    (hgrade : form.markup.invalidClass ≠ form.markup.gradeClass)
    (hcredit : form.markup.invalidClass ≠ form.markup.creditClass)
    (hformulas : ∀ f ∈ form.formulas, ∃ e, form.document.element? f = some e) :
    ∃ d, form.update = ({ form with document := d }, none) ∧
      (∀ f ∈ form.formulas, ∃ e e',
        form.document.element? f = some e ∧ d.element? f = some e' ∧
          e.Presents form.markup (Formula.compute form.markup form.document f) e') ∧
      (∀ n, n ∉ form.formulas → d.element? n = form.document.element? n) ∧
      d.size = form.document.size ∧
      (∀ n, d.parent? n = form.document.parent? n) ∧
      (∀ n, d.children n = form.document.children n) ∧
      d.ids = form.document.ids ∧
      (∀ order, (∀ f, f ∈ order ↔ f ∈ form.formulas) →
        update { form with formulas := order } =
          ({ form with formulas := order, document := d }, none)) ∧
      (∀ f ∈ form.formulas, ∃ alone,
        Formula.refresh form.markup form.document f = .ok alone ∧
          d.element? f = alone.element? f) ∧
      update { form with document := d } = ({ form with document := d }, none) := by
  have hm : form.markup.InvalidApart := ⟨hrow, hgrade, hcredit⟩
  have hupdate : ∀ order, (∀ f, f ∈ order ↔ f ∈ form.formulas) →
      update { form with formulas := order } =
        ({ form with
            formulas := order
            document := Formula.atOnce form.markup form.document form.formulas }, none) := by
    intro order horder
    have hmembers : ∀ f ∈ order, ∃ e, form.document.element? f = some e := by
      intro f hf
      exact hformulas f ((horder f).mp hf)
    simp only [update, Formula.refreshAll_eq_atOnce hm hmembers, Formula.atOnce_congr horder]
  refine ⟨Formula.atOnce form.markup form.document form.formulas, ?_, ?_, ?_, ?_, ?_, ?_, rfl,
    hupdate, ?_, ?_⟩
  · exact hupdate form.formulas fun _ => Iff.rfl
  · intro f hf
    obtain ⟨e, he⟩ := hformulas f hf
    refine ⟨e, _, he, ?_, Formula.presents_showing _ e⟩
    rw [Formula.element?_atOnce_of_mem hf, he, Option.map_some]
  · intro n hn
    rw [Formula.element?_atOnce, if_neg hn]
  · exact Document.size_mapElements _ _
  · exact Document.parent?_mapElements _ _
  · exact Document.children_mapElements _ _
  · intro f hf
    exact Formula.element?_atOnce_eq_refresh hf (hformulas f hf)
  · have hshows := Formula.shows_atOnce hm hformulas
    simp only [update, Formula.refreshAll_of_shows hshows]

/-- A row whose cells are formulas, and each reads the other one's value. -/
def linkedCells : Form where
  document :=
    Document.ofChanges
      [.create 0 { tag := "div", classes := ["gpa-row"] },
       .create 1 { tag := "input", id := some "a", classes := ["invalid", "grade"],
                   attrs := [("evaluator", "a * 2")], value := "12" },
       .create 1 { tag := "input", id := some "b", classes := ["credit"],
                   attrs := [("evaluator", "b + 1")], value := "x", text := "7" }]
  markup := { formulaTag := "input" }
  formulas := [3, 2]
  container := none

/-- Of the two cells one shows an error and the other one a number. -/
theorem update_at_once_linkedCells :
    linkedCells.markup.invalidClass ≠ linkedCells.markup.rowClass ∧
    linkedCells.markup.invalidClass ≠ linkedCells.markup.gradeClass ∧
    linkedCells.markup.invalidClass ≠ linkedCells.markup.creditClass ∧
    (∀ f ∈ linkedCells.formulas, ∃ e, linkedCells.document.element? f = some e) ∧
    ∃ d, linkedCells.update = ({ linkedCells with document := d }, none) ∧
      (∃ a, d.element? 2 = some a ∧ a.text = "24" ∧ a.hasClass "invalid" = false) ∧
      (∃ b, d.element? 3 = some b ∧ b.text = "Invalid Formula" ∧
        b.hasClass "invalid" = true) ∧
      update { linkedCells with document := d } = ({ linkedCells with document := d }, none) := by
  have hformulas : ∀ f ∈ linkedCells.formulas, ∃ e,
      linkedCells.document.element? f = some e := by
    have hsome : ∀ f ∈ linkedCells.formulas, (linkedCells.document.element? f).isSome = true := by
      decide
    intro f hf
    exact Option.isSome_iff_exists.mp (hsome f hf)
  have ha : Formula.rendering (Formula.compute linkedCells.markup linkedCells.document 2) =
      ("24", false) := by
    decide +kernel
  have hb : Formula.rendering (Formula.compute linkedCells.markup linkedCells.document 3) =
      ("Invalid Formula", true) := by
    decide +kernel
  refine ⟨by decide, by decide, by decide, hformulas, ?_⟩
  obtain ⟨d, hupdate, hpresents, _, _, _, _, _, _, _, hagain⟩ :=
    update_at_once linkedCells (by decide) (by decide) (by decide) hformulas
  obtain ⟨_, a, _, hd₂, ha'⟩ := hpresents 2 (by decide)
  obtain ⟨_, b, _, hd₃, hb'⟩ := hpresents 3 (by decide)
  refine ⟨d, hupdate, ⟨a, hd₂, ?_, ?_⟩, ⟨b, hd₃, ?_, ?_⟩, hagain⟩
  · rw [ha'.text, ha]
  · exact ha'.invalid.trans (congrArg Prod.snd ha)
  · rw [hb'.text, hb]
  · exact hb'.invalid.trans (congrArg Prod.snd hb)

end Form
end LiveForms
