import LiveForms.Proofs.Formula.Rendering
import LiveForms.Proofs.Session.Editing
import LiveForms.Proofs.Session.Effects

/-!
# Live forms: what formulas show in a session

A page may give its formulas any text and any classes, and the markup may use one class
for several things. From the moment the page is open, every formula in the tree shows an
error with the class of an invalid formula, or a finite number without it. Keys keep that:
those that touch the form at all end with a recomputation of all its formulas, and these
are the ones that are in the tree by then.

Main statements:

* `Session.rendered_press`: what one key keeps.
* `Session.rendered_pressAll`: what holds after all keys.
-/

namespace LiveForms
namespace Session

variable {m : Markup} {s : Session}

/-- A key leaves the formulas rendered, among them those in rows that come or go. -/
theorem rendered_press
    (hup : s.UpToDate m)
    (hrendered : s.form.Rendered)
    (k : Stroke) :
    (s.stroke k).form.Rendered := by
  have hstep : s.KeyStep _ (s.stroke k).form (s.stroke k).focus :=
    keyStep_press s k.clipboard k.key k.mods
  generalize (s.stroke k).form = form at hstep ⊢
  generalize (s.stroke k).focus = focus at hstep
  cases hstep with
  | kept => exact hrendered
  | next hcount => exact hrendered
  | previous hcount => exact hrendered
  | entered hn hd =>
      apply Form.rendered_update
      intro f hf
      exact (Document.modifyElement_spec hd).exists_element
        (hup.settled.element_of_mem_formulas hf)
  | added hadds => exact hup.settled.rendered_addRow hrendered
  | removed hn => exact hup.settled.rendered_removeRow hrendered _

theorem rendered_of_ofPage
    {page : Page} {opened : Session}
    (hopened : ofPage page m = .ok opened) :
    opened.form.Rendered := by
  rw [ofPage] at hopened
  split at hopened
  · cases hopened
  · rename_i d hbuild
    have hattach := Form.rendered_locate_update
      { document := d, markup := m, formulas := [], container := none }
    split at hopened
    · cases hopened
    · rename_i form heq
      rw [Form.attach] at heq
      cases hopened
      rw [heq] at hattach
      exact hattach

/--
Every page opens, and whatever keys are pressed after that, every element in the tree with
the tag of a formula shows an error and has the class of an invalid formula, or shows a
finite number and does not have it. So the class says which of the two it is, and a
formula without it shows a decimal numeral, maybe with a power of ten, and never a word.
-/
theorem rendered_pressAll
    (page : Page)
    (m : Markup)
    (strokes : List Stroke) :
    ∃ opened reached,
      ofPage page m = .ok opened ∧
      opened.pressAll strokes = reached ∧
      ∀ n e, reached.document.isAttached n = true →
        reached.document.element? n = some e → e.tag = m.formulaTag →
        e.Rendered m ∧
        (e.hasClass m.invalidClass = true ↔ ∃ err : FormulaError, e.text = err.message) ∧
        (e.hasClass m.invalidClass = false →
          Decimal.IsNumeral e.text.toList ∧ e.text ∉ ["NaN", "inf", "-inf"]) := by
  obtain ⟨opened, hopened, hfirst⟩ := ofPage_spec page m
  refine ⟨opened, _, hopened, rfl, ?_⟩
  have hup := hfirst.pressAll strokes
  have hall : (opened.pressAll strokes).form.Rendered :=
    hfirst.pressAll_induction (P := fun s => s.form.Rendered) (rendered_of_ofPage hopened)
      fun _ hup hrendered k _ => rendered_press hup hrendered k
  intro n e hn he htag
  have hmem : n ∈ (opened.pressAll strokes).form.formulas := by
    rw [hup.settled.formulas, hup.markup, hup.settled.wellFormed.mem_withTag_root_iff]
    exact ⟨hn, e, he, htag⟩
  obtain ⟨e', he', hrendered⟩ := hall n hmem
  have hsame : e' = e := Option.some.inj (he'.symm.trans he)
  rw [hup.markup, hsame] at hrendered
  exact ⟨hrendered, hrendered.invalid_iff, hrendered.numeral⟩

/-- An input, and a formula with a text and with classes that do not fit its value. -/
def mislabelled : Page where
  body :=
    Page.leaves
      [{ tag := "input", id := some "a", value := some "12" },
       { tag := "formula", classes := ["invalid", "total", "invalid"], text := some "NaN",
         attrs := [("evaluator", "1 / a")] }]
      .nil

/-- The formula is put right when the page opens, and fails once its input is empty. -/
theorem rendered_pressAll_mislabelled :
    ∃ opened reached shown failed,
      ofPage mislabelled {} = .ok opened ∧
      opened.document.element? 2 = some shown ∧ shown.classes = ["total"] ∧
      shown.text = "0.08333333333333333" ∧
      Decimal.IsNumeral shown.text.toList ∧
      opened.pressAll [{ key := .backspace }] = reached ∧
      reached.document.element? 2 = some failed ∧
      failed.classes = ["total", "invalid"] ∧ failed.text = "Invalid Formula" ∧
      (∃ err : FormulaError, failed.text = err.message) := by
  obtain ⟨opened, _, hopened, rfl, hopen⟩ := rendered_pressAll mislabelled {} []
  obtain ⟨opened', reached, hopened', hreached, hpressed⟩ :=
    rendered_pressAll mislabelled {} [{ key := .backspace }]
  have hsame : opened' = opened := Except.ok.inj (hopened'.symm.trans hopened)
  subst hsame
  have hstart : (ofPage mislabelled {}).map (fun s =>
      (s.document.isAttached 2, (s.document.element? 2).map fun e =>
        (e.tag, e.classes, e.text))) =
      .ok (true, some ("formula", ["total"], "0.08333333333333333")) := by
    decide +kernel
  have hcleared : (ofPage mislabelled {}).map (fun s =>
      let reached := s.pressAll [{ key := .backspace }]
      (reached.document.isAttached 2, (reached.document.element? 2).map fun e =>
        (e.tag, e.classes, e.text))) =
      .ok (true, some ("formula", ["total", "invalid"], "Invalid Formula")) := by
    decide +kernel
  rw [hopened] at hstart hcleared
  obtain ⟨hn, hshown⟩ := Prod.mk.inj (Except.ok.inj hstart)
  obtain ⟨hn', hfailed⟩ := Prod.mk.inj (Except.ok.inj hcleared)
  rw [hreached] at hn' hfailed
  simp only [Option.map_eq_some_iff, Prod.mk.injEq] at hshown hfailed
  obtain ⟨shown, he, htag, hclasses, htext⟩ := hshown
  obtain ⟨failed, he', htag', hclasses', htext'⟩ := hfailed
  obtain ⟨_, _, hnumeral⟩ := hopen 2 shown hn he htag
  obtain ⟨_, hiff, _⟩ := hpressed 2 failed hn' he' htag'
  have hvalid : shown.hasClass ({} : Markup).invalidClass = false := by
    rw [Element.hasClass, hclasses]
    decide
  have hinvalid : failed.hasClass ({} : Markup).invalidClass = true := by
    rw [Element.hasClass, hclasses']
    decide
  exact ⟨_, reached, shown, failed, hopened, he, hclasses, htext, (hnumeral hvalid).1, hreached,
    he', hclasses', htext', hiff.mp hinvalid⟩

end Session
end LiveForms
