import LiveForms.Proofs.Formula.EmptyRows
import LiveForms.Proofs.Session.PassingRows

/-!
# Live forms: a new row is neutral

A row that is added is empty, and it stays so until something is typed into it. If the
container lies in no row, no other row sees its cells. So the formulas that were there keep
their values, the errors included, although the row stands between others and is
visited by every average around the container.

Main statements:

* `Form.RowAdded.emptyRow`: the row that is added is an empty row.
* `Form.Settled.addRow_neutral`: what this means for a form.
* `Session.emptyRow_pressAll`: this, after any keys on any page.
-/

namespace LiveForms

/-- What the names of a page must tell apart for a new row to be an empty one. -/
structure Markup.RowApart (m : Markup) : Prop where
  grade : m.rowClass ≠ m.gradeClass
  credit : m.rowClass ≠ m.creditClass
  remove : m.rowClass ≠ m.removeClass

namespace Form
namespace RowAdded

variable {m : Markup} {d placed : Document} {container : NodeId} {before after : List NodeId}
variable (h : d.WellFormed) (hlt : container < d.size)
variable (hadded : RowAdded m d placed container before after)
include h hlt hadded

/-- Below a new row there are its two cells and its button. -/
theorem mem_rowContent_of_above
    {n : NodeId}
    (hn : placed.Above d.size n) :
    ∃ e ∈ rowContent m, placed.element? n = some e := by
  have hplaced := h.steps hadded.grown.steps
  have hstands := Session.rowStands_of_rowAdded h hlt hadded
  rw [← hplaced.mem_descendants_iff, hstands.descendants_eq hplaced, Session.mem_behind] at hn
  obtain ⟨k, rfl⟩ := Nat.exists_eq_add_of_le (Nat.succ_le_of_lt hn.1)
  have hk : k < (rowContent m).length := by
    simp only [rowContent, List.length_cons, List.length_nil]
    omega
  exact ⟨_, List.getElem_mem hk, hadded.row.inside k _ (List.getElem?_eq_getElem hk)⟩

/-- A cell of a new row counts as zero, whichever of its nodes is found for it. -/
theorem cell?_eq_zero
    {name : String} {k : Nat} {e : Element}
    (hk : (rowContent m)[k]? = some e)
    (hname : e.hasClass name = true) :
    Formula.cell? placed d.size name = some 0.0 := by
  have hplaced := h.steps hadded.grown.steps
  have hstands := Session.rowStands_of_rowAdded h hlt hadded
  have hcell : d.size + 1 + k ∈ placed.descendants d.size := by
    have hlength := (List.getElem?_eq_some_iff.mp hk).1
    rw [hstands.descendants_eq hplaced, Session.mem_behind]
    simp only [rowContent, List.length_cons, List.length_nil] at hlength
    omega
  obtain ⟨n, hn⟩ : ∃ n, placed.firstWithClass d.size name = some n := by
    rw [← Option.isSome_iff_exists, Document.firstWithClass, Document.findFirst,
      List.find?_isSome]
    exact ⟨_, hcell, Document.nodeIs_iff.mpr ⟨e, hadded.row.inside k e hk, hname⟩⟩
  have hbelow := (hplaced.firstWithClass_eq_some_iff.mp hn).below
  obtain ⟨e', he', helement⟩ := hadded.mem_rowContent_of_above h hlt hbelow
  have hvalue : ∀ e ∈ rowContent m, e.value = "" := by
    simp [rowContent]
  rw [Session.cell?_eq_bind hn, Document.value?, helement, Option.map_some, hvalue e' he']
  rfl

/-- The row is empty, and no other row sees it if there is none around the container. -/
theorem emptyRow
    (hrow : m.RowApart)
    (hfree : ∀ a, a = container ∨ d.Above a container → d.hasClass a m.rowClass = false) :
    Formula.EmptyRow m placed d.size where
  counts := by
    refine ⟨⟨?_, ?_⟩, Formula.Entry.empty_not_negative⟩
    · exact hadded.cell?_eq_zero h hlt (k := 0) rfl (by simp [Element.hasClass])
    · exact hadded.cell?_eq_zero h hlt (k := 1) rfl (by simp [Element.hasClass])
  around n hn := by
    have habove : n = container ∨ d.Above n container := by
      refine ((Document.above_iff_of_parent? hadded.parent_row).mp hn).imp_right ?_
      exact h.above_of_grown hadded.grown hlt
    have hold : n < d.size := by
      rcases habove with rfl | habove
      · exact hlt
      · exact h.lt_of_above habove
    rw [Document.hasClass, Document.nodeIs, hadded.grown.element? n hold]
    exact hfree n habove
  inside n hn := by
    obtain ⟨e, he, helement⟩ := hadded.mem_rowContent_of_above h hlt hn
    have hclass : ∀ e ∈ rowContent m, e.hasClass m.rowClass = false := by
      simp [rowContent, Element.hasClass, hrow.grade, hrow.credit, hrow.remove]
    rw [Document.hasClass, Document.nodeIs, helement, Option.any_some, hclass e he]
  unnamed n hn := by
    rcases hn with rfl | hn
    · rw [Document.idOf, hadded.row.element]
      rfl
    · obtain ⟨e, he, helement⟩ := hadded.mem_rowContent_of_above h hlt hn
      have hid : ∀ e ∈ rowContent m, e.id = none := by
        simp [rowContent]
      rw [Document.idOf, helement, Option.bind_some, hid e he]

/-- What is computed with the new row is what was computed before. -/
theorem compute_eq
    (hids : d.ids = d.attachedIds)
    (hrow : m.RowApart)
    (hfree : ∀ a, a = container ∨ d.Above a container → d.hasClass a m.rowClass = false)
    {f : NodeId}
    (hf : f < d.size) :
    Formula.compute m placed f = Formula.compute m d f := by
  have hplaced := h.steps hadded.grown.steps
  have hempty := hadded.emptyRow h hlt hrow hfree
  -- with the row taken out, the rest is as it was
  obtain ⟨plain, hremove⟩ := hplaced.remove_of_element? hadded.row.element
  obtain ⟨hroot, hplain⟩ := hplaced.remove_spec hremove
  have hapart := hadded.grownApart_of_removed h hplain
  have hout : placed.outside d.size f = true := by
    rw [hplaced.outside_iff, not_or]
    refine ⟨Nat.ne_of_gt hf, fun habove => ?_⟩
    exact Nat.lt_irrefl _ (h.lt_of_above (h.above_of_grown hadded.grown hf habove))
  rw [← hempty.compute_of_removed hplaced hplain
      (Document.ids_of_steps h hids hadded.grown.steps) hroot hout,
    Formula.compute_of_grownApart h hids hapart hf]

end RowAdded

/-- A row that is added outside of all rows changes no formula and no other element. -/
theorem Settled.addRow_neutral
    {form : Form} {container : NodeId}
    (h : form.Settled)
    (hm : form.markup.InvalidApart)
    (hrow : form.markup.RowApart)
    (hcontainer : form.container = some container)
    (hfree : ∀ a, a = container ∨ form.document.Above a container →
      form.document.hasClass a form.markup.rowClass = false) :
    ∃ added, form.addRow = (added, .ok (some form.document.size)) ∧
      ∀ n, n < form.document.size →
        Formula.compute form.markup added.document n =
            Formula.compute form.markup form.document n ∧
          Option.Rel Element.Alike (form.document.element? n) (added.document.element? n) := by
  have hlt := h.container_lt hcontainer
  obtain ⟨_, _, placed, shown, hadded, hdone, hadd⟩ := h.addRow_eq hcontainer
  refine ⟨_, hadd, fun n hn => ?_⟩
  have hcompute : Formula.compute form.markup shown n =
      Formula.compute form.markup form.document n := by
    rw [Formula.compute_congr hm hdone.quiet,
      hadded.compute_eq h.wellFormed hlt h.ids hrow hfree hn]
  refine ⟨hcompute, ?_⟩
  apply h.alike_of_refreshed hm hdone _ _ (fun _ => hcompute)
  · exact fun _ => hadded.grown.element? n hn
  · rw [h.formulas, mem_withTag_of_grown_iff h.wellFormed hadded.grown hn]
  · rw [Document.element?_map_quiet hdone.quiet, hadded.grown.element? n hn]

end Form

namespace Session

/--
Every page opens. Whatever keys have been pressed on a page with a container, and if neither
the container nor anything above it is a row, a row can be added, and then every formula
that was there has the same value or error, shows the same text and is marked as invalid
or not as before. No other element that was there has changed either.
-/
theorem emptyRow_pressAll
    (page : Page)
    (m : Markup)
    (hrow_grade : m.rowClass ≠ m.gradeClass)
    (hrow_credit : m.rowClass ≠ m.creditClass)
    (hrow_remove : m.rowClass ≠ m.removeClass)
    (hrow : m.invalidClass ≠ m.rowClass)
    (hgrade : m.invalidClass ≠ m.gradeClass)
    (hcredit : m.invalidClass ≠ m.creditClass)
    (strokes : List Stroke) :
    ∃ opened reached,
      ofPage page m = .ok opened ∧
      opened.pressAll strokes = reached ∧
      ∀ container, reached.form.container = some container →
        (∀ a, a = container ∨ reached.document.Above a container →
          reached.document.hasClass a m.rowClass = false) →
        ∃ added, reached.form.addRow = (added, .ok (some reached.document.size)) ∧
          (∀ f ∈ reached.form.formulas,
            Formula.compute m added.document f = Formula.compute m reached.document f ∧
            added.document.text? f = reached.document.text? f ∧
            added.document.hasClass f m.invalidClass =
              reached.document.hasClass f m.invalidClass) ∧
          ∀ n, n < reached.document.size →
            Option.Rel Element.Alike (reached.document.element? n)
              (added.document.element? n) := by
  obtain ⟨opened, hopened, hfirst⟩ := ofPage_spec page m
  have hup := hfirst.pressAll strokes
  refine ⟨opened, _, hopened, rfl, ?_⟩
  generalize opened.pressAll strokes = s at hup
  obtain rfl := hup.markup
  intro container hcontainer hfree
  obtain ⟨added, hadd, hneutral⟩ :=
    hup.settled.addRow_neutral ⟨hrow, hgrade, hcredit⟩ ⟨hrow_grade, hrow_credit, hrow_remove⟩
      hcontainer hfree
  refine ⟨added, hadd, ?_, fun n hn => (hneutral n hn).2⟩
  intro f hf
  obtain ⟨e, he⟩ := hup.settled.element_of_mem_formulas hf
  obtain ⟨hcompute, halike⟩ := hneutral f (Document.lt_size_of_element? he)
  exact ⟨hcompute, Document.text?_of_alike halike, Document.hasClass_of_alike halike _⟩

/-- A page with an average of the rows in its container and one of all its rows. -/
def twoAverages : Page where
  title := "Grades"
  body :=
    .cons { tag := "div", id := some "gpa-container" }
      (.cons { tag := "div", classes := ["gpa-row"] }
        (.cons { tag := "input", classes := ["grade"], value := some "1" } .nil
          (.cons { tag := "input", classes := ["credit"], value := some "3" } .nil .nil))
        (.cons { tag := "formula", attrs := [("evaluator", "calculateGPA")] } .nil .nil))
      (.cons { tag := "div", classes := ["gpa-row"] }
        (.cons { tag := "input", classes := ["grade"], value := some "none" } .nil
          (.cons { tag := "input", classes := ["credit"], value := some "1" } .nil .nil))
        (.cons { tag := "formula", attrs := [("evaluator", "calculateGPA")] } .nil .nil))

/-- The new row comes behind the first row and in front of the second, which is bad. One
average keeps its number and the other one its error. -/
theorem emptyRow_pressAll_twoAverages :
    ({} : Markup).rowClass ≠ ({} : Markup).gradeClass ∧
    ({} : Markup).rowClass ≠ ({} : Markup).creditClass ∧
    ({} : Markup).rowClass ≠ ({} : Markup).removeClass ∧
    ({} : Markup).invalidClass ≠ ({} : Markup).rowClass ∧
    ({} : Markup).invalidClass ≠ ({} : Markup).gradeClass ∧
    ({} : Markup).invalidClass ≠ ({} : Markup).creditClass ∧
    ∃ opened reached added,
      ofPage twoAverages {} = .ok opened ∧
      opened.pressAll [{ key := .char '4' }] = reached ∧
      reached.form.addRow = (added, .ok (some 10)) ∧
      added.document.text? 5 = some "14" ∧
      added.document.hasClass 5 "invalid" = false ∧
      added.document.text? 9 = some "Invalid Formula" ∧
      added.document.hasClass 9 "invalid" = true := by
  refine ⟨by decide, by decide, by decide, by decide, by decide, by decide, ?_⟩
  obtain ⟨opened, reached, hopened, hreached, hneutral⟩ :=
    emptyRow_pressAll twoAverages {} (by decide) (by decide) (by decide) (by decide)
      (by decide) (by decide) [{ key := .char '4' }]
  have hwell : reached.document.WellFormed := by
    obtain ⟨first, hfirst, hup⟩ := ofPage_spec twoAverages {}
    obtain rfl : opened = first := Except.ok.inj (hopened.symm.trans hfirst)
    rw [← hreached]
    exact (hup.pressAll _).settled.wellFormed
  have hfacts : (ofPage twoAverages {}).map (fun s =>
      let t := s.pressAll [{ key := .char '4' }]
      let d := t.document
      decide ((d.size = 10 ∧ t.form.container = some 1 ∧ t.form.formulas = [5, 9] ∧
          d.closestWithClass 1 "gpa-row" = none) ∧
        d.text? 5 = some "14" ∧ d.hasClass 5 "invalid" = false ∧
          d.text? 9 = some "Invalid Formula" ∧ d.hasClass 9 "invalid" = true)) = .ok true := by
    decide +kernel
  rw [hopened] at hfacts
  have hfacts := of_decide_eq_true (Except.ok.inj hfacts)
  rw [hreached] at hfacts
  obtain ⟨⟨hsize, hcontainer, hformulas, hclosest⟩, htext₅, hclass₅, htext₉, hclass₉⟩ := hfacts
  obtain ⟨added, hadd, hkept, _⟩ :=
    hneutral 1 hcontainer (hwell.closestWithClass_eq_none_iff.mp hclosest)
  rw [hsize] at hadd
  rw [hformulas] at hkept
  obtain ⟨_, htext₅', hclass₅'⟩ := hkept 5 (by decide)
  obtain ⟨_, htext₉', hclass₉'⟩ := hkept 9 (by decide)
  exact ⟨opened, reached, added, hopened, hreached, hadd, htext₅'.trans htext₅,
    hclass₅'.trans hclass₅, htext₉'.trans htext₉, hclass₉'.trans hclass₉⟩

end Session
end LiveForms
