import LiveForms.Proofs.Document.Apart
import LiveForms.Proofs.Session.Frame

/-!
# Live forms: what a click can reach

A click is heard only if it is on a button in the container. A button that adds a row changes
the children of the container. A button that removes a row takes out the nearest row around
it, and here it matters where this row is: one inside the container leaves with what is
below it, and nothing outside the container notices. But the container may itself be a row,
or lie in one; if no row is nearer, this row leaves, and takes the container with it.

Main definitions:

* `Form.Reacts`, `Form.Removes`: clicks that are heard, and those that remove a row.
* `Document.KeptOutside`: nothing changes outside a subtree.

Main statements:

* `Form.Settled.click_keptOutside`, `Form.Settled.click_of_surrounding`: what a click does if
  the row is inside the container, and if it is not.
* `Session.click_pressAll`: every click, after all keys.
-/

namespace LiveForms

namespace Document

/-- Outside the subtree of `n`, every node that was there keeps its parent and its children. -/
structure KeptOutside (d d' : Document) (n : NodeId) : Prop where
  parent? : ∀ k, k < d.size → d.outside n k = true → d'.parent? k = d.parent? k
  children : ∀ k, k < d.size → d.outside n k = true → d'.children k = d.children k

variable {d d' : Document}

theorem KeptOutside.refl
    (d : Document)
    (n : NodeId) :
    d.KeptOutside d n :=
  ⟨fun _ _ _ => rfl, fun _ _ _ => rfl⟩

/-- A recomputation changes no links. -/
theorem KeptOutside.of_quiet
    {d'' : Document} {n : NodeId} {name : String}
    (h : d.KeptOutside d' n)
    (hquiet : d''.quiet name = d'.quiet name) :
    d.KeptOutside d'' n where
  parent? k hk hout := (parent?_of_quiet hquiet k).trans (h.parent? k hk hout)
  children k hk hout := (children_of_quiet hquiet k).trans (h.children k hk hout)

namespace WellFormed

variable (h : d.WellFormed)
include h

/-- Of the nodes in the tree, those outside a subtree that is taken out stay in it. -/
theorem isAttached_of_removed
    {n m : NodeId}
    (hroot : n ≠ root)
    (hd : Removed d d' n)
    (hm : d.isAttached m = true) :
    d'.isAttached m = d.outside n m := by
  rw [Bool.eq_iff_iff, (h.removed hd).isAttached_iff_mem,
    h.descendants_of_removed hd (h.outside_root hroot), List.mem_filter]
  constructor
  · rintro (rfl | hmem)
    · exact h.outside_root hroot
    · exact hmem.2
  · intro hout
    exact (h.isAttached_iff_mem.mp hm).imp_right fun hmem => ⟨hmem, hout⟩

/-- What lies below a node leaves all alone that is outside. -/
theorem keptOutside_of_removed
    {container row : NodeId}
    (hrow : d.Above container row)
    (hd : Removed d d' row) :
    d.KeptOutside d' container where
  parent? k _ hout := by
    rw [hd.parent?, if_neg]
    rintro rfl
    exact h.outside_iff.mp hout (.inr hrow)
  children k _ hout := by
    rw [hd.children]
    apply h.filter_children
    intro hk
    refine h.outside_iff.mp hout ?_
    exact (above_iff_of_parent? hk).mp hrow

/-- A row that comes in is news for the container only. -/
theorem keptOutside_of_rowAdded
    {m : Markup} {container : NodeId} {before after : List NodeId}
    (hd : Form.RowAdded m d d' container before after) :
    d.KeptOutside d' container where
  parent? k hk _ := hd.grown.parent? k hk
  children k hk hout := by
    rw [hd.children k hk, if_neg]
    rintro rfl
    exact h.outside_iff.mp hout (.inl rfl)

end WellFormed
end Document

namespace Form

/-- A click on a node is heard: it is in the container and has the class of a button for rows. -/
def Reacts (form : Form) (n : NodeId) : Prop :=
  form.insideContainer n = true ∧
    (form.document.hasClass n form.markup.addClass = true ∨
      form.document.hasClass n form.markup.removeClass = true)

/-- A click on `n` removes `row`. -/
structure Removes (form : Form) (n row : NodeId) : Prop where
  inside : form.insideContainer n = true
  not_adds : form.document.hasClass n form.markup.addClass = false
  removes : form.document.hasClass n form.markup.removeClass = true
  nearest : form.document.Nearest form.markup.rowClass n row

/-- An operation succeeded, and left the container in the tree and alone what is outside. -/
def StaysInside {α : Type} (form : Form) (container : NodeId)
    (outcome : Form × Except DocumentError α) : Prop :=
  ∃ form' result, outcome = (form', .ok result) ∧
    form'.document.isAttached container = true ∧
    form.document.KeptOutside form'.document container

variable {form : Form} {n container : NodeId}

theorem click_of_not_reacts
    (hn : ¬ form.Reacts n) :
    form.click n = (form, .ok .ignored) := by
  rw [click]
  split
  · rfl
  · rename_i hinside
    rw [Bool.not_eq_true', Bool.not_eq_false] at hinside
    obtain ⟨hadds, hremoves⟩ := not_or.mp fun hclass => hn ⟨hinside, hclass⟩
    rw [if_neg hadds, if_neg hremoves]

theorem Removes.click_eq
    {row : NodeId}
    (hrow : form.Removes n row) :
    form.click n = action .removed (form.removeRow n) := by
  rw [click, if_neg (by simp [hrow.inside]), if_neg (by simp [hrow.not_adds]),
    if_pos hrow.removes]

namespace Settled

variable (h : form.Settled)
include h

theorem insideContainer_iff
    (hcontainer : form.container = some container) :
    form.insideContainer n = true ↔ n = container ∨ form.document.Above container n := by
  rw [insideContainer, hcontainer]
  simp only [Bool.or_eq_true, decide_eq_true_eq, h.wellFormed.isDescendantOf_iff]

/-- On the way up from the button, a row outside the container comes after it. -/
theorem above_of_removes
    {row : NodeId}
    (hcontainer : form.container = some container)
    (hrow : form.Removes n row)
    (hout : form.document.outside row container = true) :
    form.document.Above container row := by
  have hinside := (h.insideContainer_iff hcontainer).mp hrow.inside
  rw [h.wellFormed.outside_iff, not_or] at hout
  rcases Document.above_total (hinside.imp_left Eq.symm) hrow.nearest.reached with
    heq | hbelow | hover
  · exact absurd heq.symm hout.1
  · exact hbelow
  · exact absurd hover hout.2

theorem click_of_removes
    {row : NodeId}
    (hrow : form.Removes n row) :
    ∃ removed shown, form.document.Removed removed row ∧
      shown.quiet form.markup.invalidClass = removed.quiet form.markup.invalidClass ∧
      shown.WellFormed ∧
      form.click n = (form.renewed removed shown, .ok (.removed row)) := by
  obtain ⟨removed, shown, hremoved, hdone, hremove⟩ :=
    h.removeRow_eq (h.wellFormed.closestWithClass_eq_some_iff.mpr hrow.nearest)
  refine ⟨removed, shown, hremoved, hdone.quiet,
    (h.wellFormed.removed hremoved).steps hdone.steps, ?_⟩
  rw [hrow.click_eq, hremove, action]

/-- A row inside the container leaves without it. -/
theorem click_of_inside
    {row : NodeId}
    (hcontainer : form.container = some container)
    (hrow : form.Removes n row)
    (hout : form.document.outside row container = true) :
    form.StaysInside container (form.click n) := by
  have hdoc := h.wellFormed
  have hattached := (h.firstWithId_container hcontainer).attached
  obtain ⟨removed, shown, hremoved, hquiet, hshown, hclick⟩ := h.click_of_removes hrow
  obtain ⟨e, he, _⟩ := Document.nodeIs_iff.mp hrow.nearest.hasClass
  refine ⟨_, _, hclick, ?_, ?_⟩
  · show shown.isAttached container = true
    rw [Document.isAttached_of_quiet hquiet (hdoc.removed hremoved) hshown,
      hdoc.isAttached_of_removed (hdoc.ne_root_of_element? he) hremoved hattached, hout]
  · have hbelow := h.above_of_removes hcontainer hrow hout
    exact (hdoc.keptOutside_of_removed hbelow hremoved).of_quiet hquiet

/-- A row that is the container or surrounds it leaves the tree, and the container with it. -/
theorem click_of_surrounding
    {row : NodeId}
    (hcontainer : form.container = some container)
    (hrow : form.Removes n row)
    (hin : form.document.outside row container = false) :
    ∃ form' parent, form.click n = (form', .ok (.removed row)) ∧
      form'.document.isAttached container = false ∧
      form.document.RowUnlinked form'.document parent row := by
  have hdoc := h.wellFormed
  have hfirst := h.firstWithId_container hcontainer
  obtain ⟨removed, shown, hremoved, hquiet, hshown, hclick⟩ := h.click_of_removes hrow
  obtain ⟨e, he, _⟩ := Document.nodeIs_iff.mp hrow.nearest.hasClass
  obtain ⟨_, hholder, _⟩ := Option.bind_eq_some_iff.mp hfirst.idOf
  have hbelow : form.document.Above Document.root container :=
    (hdoc.isAttached_iff.mp hfirst.attached).resolve_left (hdoc.ne_root_of_element? hholder)
  have hreached : row = container ∨ form.document.Above row container := by
    by_contra hnot
    rw [hdoc.outside_iff.mpr hnot] at hin
    cases hin
  obtain ⟨parent, hparent⟩ := hdoc.exists_parent_of_reached hbelow hreached he
  refine ⟨_, parent, hclick, ?_, ?_⟩
  · show shown.isAttached container = false
    rw [Document.isAttached_of_quiet hquiet (hdoc.removed hremoved) hshown,
      hdoc.isAttached_of_removed (hdoc.ne_root_of_element? he) hremoved hfirst.attached, hin]
  · have hunlinked : form.document.RowUnlinked removed parent row :=
      ⟨hremoved.size, hparent, hremoved.parent?, hdoc.children_of_removed hremoved hparent⟩
    exact hunlinked.of_quiet hquiet

theorem click_of_adds
    (hcontainer : form.container = some container)
    (hinside : form.insideContainer n = true)
    (hadds : form.document.hasClass n form.markup.addClass = true) :
    form.StaysInside container (form.click n) := by
  have hdoc := h.wellFormed
  obtain ⟨_, _, placed, shown, hadded, hdone, hadd⟩ := h.addRow_eq hcontainer
  have hplaced := hdoc.steps hadded.grown.steps
  refine ⟨form.renewed placed shown, .added form.document.size, ?_, ?_, ?_⟩
  · rw [click, if_neg (by simp [hinside]), if_pos hadds, hadd, action]
  · show shown.isAttached container = true
    rw [Document.isAttached_of_quiet hdone.quiet hplaced (hplaced.steps hdone.steps),
      hdoc.isAttached_of_grown hadded.grown (h.container_lt hcontainer),
      (h.firstWithId_container hcontainer).attached]
  · exact (hdoc.keptOutside_of_rowAdded hadded).of_quiet hdone.quiet

/-- A click that is not heard, or finds no row, changes nothing. -/
theorem staysInside_of_ignored
    (hcontainer : form.container = some container)
    (hclick : form.click n = (form, .ok .ignored)) :
    form.StaysInside container (form.click n) :=
  ⟨form, .ignored, hclick, (h.firstWithId_container hcontainer).attached, .refl _ _⟩

/-- A click that does not remove the container stays inside it. -/
theorem staysInside_click
    (hcontainer : form.container = some container)
    (hout : ∀ row, form.Removes n row → form.document.outside row container = true) :
    form.StaysInside container (form.click n) := by
  by_cases hreacts : form.Reacts n
  · obtain ⟨hinside, hclass⟩ := hreacts
    by_cases hadds : form.document.hasClass n form.markup.addClass = true
    · exact h.click_of_adds hcontainer hinside hadds
    · have hremoves := hclass.resolve_left hadds
      cases hrow : form.document.closestWithClass n form.markup.rowClass with
      | none =>
          refine h.staysInside_of_ignored hcontainer ?_
          rw [click, if_neg (by simp [hinside]), if_neg hadds, if_pos hremoves, removeRow, hrow,
            action]
      | some row =>
          have hrow' : form.Removes n row :=
            ⟨hinside, Bool.eq_false_iff.mpr hadds, hremoves,
              h.wellFormed.closestWithClass_eq_some_iff.mp hrow⟩
          exact h.click_of_inside hcontainer hrow' (hout row hrow')
  · exact h.staysInside_of_ignored hcontainer (click_of_not_reacts hreacts)

end Settled
end Form

namespace Session

/--
Every page opens. Whatever keys have been pressed after that, a click on a node changes
nothing if the page has no container, if the node is not in the container, or if it has
none of the two classes of buttons for rows. A click that does not remove the container, or
a row around it, leaves the container in the tree, and outside the container no node that
was there gets another parent or other children. If the nearest row around a button that
removes rows is the container or surrounds it, this row leaves its parent and takes the
container with it, and all other links stay.
-/
theorem click_pressAll
    (page : Page)
    (m : Markup)
    (strokes : List Stroke)
    (target : NodeId) :
    ∃ opened reached,
      ofPage page m = .ok opened ∧
      opened.pressAll strokes = reached ∧
      (reached.form.container = none →
        reached.form.click target = (reached.form, .ok .ignored)) ∧
      ∀ container, reached.form.container = some container →
        (¬ (target = container ∨ reached.document.Above container target) ∨
            reached.document.hasClass target m.addClass = false ∧
              reached.document.hasClass target m.removeClass = false →
          reached.form.click target = (reached.form, .ok .ignored)) ∧
        ((∀ row, reached.form.Removes target row →
            reached.document.outside row container = true) →
          reached.form.StaysInside container (reached.form.click target)) ∧
        ∀ row, reached.form.Removes target row →
          reached.document.outside row container = false →
          ∃ form parent, reached.form.click target = (form, .ok (.removed row)) ∧
            form.document.isAttached container = false ∧
            reached.document.RowUnlinked form.document parent row := by
  obtain ⟨opened, hopened, hfirst⟩ := ofPage_spec page m
  have hup := hfirst.pressAll strokes
  refine ⟨opened, _, hopened, rfl, ?_, fun container hcontainer => ⟨?_, ?_, ?_⟩⟩
  · intro hnone
    refine Form.click_of_not_reacts fun hreacts => ?_
    have hinside := hreacts.1
    rw [Form.insideContainer, hnone] at hinside
    cases hinside
  · intro hout
    refine Form.click_of_not_reacts fun hreacts => ?_
    rw [Form.Reacts, hup.settled.insideContainer_iff hcontainer, hup.markup] at hreacts
    rcases hout with hout | ⟨hadds, hremoves⟩
    · exact hout hreacts.1
    · rcases hreacts.2 with hclass | hclass
      · exact Bool.false_ne_true (hadds.symm.trans hclass)
      · exact Bool.false_ne_true (hremoves.symm.trans hclass)
  · exact hup.settled.staysInside_click hcontainer
  · intro row hrow hin
    exact hup.settled.click_of_surrounding hcontainer hrow hin

/-- A page with its container in a row, and with two buttons in the container that remove
rows, one of them in a row of its own. -/
def rowAroundContainer : Page where
  title := "Grades"
  body :=
    .cons { tag := "div", classes := ["gpa-row"] }
      (.cons { tag := "div", id := some "gpa-container" }
        (.cons { tag := "div", classes := ["gpa-row"] }
          (.cons { tag := "button", classes := ["remove-course"] } .nil .nil)
          (.cons { tag := "button", classes := ["remove-course"] } .nil .nil))
        .nil)
      .nil

/-- The second of these buttons takes the container out of the tree. -/
theorem not_staysInside_rowAroundContainer :
    ∃ opened form,
      ofPage rowAroundContainer {} = .ok opened ∧
      opened.form.container = some 2 ∧
      opened.document.Above 2 5 ∧
      opened.form.click 5 = (form, .ok (.removed 1)) ∧
      opened.document.isAttached 2 = true ∧ form.document.isAttached 2 = false ∧
      opened.document.outside 2 1 = true ∧
      opened.document.parent? 1 = some 0 ∧ form.document.parent? 1 = none ∧
      opened.document.children 0 = [1] ∧ form.document.children 0 = [] ∧
      ¬ opened.form.StaysInside 2 (opened.form.click 5) := by
  obtain ⟨opened, hopened, _⟩ := ofPage_spec rowAroundContainer {}
  have hfacts : (ofPage rowAroundContainer {}).map (fun s =>
      let form := (s.form.click 5).1
      decide (s.form.container = some 2 ∧ s.document.parent? 5 = some 2 ∧
        (s.form.click 5).2 = .ok (.removed 1) ∧
        s.document.isAttached 2 = true ∧ form.document.isAttached 2 = false ∧
        s.document.outside 2 1 = true ∧
        s.document.parent? 1 = some 0 ∧ form.document.parent? 1 = none ∧
        s.document.children 0 = [1] ∧ form.document.children 0 = [])) = .ok true := by
    decide +kernel
  rw [hopened] at hfacts
  obtain ⟨hcontainer, hbutton, hremoved, hattached, hdetached, hout, hparent, hnone, hchild, hnil⟩ :=
    of_decide_eq_true (Except.ok.inj hfacts)
  have hclick : opened.form.click 5 = ((opened.form.click 5).1, .ok (.removed 1)) :=
    Prod.ext rfl hremoved
  refine ⟨opened, _, hopened, hcontainer, Document.above_of_parent? hbutton, hclick, hattached,
    hdetached, hout, hparent, hnone, hchild, hnil, ?_⟩
  rintro ⟨form, action, hform, hkept, _⟩
  rw [hform] at hdetached
  exact Bool.false_ne_true (hdetached.symm.trans hkept)

/-- The first one takes out its own row. -/
theorem click_pressAll_rowAroundContainer :
    ∃ opened,
      ofPage rowAroundContainer {} = .ok opened ∧
      opened.form.container = some 2 ∧
      opened.form.Removes 4 3 ∧
      opened.form.StaysInside 2 (opened.form.click 4) ∧
      opened.form.Removes 5 1 ∧
      ∃ form parent, opened.form.click 5 = (form, .ok (.removed 1)) ∧
        form.document.isAttached 2 = false ∧
        opened.document.RowUnlinked form.document parent 1 := by
  obtain ⟨opened, first, hopened, hfirst, _, hinside⟩ :=
    click_pressAll rowAroundContainer {} [] 4
  obtain ⟨opened', second, hopened', hsecond, _, haround⟩ :=
    click_pressAll rowAroundContainer {} [] 5
  obtain rfl : opened = opened' := Except.ok.inj (hopened.symm.trans hopened')
  obtain rfl : opened = first := hfirst
  obtain rfl : opened = second := hsecond
  obtain ⟨_, hopened'', hup⟩ := ofPage_spec rowAroundContainer {}
  obtain rfl := Except.ok.inj (hopened.symm.trans hopened'')
  have hdoc := hup.settled.wellFormed
  have hfacts : (ofPage rowAroundContainer {}).map (fun s =>
      let inside := s.form.insideContainer
      let holds := s.document.hasClass
      decide (s.form.container = some 2 ∧ s.form.markup = {} ∧
        (inside 4 = true ∧ holds 4 "add-course" = false ∧ holds 4 "remove-course" = true ∧
          s.document.closestWithClass 4 "gpa-row" = some 3) ∧
        (inside 5 = true ∧ holds 5 "add-course" = false ∧ holds 5 "remove-course" = true ∧
          s.document.closestWithClass 5 "gpa-row" = some 1) ∧
        s.document.outside 3 2 = true ∧ s.document.outside 1 2 = false)) = .ok true := by
    decide +kernel
  rw [hopened] at hfacts
  obtain ⟨hcontainer, hmarkup, ⟨hin, hadds, hremoves, hrow⟩, ⟨hin', hadds', hremoves', hrow'⟩,
    hout, haround'⟩ := of_decide_eq_true (Except.ok.inj hfacts)
  have hown : opened.form.Removes 4 3 :=
    ⟨hin, hmarkup ▸ hadds, hmarkup ▸ hremoves,
      hmarkup ▸ hdoc.closestWithClass_eq_some_iff.mp hrow⟩
  have hlast : opened.form.Removes 5 1 :=
    ⟨hin', hmarkup ▸ hadds', hmarkup ▸ hremoves',
      hmarkup ▸ hdoc.closestWithClass_eq_some_iff.mp hrow'⟩
  refine ⟨opened, hopened, hcontainer, hown, ?_, hlast, ?_⟩
  · refine (hinside 2 hcontainer).2.1 fun row hrow'' => ?_
    have hnearest := hdoc.closestWithClass_eq_some_iff.mpr hrow''.nearest
    rw [hmarkup] at hnearest
    obtain rfl := Option.some.inj (hrow.symm.trans hnearest)
    exact hout
  · exact (haround 2 hcontainer).2.2 1 hlast haround'

end Session
end LiveForms
