import LiveForms.Proofs.Session.Frame

/-!
# Live forms: the focus stays on a control

The focus is a position in the list of the controls, and this list gets longer and shorter
when rows come and go. Keys that move the focus wrap around; a row that comes in leaves all
controls in the list, and gets the focus; a row that goes moves the focus back to the end of
the list if that is shorter now. So the focus is always on a control as long as there is one.

Main definitions:

* `Session.FocusOnControl`: the focus is on a control.
* `Session.RowFocused`: the focus is on the grade cell of the row that was added.

Main statements:

* `Session.UpToDate.focusOnControl_stroke`: what one key keeps.
* `Session.focus_pressAll`: where the focus is after all keys, and after a row was added.
-/

namespace LiveForms

namespace Form

variable {m : Markup} {form : Form}

/-- Controls are told by their tags, so a recomputation keeps them. -/
theorem controls_of_quiet
    {d d' : Document} {name : String}
    (hquiet : d'.quiet name = d.quiet name) :
    d'.findAll Document.root (isControl m) = d.findAll Document.root (isControl m) :=
  Document.findAll_of_quiet hquiet (fun _ => rfl) Document.root

/-- The cell for the grade is the first node of a new row, and an input with its class. -/
theorem IsNewRow.grade
    {d d' : Document} {row : NodeId}
    (hrow : IsNewRow m d row)
    (hgrade : m.invalidClass ≠ m.gradeClass)
    (hquiet : d'.quiet m.invalidClass = d.quiet m.invalidClass) :
    ∃ e, d'.element? (row + 1) = some e ∧ e.isInput = true ∧ e.hasClass m.gradeClass = true := by
  have hcell := hrow.inside 0 _ rfl
  obtain ⟨e, he, hsame⟩ := Document.element?_of_quiet hquiet hcell
  have htag := (Element.sameIdentity_of_quiet hsame).tag
  refine ⟨e, he, ?_, ?_⟩
  · rw [Element.isInput, htag]
    rfl
  · rw [← Element.hasClass_quiet hgrade, hsame, Element.hasClass_quiet hgrade]
    simp [Element.hasClass]

theorem IsNewRow.firstWithClass
    {d d' : Document} {row : NodeId}
    (h' : d'.WellFormed)
    (hrow : IsNewRow m d row)
    (hgrade : m.invalidClass ≠ m.gradeClass)
    (hquiet : d'.quiet m.invalidClass = d.quiet m.invalidClass) :
    d'.firstWithClass row m.gradeClass = some (row + 1) := by
  obtain ⟨e, he, _, hclass⟩ := hrow.grade hgrade hquiet
  have hcell : d'.nodeIs (fun e => e.hasClass m.gradeClass) (row + 1) = true :=
    Document.nodeIs_iff.mpr ⟨e, he, hclass⟩
  rw [Document.firstWithClass, Document.findFirst, h'.descendants_eq,
    Document.children_of_quiet hquiet, hrow.children, List.flatMap_cons, List.cons_append,
    List.find?_cons_of_pos hcell]

namespace RowAdded

variable {d placed shown : Document} {container : NodeId} {before after : List NodeId}
variable (h : d.WellFormed) (hadded : RowAdded m d placed container before after)
variable (hquiet : shown.quiet m.invalidClass = placed.quiet m.invalidClass)
include h hadded hquiet

/-- No control is lost when a row is added. -/
theorem length_controls_le :
    (d.findAll Document.root (isControl m)).length ≤
      (shown.findAll Document.root (isControl m)).length := by
  rw [controls_of_quiet hquiet]
  exact h.length_findAll_le_of_grown hadded.grown (isControl m)

/-- The cell for the grade of a new row in the tree is a control. -/
theorem grade_mem_controls
    (hcontainer : d.isAttached container = true) :
    d.size + 1 ∈ shown.findAll Document.root (isControl m) := by
  have hcell := hadded.row.inside 0 _ rfl
  rw [controls_of_quiet hquiet, Document.findAll, List.mem_filter,
    (h.steps hadded.grown.steps).mem_descendants_iff, Document.nodeIs_iff]
  exact ⟨hadded.above_grade h hcontainer, _, hcell, rfl⟩

end RowAdded

end Form

namespace Session

/-- The focus is on a control; where there is none, it is at the start. -/
structure FocusOnControl (s : Session) : Prop where
  lt : s.focusables ≠ [] → s.focus < s.focusables.length
  zero : s.focusables = [] → s.focus = 0

theorem focusOnControl_iff
    {s : Session} :
    s.FocusOnControl ↔ s.focus ≤ s.focusables.length - 1 := by
  constructor
  · intro h
    by_cases hnil : s.focusables = []
    · rw [h.zero hnil]
      exact Nat.zero_le _
    · exact Nat.le_sub_one_of_lt (h.lt hnil)
  · intro h
    refine ⟨fun hne => ?_, fun hnil => ?_⟩
    · exact Nat.lt_of_le_sub_one (List.length_pos_iff.mpr hne) h
    · rw [hnil] at h
      exact Nat.le_zero.mp h

variable {m : Markup} {s : Session}

section OneKey

/-- Whatever a key does, the focus is not behind the last control. -/
theorem Effect.focus_le
    (h : s.UpToDate m)
    (hfocus : s.focus ≤ s.form.controls.length - 1)
    {adds : Prop} {form : Form} {focus : Nat}
    (heffect : s.Effect m adds form focus) :
    focus ≤ form.controls.length - 1 := by
  obtain rfl := h.markup
  cases heffect with
  | moved hmoved =>
      rcases hmoved with rfl | hlt
      · exact hfocus
      · exact Nat.le_sub_one_of_lt hlt
  | entered hn hd hdone =>
      have hcontrols := focusables_of_entered hd hdone.quiet
      rw [focusables_eq, focusables_eq] at hcontrols
      rw [hcontrols]
      exact hfocus
  | @added _ _ _ d shown hadds hcontainer hd hdone =>
      have hlength : s.form.controls.length ≤ (s.form.renewed d shown).controls.length :=
        hd.length_controls_le h.settled.wellFormed hdone.quiet
      rw [focusAfterAdding]
      cases hindex : (Document.firstWithClass _ _ _).bind (Form.controls _).idxOf? with
      | none => exact Nat.le_trans hfocus (Nat.sub_le_sub_right hlength 1)
      | some index =>
          obtain ⟨_, _, hindex⟩ := Option.bind_eq_some_iff.mp hindex
          exact Nat.le_sub_one_of_lt (List.idxOf?_eq_some_iff.mp hindex).1
  | removed => exact Nat.min_le_right _ _

theorem UpToDate.focusOnControl_stroke
    (h : s.UpToDate m)
    (hfocus : s.FocusOnControl)
    (k : Stroke) :
    (s.stroke k).FocusOnControl :=
  focusOnControl_iff.mpr ((h.effect_stroke k).focus_le h (focusOnControl_iff.mp hfocus))

end OneKey

section Rows

/-- A row is new in the container, and the focus is on its cell for the grade, the first
node inside it. -/
structure RowFocused (m : Markup) (s s' : Session) : Prop where
  linked : ∃ container before after,
    s.document.byId m.gpaContainerId = some container ∧
      s.document.RowLinked m s'.document container before after
  grade : ∃ e, s'.document.element? (s.document.size + 1) = some e ∧
    e.isInput = true ∧ e.hasClass m.gradeClass = true
  focused : s'.focused? = some (s.document.size + 1)

/-- After a new row was added, the focus goes to its first cell. -/
theorem UpToDate.getElem?_focusAfterAdding
    (h : s.UpToDate m)
    (hgrade : m.invalidClass ≠ m.gradeClass)
    {container : NodeId} {before after : List NodeId} {d shown : Document}
    (hcontainer : s.form.container = some container)
    (hd : Form.RowAdded m s.document d container before after)
    (hdone : Formula.Refreshed m d shown (d.withTag Document.root m.formulaTag))
    (focus : Nat) :
    (s.form.renewed d shown).controls[
      focusAfterAdding focus (s.form.renewed d shown, .ok (some s.document.size))]? =
        some (s.document.size + 1) := by
  obtain rfl := h.markup
  have hdoc := h.settled.wellFormed
  have hfirst : (s.form.renewed d shown).document.firstWithClass s.document.size
      (s.form.renewed d shown).markup.gradeClass = some (s.document.size + 1) :=
    hd.row.firstWithClass ((hdoc.steps hd.grown.steps).steps hdone.steps) hgrade hdone.quiet
  have hmem : s.document.size + 1 ∈ (s.form.renewed d shown).controls :=
    hd.grade_mem_controls hdoc hdone.quiet ((h.settled.firstWithId_container hcontainer).attached)
  rw [focusAfterAdding, hfirst, Option.bind_some]
  cases hindex : (s.form.renewed d shown).controls.idxOf? (s.document.size + 1) with
  | none => exact absurd hmem (List.idxOf?_eq_none_iff.mp hindex)
  | some index =>
      obtain ⟨hlt, hcell, _⟩ := List.idxOf?_eq_some_iff.mp hindex
      exact List.getElem?_eq_some_iff.mpr ⟨hlt, hcell⟩

/-- A key leaves the number of nodes as it was, or it has added a row. -/
theorem Effect.size_eq_or_added
    (h : s.UpToDate m)
    {s' : Session} {adds : Prop}
    (heffect : s.Effect m adds s'.form s'.focus) :
    s'.form.document.size = s.document.size ∨
      adds ∧ (∃ container, s.form.container = some container) ∧
        (m.invalidClass ≠ m.gradeClass → s.RowFocused m s') := by
  generalize hform : s'.form = form at heffect
  generalize hfocus : s'.focus = focus at heffect
  cases heffect with
  | moved => exact .inl rfl
  | entered hn hd hdone =>
      exact .inl ((Document.size_of_quiet hdone.quiet).trans hd.size)
  | @added container before after d shown hadds hcontainer hd hdone =>
      refine .inr ⟨hadds, ⟨container, hcontainer⟩, fun hgrade => ?_⟩
      have hdocument : s'.document = shown := by
        rw [document, hform]
        rfl
      refine ⟨⟨container, before, after, ?_, ?_⟩, ?_, ?_⟩
      · rw [← h.markup]
        exact h.settled.container.symm.trans hcontainer
      · rw [hdocument]
        exact hd.rowLinked.of_quiet hdone.quiet
      · rw [hdocument]
        exact hd.row.grade hgrade hdone.quiet
      · rw [focused?, focusables_eq, hform, hfocus]
        exact h.getElem?_focusAfterAdding hgrade hcontainer hd hdone s.focus
  | removed hn hrow hd hdone =>
      exact .inl ((Document.size_of_quiet hdone.quiet).trans hd.size)

/-- Where there are more nodes than before, a row was added, and the focus is on it. -/
theorem UpToDate.rowFocused_of_size_lt
    (h : s.UpToDate m)
    (hgrade : m.invalidClass ≠ m.gradeClass)
    {k : Stroke}
    (hsize : s.document.size < (s.stroke k).document.size) :
    s.RowFocused m (s.stroke k) := by
  rcases (h.effect_stroke k).size_eq_or_added h with hsame | ⟨_, _, hfocused⟩
  · exact absurd hsame (Nat.ne_of_gt hsize)
  · exact hfocused hgrade

theorem activate_of_onAddButton
    (hbutton : s.OnAddButton) :
    s.activate.form = s.form.addRow.1 := by
  obtain ⟨n, hn, hbutton, hinside, hclass⟩ := hbutton
  obtain ⟨e, he, hisButton⟩ := Document.nodeIs_iff.mp hbutton
  have hinput : s.document.nodeIs Element.isInput n = false := by
    rw [Document.nodeIs, he, Option.any_some, Element.isInput_of_isButton hisButton]
  have hactivate : s.activate = s.click n := by
    simp [activate, hn, hinput, hbutton]
  obtain ⟨_, _, hclick⟩ := click_eq s n
  rw [hactivate, hclick, Form.click, if_neg (by simp [hinside]), if_pos hclass]
  exact Form.action_fst .added s.form.addRow

/-- All these keys come down to the row operation of the form. -/
theorem AddsRow.form_stroke
    (hmode : s.mode = .normal)
    {k : Stroke}
    (hk : s.AddsRow k.key k.mods) :
    (s.stroke k).form = s.form.addRow.1 := by
  obtain ⟨key, mods, clipboard⟩ := k
  rw [stroke_of_normal hmode]
  cases hk with
  | letter =>
      obtain ⟨_, _, hadd⟩ := addRow_eq { s with status := none }
      rw [pressNormal_eq_command s clipboard (by simp) (by simp), command, hadd]
  | control hctrl =>
      obtain ⟨_, _, hadd⟩ := addRow_eq s
      rw [pressNormal, if_pos (by simpa using hctrl), hadd]
  | button _ hkey hbutton =>
      have hactivate : (activate { s with status := none }).form = s.form.addRow.1 :=
        activate_of_onAddButton hbutton
      simp only [List.mem_cons, List.not_mem_nil, or_false] at hkey
      rcases hkey with rfl | rfl | rfl
      all_goals
        rw [pressNormal_eq_command s clipboard (by simp) (by simp), command]
        exact hactivate

/-- The keys that add a row do so if the page has a container, and no other key does. -/
theorem UpToDate.size_lt_iff
    (h : s.UpToDate m)
    (k : Stroke) :
    s.document.size < (s.stroke k).document.size ↔
      s.mode = .normal ∧ s.AddsRow k.key k.mods ∧
        ∃ container, s.document.byId m.gpaContainerId = some container := by
  have hbyId : s.form.container = s.document.byId m.gpaContainerId :=
    h.markup ▸ h.settled.container
  constructor
  · intro hsize
    rcases (h.effect_stroke k).size_eq_or_added h with
      hsame | ⟨⟨hmode, hadds⟩, hcontainer, _⟩
    · exact absurd hsame (Nat.ne_of_gt hsize)
    · exact ⟨hmode, hadds, hbyId ▸ hcontainer⟩
  · rintro ⟨hmode, hadds, container, hcontainer⟩
    obtain ⟨_, _, _, d, hadded, hdone, hadd⟩ :=
      h.settled.addRow_eq (hbyId.trans hcontainer)
    rw [document, document, hadds.form_stroke hmode, hadd]
    show s.document.size < d.size
    rw [Document.size_of_quiet hdone.quiet, hadded.size]
    exact Nat.lt_add_of_pos_right (by decide)

end Rows

section AllKeys

theorem focusOnControl_of_ofPage
    {page : Page} {opened : Session}
    (hopened : ofPage page m = .ok opened) :
    opened.FocusOnControl := by
  rw [focusOnControl_iff]
  rw [ofPage] at hopened
  split at hopened
  · cases hopened
  · split at hopened
    · cases hopened
    · cases hopened
      exact Nat.zero_le _

/--
Every page opens, and whatever keys are pressed after that, the focus is on one of the
controls, or at zero if there are none. A key adds a row if and only if it is one of those
for that, in normal mode and on a page with a container; and as long as the class of an
invalid formula is not the one of the grades, the focus is then on the grade cell of the new
row, wherever this row has come to stand.
-/
theorem focus_pressAll
    (page : Page)
    (m : Markup)
    (strokes : List Stroke) :
    ∃ opened reached,
      ofPage page m = .ok opened ∧
      opened.pressAll strokes = reached ∧
      reached.FocusOnControl ∧
      ∀ k : Stroke,
        (reached.document.size < (reached.stroke k).document.size ↔
          reached.mode = .normal ∧ reached.AddsRow k.key k.mods ∧
            ∃ container, reached.document.byId m.gpaContainerId = some container) ∧
        (m.invalidClass ≠ m.gradeClass →
          reached.document.size < (reached.stroke k).document.size →
          reached.RowFocused m (reached.stroke k)) := by
  obtain ⟨opened, hopened, hfirst⟩ := ofPage_spec page m
  have h := hfirst.pressAll strokes
  refine ⟨opened, _, hopened, rfl, ?_, fun k => ⟨h.size_lt_iff k, ?_⟩⟩
  · exact hfirst.pressAll_induction (focusOnControl_of_ofPage hopened)
      fun _ hup hfocus k _ => hup.focusOnControl_stroke hfocus k
  · exact fun hgrade hsize => h.rowFocused_of_size_lt hgrade hsize

/-- The last control of the demo page is its button for rows. Going back from the first one
leads there, and pressing it leads to the new row. -/
theorem focus_pressAll_demo :
    ({} : Markup).invalidClass ≠ ({} : Markup).gradeClass ∧
    ∃ opened reached,
      ofPage Page.demo {} = .ok opened ∧
      opened.pressAll [{ key := .backTab }] = reached ∧
      reached.FocusOnControl ∧
      reached.document.size < (reached.stroke { key := .enter }).document.size ∧
      reached.RowFocused {} (reached.stroke { key := .enter }) := by
  refine ⟨by decide, ?_⟩
  obtain ⟨opened, reached, hopened, hreached, hfocus, hkeys⟩ :=
    focus_pressAll Page.demo {} [{ key := .backTab }]
  have hpressed : (ofPage Page.demo {}).map (fun s =>
      let reached := s.pressAll [{ key := .backTab }]
      decide (reached.document.size < (reached.stroke { key := .enter }).document.size)) =
        .ok true := by
    decide +kernel
  rw [hopened] at hpressed
  have hsize := of_decide_eq_true (Except.ok.inj hpressed)
  simp only [hreached] at hsize
  exact ⟨opened, reached, hopened, hreached, hfocus, hsize,
    (hkeys { key := .enter }).2 (by decide) hsize⟩

end AllKeys

end Session
end LiveForms
