import LiveForms.Proofs.Session.Steps

/-!
# Live forms: what one key does to the form and to the focus

In whatever mode a key is pressed, it does one of a few things to the form and to the focus.
The first relation says which, in the terms of the operations of the form, and asks nothing
of the session; it also says which keys add a row. In a session that is up to date none of
these operations is refused, and the second relation says what becomes of the document.

Main definitions:

* `Session.AddsRow`: the keys that add a row.
* `Session.KeyStep`: what a key does to the form and to the focus.
* `Session.Effect`: what it does to a session that is up to date.

Main statements:

* `Session.keyStep_press`: all keys, in any session.
* `Session.UpToDate.effect_press`: all keys, in a session that is up to date.
-/

namespace LiveForms

/-- The controls of a form in document order. -/
def Form.controls (form : Form) : List NodeId :=
  form.document.findAll Document.root (isControl form.markup)

namespace Session

variable (s : Session)

theorem focusables_eq : s.focusables = s.form.controls :=
  rfl

/-- Where the focus is after a row was added: on the first grade cell of this row, if that is
a control, and otherwise at the position where it was. -/
def focusAfterAdding (focus : Nat) : Form × Except DocumentError (Option NodeId) → Nat
  | (form, .ok (some row)) =>
      ((form.document.firstWithClass row form.markup.gradeClass).bind
        form.controls.idxOf?).getD focus
  | _ => focus

/-- Where the focus is after a row was removed: where it was, or on the last control. -/
def focusAfterRemoving (focus : Nat) : Form × Except DocumentError (Option NodeId) → Nat
  | (form, .ok (some _)) => min focus (form.controls.length - 1)
  | _ => focus

/-- What a key does to the form and to the focus, in any mode; it adds a row only if `adds`
holds. -/
inductive KeyStep (s : Session) (adds : Prop) : Form → Nat → Prop
  | kept : KeyStep s adds s.form s.focus
  | next
      (hcount : s.focusables.length ≠ 0) :
      KeyStep s adds s.form ((s.focus + 1) % s.focusables.length)
  | previous
      (hcount : s.focusables.length ≠ 0) :
      KeyStep s adds s.form ((s.focus + s.focusables.length - 1) % s.focusables.length)
  /-- A text is written into the input that has the focus, and all formulas follow. -/
  | entered
      {n : NodeId} {value : String} {d : Document}
      (hn : s.focusedInput? = some n)
      (hd : s.document.setValue n value = .ok d) :
      KeyStep s adds (Form.update { s.form with document := d }).1 s.focus
  | added
      (hadds : adds) :
      KeyStep s adds s.form.addRow.1 (focusAfterAdding s.focus s.form.addRow)
  /-- The row around the focus is removed. -/
  | removed
      {n : NodeId}
      (hn : s.focused? = some n) :
      KeyStep s adds (s.form.removeRow n).1 (focusAfterRemoving s.focus (s.form.removeRow n))

/-- The focus is on a button that adds a row. -/
def OnAddButton (s : Session) : Prop :=
  ∃ n, s.focused? = some n ∧ s.document.nodeIs Element.isButton n = true ∧
    s.form.insideContainer n = true ∧ s.document.hasClass n s.markup.addClass = true

/-- The keys that add a row in normal mode: the two commands, and the keys that press a
button if the focus is on one for that. -/
inductive AddsRow (s : Session) : Key → Modifiers → Prop
  | letter
      (mods : Modifiers) :
      AddsRow s (.char 'a') mods
  | control
      {mods : Modifiers}
      (hctrl : mods.ctrl = true) :
      AddsRow s (.char 'n') mods
  | button
      {key : Key}
      (mods : Modifiers)
      (hkey : key ∈ [.enter, .function 2, .char ' '])
      (hbutton : s.OnAddButton) :
      AddsRow s key mods

theorem afterRowAdded_focus
    (row : NodeId) :
    (s.afterRowAdded row).focus = focusAfterAdding s.focus (s.form, .ok (some row)) := by
  simp only [afterRowAdded, focusAfterAdding]
  cases s.document.firstWithClass row s.markup.gradeClass with
  | none => rfl
  | some cell =>
      simp only [focusNode, focusables_eq, Option.bind_some]
      cases s.form.controls.idxOf? cell <;> rfl

theorem afterRowRemoved_focus
    (row : NodeId) :
    s.afterRowRemoved.focus = focusAfterRemoving s.focus (s.form, .ok (some row)) := by
  show s.clampFocus.focus = min s.focus (s.focusables.length - 1)
  simp only [clampFocus]
  split
  · rename_i hcount
    exact (Nat.min_eq_right (Nat.le_trans (Nat.sub_le _ _) hcount)).symm
  · rename_i hcount
    exact (Nat.min_eq_left (Nat.le_sub_one_of_lt (Nat.lt_of_not_le hcount))).symm

/-- A click on a button that adds a row does what the command does. -/
theorem click_of_added
    {n : NodeId}
    (hclick : s.form.click n = Form.action .added s.form.addRow) :
    (s.click n).form = s.addRow.form ∧ (s.click n).focus = s.addRow.focus := by
  rw [click, hclick, addRow]
  obtain ⟨form, _ | _ | row⟩ := s.form.addRow
  · exact ⟨rfl, rfl⟩
  · exact ⟨rfl, rfl⟩
  · exact ⟨rfl, rfl⟩

theorem click_of_removed
    {n : NodeId}
    (hn : s.focused? = some n)
    (hclick : s.form.click n = Form.action .removed (s.form.removeRow n)) :
    (s.click n).form = s.removeFocusedRow.form ∧
      (s.click n).focus = s.removeFocusedRow.focus := by
  rw [click, hclick, removeFocusedRow, hn]
  simp only
  obtain ⟨form, _ | _ | row⟩ := s.form.removeRow n
  · exact ⟨rfl, rfl⟩
  · exact ⟨rfl, rfl⟩
  · exact ⟨rfl, rfl⟩

namespace KeyStep

variable {s} {adds : Prop}

/-- Only the form and the focus matter. -/
theorem of_eq
    {s' : Session} {form : Form} {focus : Nat}
    (h : s'.KeyStep adds form focus)
    (hform : s'.form = s.form)
    (hfocus : s'.focus = s.focus) :
    s.KeyStep adds form focus := by
  cases s
  cases s'
  cases hform
  cases hfocus
  cases h with
  | kept => exact .kept
  | next hcount => exact .next hcount
  | previous hcount => exact .previous hcount
  | entered hn hd => exact .entered hn hd
  | added hadds => exact .added hadds
  | removed hn => exact .removed hn

theorem focusNext : s.KeyStep adds s.focusNext.form s.focusNext.focus := by
  simp only [Session.focusNext]
  split
  · exact .kept
  · rename_i hcount
    exact .next hcount

theorem focusPrevious : s.KeyStep adds s.focusPrevious.form s.focusPrevious.focus := by
  simp only [Session.focusPrevious]
  split
  · exact .kept
  · rename_i hcount
    exact .previous hcount

theorem afterRowAdded
    {form : Form} {row : NodeId}
    (hadds : adds)
    (hadd : s.form.addRow = (form, .ok (some row))) :
    s.KeyStep adds (Session.afterRowAdded { s with form := form } row).form
      (Session.afterRowAdded { s with form := form } row).focus := by
  have hstep := KeyStep.added (s := s) hadds
  rw [hadd] at hstep
  obtain ⟨_, _, hform⟩ := afterRowAdded_eq { s with form := form } row
  rw [afterRowAdded_focus, hform]
  exact hstep

theorem afterRowRemoved
    {form : Form} {n row : NodeId}
    (hn : s.focused? = some n)
    (hremove : s.form.removeRow n = (form, .ok (some row))) :
    s.KeyStep adds (Session.afterRowRemoved { s with form := form }).form
      (Session.afterRowRemoved { s with form := form }).focus := by
  have hstep : s.KeyStep adds _ _ := .removed hn
  rw [hremove] at hstep
  obtain ⟨_, _, hform⟩ := afterRowRemoved_eq { s with form := form }
  rw [afterRowRemoved_focus _ row, hform]
  exact hstep

theorem addRow
    (hadds : adds) :
    s.KeyStep adds s.addRow.form s.addRow.focus := by
  rw [Session.addRow]
  have hstep := KeyStep.added (s := s) hadds
  split
  · rename_i hadd
    exact afterRowAdded hadds hadd
  all_goals
    rename_i hadd
    rw [hadd] at hstep
    exact hstep

theorem removeFocusedRow : s.KeyStep adds s.removeFocusedRow.form s.removeFocusedRow.focus := by
  rw [Session.removeFocusedRow]
  cases hn : s.focused? with
  | none => exact .kept
  | some n =>
      have hstep : s.KeyStep adds _ _ := .removed hn
      simp only
      split
      · rename_i hremove
        exact afterRowRemoved hn hremove
      all_goals
        rename_i hremove
        rw [hremove] at hstep
        exact hstep

theorem click
    {n : NodeId}
    (hn : s.focused? = some n)
    (hadds : s.form.insideContainer n = true →
      s.document.hasClass n s.markup.addClass = true → adds) :
    s.KeyStep adds (s.click n).form (s.click n).focus := by
  rcases s.form.click_cases n with hclick | ⟨hinside, hclass, hclick⟩ | hclick
  · rw [Session.click, hclick]
    exact .kept
  · obtain ⟨hform, hfocus⟩ := s.click_of_added hclick
    rw [hform, hfocus]
    exact .addRow (hadds hinside hclass)
  · obtain ⟨hform, hfocus⟩ := s.click_of_removed hn hclick
    rw [hform, hfocus]
    exact .removeFocusedRow

theorem startEditing : s.KeyStep adds s.startEditing.form s.startEditing.focus := by
  rw [Session.startEditing]
  split
  · exact .kept
  · exact .kept

theorem activate
    (hadds : s.OnAddButton → adds) :
    s.KeyStep adds s.activate.form s.activate.focus := by
  rw [Session.activate]
  split
  · exact .kept
  · rename_i n hn
    split
    · exact .startEditing
    · split
      · rename_i hbutton
        exact .click hn fun hinside hclass => hadds ⟨n, hn, hbutton, hinside, hclass⟩
      · exact .kept

theorem change
    (b : EditBuffer) :
    s.KeyStep adds (s.change b).form (s.change b).focus := by
  rw [Session.change]
  cases hn : s.focusedInput? with
  | none =>
      rw [applyBuffer_of_focusedInput?_none { s with buffer := b } hn]
      exact .kept
  | some n =>
      obtain ⟨d, status, hd, happly⟩ :=
        applyBuffer_of_focusedInput? { s with buffer := b } hn
      rw [happly]
      exact .entered hn hd

theorem clearFocused : s.KeyStep adds s.clearFocused.form s.clearFocused.focus := by
  rw [Session.clearFocused]
  split
  · exact .kept
  · exact .change _

theorem editWith
    (c : Char) :
    s.KeyStep adds (s.editWith c).form (s.editWith c).focus := by
  simp only [Session.editWith]
  split
  · have hchange : s.startEditing.KeyStep adds (s.startEditing.insertChar c).form
        (s.startEditing.insertChar c).focus :=
      .change _
    have hstart : s.startEditing.form = s.form ∧ s.startEditing.focus = s.focus := by
      rw [Session.startEditing]
      split
      · exact ⟨rfl, rfl⟩
      · exact ⟨rfl, rfl⟩
    exact hchange.of_eq hstart.1 hstart.2
  · exact .startEditing

theorem copy
    (clipboard : Clipboard) :
    s.KeyStep adds (s.copy clipboard).form (s.copy clipboard).focus := by
  obtain ⟨status, h⟩ := copy_eq s clipboard
  rw [h]
  exact .kept

theorem command
    (clipboard : Clipboard)
    {key : Key} {mods : Modifiers}
    (hadds : s.AddsRow key mods → adds) :
    s.KeyStep adds (s.command clipboard key).form (s.command clipboard key).focus := by
  have hbutton : key ∈ [.enter, .function 2, .char ' '] → s.OnAddButton → adds :=
    fun hkey hbutton => hadds (.button mods hkey hbutton)
  unfold Session.command
  split
  · exact .focusNext
  · exact .focusNext
  · exact .focusPrevious
  · exact .focusPrevious
  · exact .activate (hbutton (by simp))
  · exact .kept
  · exact .activate (hbutton (by simp))
  · exact .removeFocusedRow
  · exact .clearFocused
  · exact .focusNext
  · exact .focusPrevious
  · exact .activate (hbutton (by simp))
  · exact .addRow (hadds (.letter mods))
  · exact .removeFocusedRow
  · exact .copy clipboard
  · exact .kept
  · split
    · exact .editWith _
    · exact .kept
  · exact .kept

theorem pressNormal
    (clipboard : Clipboard)
    (key : Key)
    (mods : Modifiers) :
    s.KeyStep (s.AddsRow key mods) (s.pressNormal clipboard key mods).form
      (s.pressNormal clipboard key mods).focus := by
  rw [Session.pressNormal]
  split
  · rename_i hctrl
    simp only [Bool.and_eq_true, decide_eq_true_eq] at hctrl
    obtain ⟨hctrl, rfl⟩ := hctrl
    exact .addRow (.control hctrl)
  · split
    · exact .removeFocusedRow
    · have hadds : AddsRow { s with status := none } key mods → s.AddsRow key mods := by
        intro hadds
        cases hadds with
        | letter => exact .letter mods
        | control hctrl => exact .control hctrl
        | button _ hkey hbutton => exact .button mods hkey hbutton
      have hcommand := KeyStep.command (s := { s with status := none }) clipboard hadds
      exact hcommand.of_eq rfl rfl

theorem cancelEditing : s.KeyStep adds s.cancelEditing.form s.cancelEditing.focus := by
  have hchange :
      KeyStep { s with saved := [] } adds s.cancelEditing.form s.cancelEditing.focus :=
    .change { s.buffer with text := s.saved }
  exact hchange.of_eq rfl rfl

theorem deleteBackward : s.KeyStep adds s.deleteBackward.form s.deleteBackward.focus := by
  rw [Session.deleteBackward]
  split
  · exact .change _
  · exact .kept

theorem deleteForward : s.KeyStep adds s.deleteForward.form s.deleteForward.focus := by
  rw [Session.deleteForward]
  split
  · exact .change _
  · exact .kept

theorem pressEditing
    (key : Key) :
    s.KeyStep adds (s.pressEditing key).form (s.pressEditing key).focus := by
  have hnext : s.finishEditing.KeyStep adds _ _ := .focusNext
  have hprevious : s.finishEditing.KeyStep adds _ _ := .focusPrevious
  unfold Session.pressEditing
  split
  · exact .kept
  · exact hnext.of_eq rfl rfl
  · exact hnext.of_eq rfl rfl
  · exact hprevious.of_eq rfl rfl
  · exact hprevious.of_eq rfl rfl
  · exact .cancelEditing
  · exact .deleteBackward
  · exact .deleteForward
  · exact .kept
  · exact .kept
  · exact .kept
  · exact .kept
  · exact .change _
  · exact .kept

end KeyStep

theorem keyStep_press
    (clipboard : Clipboard)
    (key : Key)
    (mods : Modifiers) :
    s.KeyStep (s.mode = .normal ∧ s.AddsRow key mods) (s.press clipboard key mods).form
      (s.press clipboard key mods).focus := by
  cases hmode : s.mode with
  | normal =>
      rw [press, hmode]
      simp only [true_and]
      exact .pressNormal clipboard key mods
  | editing =>
      rw [press, hmode]
      exact .pressEditing key
  | help =>
      rw [press, hmode]
      obtain ⟨mode, position, _, h⟩ := pressHelp_eq s hmode key
      simp only [h]
      exact .kept

section UpToDate

/--
What a key does to the form and to the focus of a session that is up to date. In all cases
but the first, `d` is the document before the formulas are recomputed.
-/
inductive Effect (m : Markup) (s : Session) (adds : Prop) : Form → Nat → Prop
  | moved
      {focus : Nat}
      (hfocus : focus = s.focus ∨ focus < s.focusables.length) :
      Effect m s adds s.form focus
  | entered
      {n : NodeId} {value : String} {d shown : Document}
      (hn : s.focusedInput? = some n)
      (hd : s.document.Edited d n (fun e => { e with value := value }))
      (hdone : Formula.Refreshed m d shown s.form.formulas) :
      Effect m s adds { s.form with document := shown } s.focus
  | added
      {container : NodeId} {before after : List NodeId} {d shown : Document}
      (hadds : adds)
      (hcontainer : s.form.container = some container)
      (hd : Form.RowAdded m s.document d container before after)
      (hdone : Formula.Refreshed m d shown (d.withTag Document.root m.formulaTag)) :
      Effect m s adds (s.form.renewed d shown)
        (focusAfterAdding s.focus (s.form.renewed d shown, .ok (some s.document.size)))
  | removed
      {n row : NodeId} {d shown : Document}
      (hn : s.focused? = some n)
      (hrow : s.document.closestWithClass n m.rowClass = some row)
      (hd : s.document.Removed d row)
      (hdone : Formula.Refreshed m d shown (d.withTag Document.root m.formulaTag)) :
      Effect m s adds (s.form.renewed d shown)
        (focusAfterRemoving s.focus (s.form.renewed d shown, .ok (some row)))

variable {s} {m : Markup}

/-- No operation is refused, so a key has one of the four effects. -/
theorem UpToDate.effect_of_keyStep
    (h : s.UpToDate m)
    {adds : Prop} {form : Form} {focus : Nat}
    (hstep : s.KeyStep adds form focus) :
    s.Effect m adds form focus := by
  obtain rfl := h.markup
  cases hstep with
  | kept => exact .moved (.inl rfl)
  | next hcount => exact .moved (.inr (Nat.mod_lt _ (Nat.pos_of_ne_zero hcount)))
  | previous hcount => exact .moved (.inr (Nat.mod_lt _ (Nat.pos_of_ne_zero hcount)))
  | @entered n value d hn hd =>
      obtain ⟨e, he⟩ := element_of_focusedInput? hn
      obtain ⟨d', shown, hd', hedited, hupdate, hdone⟩ := h.settled.entered_spec he value
      obtain rfl : d = d' := Except.ok.inj (hd.symm.trans hd')
      rw [hupdate]
      exact .entered hn hedited hdone
  | added hadds =>
      cases hcontainer : s.form.container with
      | none =>
          rw [Form.addRow, hcontainer]
          exact .moved (.inl rfl)
      | some container =>
          obtain ⟨_, _, placed, shown, hadded, hdone, hadd⟩ := h.settled.addRow_eq hcontainer
          rw [hadd]
          exact .added hadds hcontainer hadded hdone
  | @removed n hn =>
      cases hrow : s.document.closestWithClass n s.markup.rowClass with
      | none =>
          rw [Form.removeRow, hrow]
          exact .moved (.inl rfl)
      | some row =>
          obtain ⟨removed, shown, hremoved, hdone, hremove⟩ := h.settled.removeRow_eq hrow
          rw [hremove]
          exact .removed hn hrow hremoved hdone

theorem UpToDate.effect_press
    (h : s.UpToDate m)
    (clipboard : Clipboard)
    (key : Key)
    (mods : Modifiers) :
    s.Effect m (s.mode = .normal ∧ s.AddsRow key mods) (s.press clipboard key mods).form
      (s.press clipboard key mods).focus :=
  h.effect_of_keyStep (keyStep_press s clipboard key mods)

end UpToDate

end Session
end LiveForms
