import LiveForms.Proofs.Session.UpToDate

/-!
# Live forms: what one key does

Most keys move the focus or show a status. The others do one of a few things: they write
the edit buffer into the input that has the focus, add a row, remove the row around the
focus, start an edit, or open and close the help text. This module says so for the normal
mode, with the session afterwards written out, and proofs about keys go through these cases.
Nothing is asked of the session.

Main definition:

* `Session.Command`: what a key does in normal mode.

Main statement:

* `Session.command_press`: the keys of the normal mode.
-/

namespace LiveForms

/-- A button is not an input. -/
theorem Element.isInput_of_isButton
    {e : Element}
    (he : e.isButton = true) :
    e.isInput = false := by
  rw [isButton, beq_iff_eq] at he
  rw [isInput, he]
  decide

/-- A click is one of the two row operations, or changes nothing. -/
theorem Form.click_cases
    (form : Form)
    (n : NodeId) :
    form.click n = (form, .ok .ignored) ∨
      form.insideContainer n = true ∧ form.document.hasClass n form.markup.addClass = true ∧
        form.click n = action .added form.addRow ∨
      form.click n = action .removed (form.removeRow n) := by
  rw [click]
  split
  · exact .inl rfl
  · rename_i hinside
    split
    · rename_i hclass
      exact .inr (.inl ⟨by simpa using hinside, hclass, rfl⟩)
    · split
      · exact .inr (.inr rfl)
      · exact .inl rfl

theorem Form.action_fst
    (made : NodeId → ClickAction)
    (outcome : Form × Except DocumentError (Option NodeId)) :
    (action made outcome).1 = outcome.1 := by
  obtain ⟨form, _ | _ | row⟩ := outcome <;> rfl

namespace Session

variable (s : Session)

section Operations

theorem focusNext_eq :
    ∃ focus, s.focusNext = { s with focus := focus } := by
  simp only [focusNext]
  split
  · exact ⟨s.focus, rfl⟩
  · exact ⟨_, rfl⟩

theorem focusPrevious_eq :
    ∃ focus, s.focusPrevious = { s with focus := focus } := by
  simp only [focusPrevious]
  split
  · exact ⟨s.focus, rfl⟩
  · exact ⟨_, rfl⟩

theorem afterRowAdded_eq
    (row : NodeId) :
    ∃ focus status, s.afterRowAdded row = { s with focus := focus, status := status } := by
  simp only [afterRowAdded, focusNode]
  split
  · split
    · exact ⟨_, _, rfl⟩
    · exact ⟨s.focus, _, rfl⟩
  · exact ⟨s.focus, _, rfl⟩

theorem afterRowRemoved_eq :
    ∃ focus status, s.afterRowRemoved = { s with focus := focus, status := status } := by
  simp only [afterRowRemoved, clampFocus]
  split
  · exact ⟨_, _, rfl⟩
  · exact ⟨s.focus, _, rfl⟩

theorem addRow_eq :
    ∃ focus status,
      s.addRow = { s with form := s.form.addRow.1, focus := focus, status := status } := by
  rw [addRow]
  split
  · rename_i form row hadd
    rw [hadd]
    exact afterRowAdded_eq { s with form := form } row
  · rename_i form hadd
    rw [hadd]
    exact ⟨s.focus, _, rfl⟩
  · rename_i form e hadd
    rw [hadd]
    exact ⟨s.focus, _, rfl⟩

theorem click_eq
    (n : NodeId) :
    ∃ focus status,
      s.click n = { s with form := (s.form.click n).1, focus := focus, status := status } := by
  rw [click]
  split
  · rename_i form row hclick
    rw [hclick]
    exact afterRowAdded_eq { s with form := form } row
  · rename_i form row hclick
    rw [hclick]
    exact afterRowRemoved_eq { s with form := form }
  · rename_i form hclick
    rw [hclick]
    exact ⟨s.focus, s.status, rfl⟩
  · rename_i form e hclick
    rw [hclick]
    exact ⟨s.focus, _, rfl⟩

theorem removeFocusedRow_cases :
    s.focused? = none ∧ s.removeFocusedRow = s ∨
      ∃ n focus status, s.focused? = some n ∧
        s.removeFocusedRow =
          { s with form := (s.form.removeRow n).1, focus := focus, status := status } := by
  rw [removeFocusedRow]
  cases hn : s.focused? with
  | none => exact .inl ⟨rfl, rfl⟩
  | some n =>
      refine .inr ⟨n, ?_⟩
      simp only [true_and]
      split
      · rename_i form row hremove
        rw [hremove]
        exact afterRowRemoved_eq { s with form := form }
      · rename_i form hremove
        rw [hremove]
        exact ⟨s.focus, _, rfl⟩
      · rename_i form e hremove
        rw [hremove]
        exact ⟨s.focus, _, rfl⟩

theorem showCopy_eq
    (outcome : Except String String) :
    ∃ status, s.showCopy outcome = { s with status := status } := by
  cases outcome with
  | ok text => exact ⟨_, rfl⟩
  | error reason => exact ⟨_, rfl⟩

theorem copy_eq
    (clipboard : Clipboard) :
    ∃ status, s.copy clipboard = { s with status := status } := by
  rw [copy]
  split
  · exact ⟨s.status, rfl⟩
  · exact showCopy_eq s _

theorem startEditing_of_focusedInput?_none
    (hn : s.focusedInput? = none) :
    s.startEditing = s := by
  rw [startEditing, hn]

theorem startEditing_of_focusedInput?
    {n : NodeId}
    (hn : s.focusedInput? = some n) :
    s.startEditing =
      { s with
        buffer := EditBuffer.ofText ((s.document.value? n).getD "").toList
        saved := ((s.document.value? n).getD "").toList
        mode := .editing
        status := none } := by
  rw [startEditing, hn]

theorem startEditing_of_clearedStatus
    {n : NodeId}
    (hn : s.focusedInput? = some n) :
    startEditing { s with status := none } = s.startEditing := by
  rw [startEditing_of_focusedInput? s hn,
    startEditing_of_focusedInput? { s with status := none } hn]

theorem applyBuffer_of_focusedInput?_none
    (hn : s.focusedInput? = none) :
    s.applyBuffer = s := by
  rw [applyBuffer, hn]

/-- The buffer is written into the input, and all formulas are recomputed. -/
theorem applyBuffer_of_focusedInput?
    {n : NodeId}
    (hn : s.focusedInput? = some n) :
    ∃ d status, s.document.setValue n (String.ofList s.buffer.text) = .ok d ∧
      s.applyBuffer =
        { s with form := (Form.update { s.form with document := d }).1, status := status } := by
  obtain ⟨e, he⟩ := element_of_focusedInput? hn
  obtain ⟨d, hd⟩ := Document.modifyElement_of_element?
    (fun e => { e with value := String.ofList s.buffer.text }) he
  have hset : s.document.setValue n (String.ofList s.buffer.text) = .ok d := hd
  simp only [applyBuffer, hn, hset, withForm]
  cases (Form.update { s.form with document := d }).2 with
  | none => exact ⟨d, s.status, rfl, rfl⟩
  | some err => exact ⟨d, _, rfl, rfl⟩

end Operations

section NormalMode

/-- All keys but two clear the status and are commands, whatever else is held. -/
theorem pressNormal_eq_command
    (clipboard : Clipboard)
    {key : Key}
    (hadd : key ≠ .char 'n')
    (hremove : key ≠ .char 'd')
    (mods : Modifiers) :
    s.pressNormal clipboard key mods = command clipboard { s with status := none } key := by
  rw [pressNormal, if_neg (by simp [hadd]), if_neg (by simp [hremove])]

/-- What a key does in normal mode. -/
inductive Command (s : Session) : Session → Prop
  /-- The focus moves, or only the status is changed. -/
  | moved
      (focus : Nat) (status : Option String) :
      Command s { s with focus := focus, status := status }
  | added
      (focus : Nat) (status : Option String) :
      Command s { s with form := s.form.addRow.1, focus := focus, status := status }
  | removed
      {n : NodeId}
      (focus : Nat) (status : Option String)
      (hn : s.focused? = some n) :
      Command s { s with form := (s.form.removeRow n).1, focus := focus, status := status }
  | cleared
      {n : NodeId} {d : Document}
      (hn : s.focusedInput? = some n)
      (hd : s.document.setValue n "" = .ok d) :
      Command s
        { s with
          form := (Form.update { s.form with document := d }).1
          buffer := { s.buffer with text := [] }
          status := none }
  | started
      {n : NodeId}
      (hn : s.focusedInput? = some n) :
      Command s s.startEditing
  | startedWith
      {n : NodeId}
      (c : Char)
      (hn : s.focusedInput? = some n) :
      Command s (s.startEditing.insertChar c)
  | helped :
      Command s { s with mode := .help, helpScroll := 0, status := none }

namespace Command

variable {s}

/-- Nothing happens. -/
theorem refl : s.Command s :=
  .moved s.focus s.status

theorem of_clearedStatus
    {s' : Session}
    (h : { s with status := none }.Command s') :
    s.Command s' := by
  cases h with
  | moved focus status => exact .moved focus status
  | added focus status => exact .added focus status
  | removed focus status hn => exact .removed focus status hn
  | cleared hn hd => exact .cleared hn hd
  | started hn =>
      rw [startEditing_of_clearedStatus s hn]
      exact .started hn
  | startedWith c hn =>
      rw [startEditing_of_clearedStatus s hn]
      exact .startedWith c hn
  | helped => exact .helped

theorem focusNext : s.Command s.focusNext := by
  obtain ⟨focus, h⟩ := focusNext_eq s
  rw [h]
  exact .moved focus s.status

theorem focusPrevious : s.Command s.focusPrevious := by
  obtain ⟨focus, h⟩ := focusPrevious_eq s
  rw [h]
  exact .moved focus s.status

theorem addRow : s.Command s.addRow := by
  obtain ⟨focus, status, h⟩ := addRow_eq s
  rw [h]
  exact .added focus status

theorem removeFocusedRow : s.Command s.removeFocusedRow := by
  rcases removeFocusedRow_cases s with ⟨_, h⟩ | ⟨n, focus, status, hn, h⟩
  · rw [h]
    exact .refl
  · rw [h]
    exact .removed focus status hn

theorem click
    {n : NodeId}
    (hn : s.focused? = some n) :
    s.Command (s.click n) := by
  obtain ⟨focus, status, h⟩ := click_eq s n
  rw [h]
  rcases s.form.click_cases n with hform | ⟨_, _, hform⟩ | hform
  · rw [hform]
    exact .moved focus status
  · rw [hform, Form.action_fst]
    exact .added focus status
  · rw [hform, Form.action_fst]
    exact .removed focus status hn

theorem activate : s.Command s.activate := by
  rw [Session.activate]
  cases hn : s.focused? with
  | none => exact .refl
  | some n =>
      by_cases hinput : s.document.nodeIs Element.isInput n = true
      · have hfocused : s.focusedInput? = some n := by
          rw [focusedInput?, hn]
          simp [hinput]
        simp only [hinput, if_true]
        exact .started hfocused
      · simp only [hinput]
        by_cases hbutton : s.document.nodeIs Element.isButton n = true
        · simp only [hbutton, if_true]
          exact click hn
        · simp only [hbutton]
          exact .refl

theorem clearFocused : s.Command s.clearFocused := by
  rw [Session.clearFocused]
  cases hn : s.focusedInput? with
  | none => exact .refl
  | some n =>
      obtain ⟨d, status, hd, happly⟩ :=
        applyBuffer_of_focusedInput? { s with buffer := { s.buffer with text := [] } } hn
      simp only [change, happly]
      exact .cleared hn hd

theorem editWith
    (hmode : s.mode ≠ .editing)
    (c : Char) :
    s.Command (s.editWith c) := by
  rw [Session.editWith]
  cases hn : s.focusedInput? with
  | none =>
      rw [startEditing_of_focusedInput?_none s hn, if_neg hmode]
      exact .refl
  | some n =>
      have hediting : s.startEditing.mode = .editing := by
        rw [startEditing_of_focusedInput? s hn]
      rw [if_pos hediting]
      exact .startedWith c hn

theorem copy
    (clipboard : Clipboard) :
    s.Command (s.copy clipboard) := by
  obtain ⟨status, h⟩ := copy_eq s clipboard
  rw [h]
  exact .moved s.focus status

end Command

theorem command_command
    (hmode : s.mode ≠ .editing)
    (hstatus : s.status = none)
    (clipboard : Clipboard)
    (key : Key) :
    s.Command (s.command clipboard key) := by
  have hhelp : s.Command s.openHelp := by
    have h := Command.helped (s := s)
    rw [← hstatus] at h
    exact h
  unfold command
  split
  · exact .focusNext
  · exact .focusNext
  · exact .focusPrevious
  · exact .focusPrevious
  · exact .activate
  · exact hhelp
  · exact .activate
  · exact .removeFocusedRow
  · exact .clearFocused
  · exact .focusNext
  · exact .focusPrevious
  · exact .activate
  · exact .addRow
  · exact .removeFocusedRow
  · exact .copy clipboard
  · exact hhelp
  · split
    · exact .editWith hmode _
    · exact .refl
  · exact .refl

theorem command_press
    (hmode : s.mode = .normal)
    (clipboard : Clipboard)
    (key : Key)
    (mods : Modifiers) :
    s.Command (s.press clipboard key mods) := by
  rw [press, hmode]
  simp only [pressNormal]
  split
  · exact .addRow
  · split
    · exact .removeFocusedRow
    · have hother : s.mode ≠ .editing := by rw [hmode]; decide
      exact .of_clearedStatus
        (command_command { s with status := none } hother rfl clipboard key)

end NormalMode

section OtherModes

theorem pressHelp_eq
    (hmode : s.mode = .help)
    (key : Key) :
    ∃ mode position, mode ≠ .editing ∧
      s.pressHelp key = { s with mode := mode, helpScroll := position } := by
  have hclose : ∃ mode position, mode ≠ .editing ∧
      s.closeHelp = { s with mode := mode, helpScroll := position } :=
    ⟨.normal, s.helpScroll, by decide, rfl⟩
  have hscroll : ∀ position, ∃ mode position', mode ≠ .editing ∧
      s.scrollHelp position = { s with mode := mode, helpScroll := position' } :=
    fun position => ⟨s.mode, position, by rw [hmode]; decide, rfl⟩
  unfold pressHelp
  split
  · exact hclose
  · exact hclose
  · exact hclose
  · exact hclose
  · exact hscroll _
  · exact hscroll _
  · exact hscroll _
  · exact hscroll _
  · exact hscroll _
  · exact hscroll _
  · exact hscroll _
  · exact hscroll s.helpScroll

end OtherModes

end Session
end LiveForms
