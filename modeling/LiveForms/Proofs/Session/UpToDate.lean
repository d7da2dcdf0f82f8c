import LiveForms.Proofs.Formula.Settled
import LiveForms.Session.Keys

/-!
# Live forms: sessions stay up to date

A session is up to date if its form is settled and no refusal of the document was ever
shown. It opens that way, and every key in every mode and every click on any node keeps
it that way, in any order. Most keys do not touch the form at all; an edit writes a value
and recomputes; rows come and go by the operations of the form, which succeed.

Main statements:

* `Session.UpToDate.press`, `Session.UpToDate.click`: what one event keeps.
* `Session.UpToDate.run`, `Session.ofPage_spec`: every session that a page opens stays up
  to date. The last theorem says in full what that means.
-/

namespace LiveForms
namespace Session

/-- What happens to a session. -/
inductive Event where
  | key (clipboard : Clipboard) (key : Key) (mods : Modifiers)
  | click (n : NodeId)

/-- The session after one event. -/
def handle (s : Session) : Event → Session
  | .key clipboard key mods => s.press clipboard key mods
  | .click n => s.click n

/-- The session after a sequence of events. -/
def run (s : Session) (events : List Event) : Session :=
  events.foldl handle s

/-- The form of a session is settled, and no refused change is shown. -/
structure UpToDate (m : Markup) (s : Session) : Prop where
  markup : s.form.markup = m
  settled : s.form.Settled
  status : ∀ text, s.status ≠ some ("Error: " ++ text)

/-- A status that does not start like a refusal does not show one. -/
theorem status_ne_error
    {status text : String}
    (hstatus : status.toList.head? ≠ some 'E') :
    some status ≠ some ("Error: " ++ text) := by
  intro heq
  apply hstatus
  rw [Option.some.inj heq, String.toList_append]
  rfl

theorem element_of_focusedInput?
    {s : Session} {n : NodeId}
    (hn : s.focusedInput? = some n) :
    ∃ e, s.document.element? n = some e := by
  obtain ⟨_, hisInput⟩ := Option.filter_eq_some_iff.mp hn
  obtain ⟨e, he, _⟩ := Document.nodeIs_iff.mp hisInput
  exact ⟨e, he⟩

namespace UpToDate

variable {m : Markup} {s : Session} (h : s.UpToDate m)
include h

/-- Only the form and the status matter. -/
theorem of_form_eq
    {s' : Session}
    (hform : s'.form = s.form)
    (hstatus : s'.status = s.status ∨ s'.status = none) :
    s'.UpToDate m := by
  refine ⟨hform ▸ h.markup, hform ▸ h.settled, ?_⟩
  intro text
  rcases hstatus with hstatus | hstatus
  · rw [hstatus]
    exact h.status text
  · rw [hstatus]
    simp

theorem withStatus
    {status : String}
    (hstatus : status.toList.head? ≠ some 'E') :
    { s with status := some status }.UpToDate m :=
  ⟨h.markup, h.settled, fun _ => status_ne_error hstatus⟩

theorem withForm
    {form : Form}
    (hmarkup : form.markup = s.form.markup)
    (hsettled : form.Settled) :
    { s with form := form }.UpToDate m :=
  ⟨hmarkup.trans h.markup, hsettled, h.status⟩

section Focus

theorem focusNext :
    s.focusNext.UpToDate m := by
  simp only [Session.focusNext]
  split
  · exact h
  · exact h.of_form_eq rfl (.inl rfl)

theorem focusPrevious :
    s.focusPrevious.UpToDate m := by
  simp only [Session.focusPrevious]
  split
  · exact h
  · exact h.of_form_eq rfl (.inl rfl)

theorem focusNode
    (n : NodeId) :
    (s.focusNode n).UpToDate m := by
  rw [Session.focusNode]
  split
  · exact h.of_form_eq rfl (.inl rfl)
  · exact h

theorem clampFocus :
    s.clampFocus.UpToDate m := by
  simp only [Session.clampFocus]
  split
  · exact h.of_form_eq rfl (.inl rfl)
  · exact h

theorem startEditing :
    s.startEditing.UpToDate m := by
  rw [Session.startEditing]
  split
  · exact h
  · exact h.of_form_eq rfl (.inr rfl)

theorem finishEditing :
    s.finishEditing.UpToDate m :=
  h.of_form_eq rfl (.inl rfl)

end Focus

section Edits

/-- The value is written into an element, and all formulas follow. -/
theorem applyBuffer :
    s.applyBuffer.UpToDate m := by
  rw [Session.applyBuffer]
  cases hinput : s.focusedInput? with
  | none => exact h
  | some n =>
      obtain ⟨e, he⟩ := element_of_focusedInput? hinput
      obtain ⟨d, form', hd, hupdate, hsettled, hmarkup⟩ :=
        h.settled.setValue_spec he (String.ofList s.buffer.text)
      simp only [hd, hupdate]
      exact h.withForm hmarkup hsettled

theorem change
    (b : EditBuffer) :
    (s.change b).UpToDate m := by
  have hbuffer : { s with buffer := b }.UpToDate m := h.of_form_eq rfl (.inl rfl)
  exact hbuffer.applyBuffer

theorem cancelEditing :
    s.cancelEditing.UpToDate m := by
  have hbuffer :
      { s with buffer := { s.buffer with text := s.saved }, saved := [] }.UpToDate m :=
    h.of_form_eq rfl (.inl rfl)
  exact hbuffer.applyBuffer.of_form_eq rfl (.inl rfl)

theorem insertChar
    (c : Char) :
    (s.insertChar c).UpToDate m :=
  h.change _

theorem deleteBackward :
    s.deleteBackward.UpToDate m := by
  rw [Session.deleteBackward]
  split
  · exact h.change _
  · exact h

theorem deleteForward :
    s.deleteForward.UpToDate m := by
  rw [Session.deleteForward]
  split
  · exact h.change _
  · exact h

theorem clearFocused :
    s.clearFocused.UpToDate m := by
  rw [Session.clearFocused]
  split
  · exact h
  · exact (h.change _).of_form_eq rfl (.inr rfl)

theorem editWith
    (c : Char) :
    (s.editWith c).UpToDate m := by
  simp only [Session.editWith]
  split
  · exact h.startEditing.insertChar c
  · exact h.startEditing

end Edits

section Rows

theorem afterRowAdded
    (row : NodeId) :
    (s.afterRowAdded row).UpToDate m := by
  simp only [Session.afterRowAdded]
  split
  · exact (h.focusNode _).withStatus (by decide)
  · exact h.withStatus (by decide)

theorem afterRowRemoved :
    s.afterRowRemoved.UpToDate m :=
  h.clampFocus.withStatus (by decide)

theorem click
    (target : NodeId) :
    (s.click target).UpToDate m := by
  obtain ⟨form', action, hclick, hsettled, hmarkup⟩ := h.settled.click_spec target
  have hform := h.withForm hmarkup hsettled
  simp only [Session.click, hclick]
  cases action with
  | added row => exact hform.afterRowAdded row
  | removed row => exact hform.afterRowRemoved
  | ignored => exact hform

theorem addRow :
    s.addRow.UpToDate m := by
  obtain ⟨form', row, hadd, hsettled, hmarkup⟩ := h.settled.addRow_spec
  have hform := h.withForm hmarkup hsettled
  simp only [Session.addRow, hadd]
  cases row with
  | none => exact hform.withStatus (by decide)
  | some row => exact hform.afterRowAdded row

theorem removeFocusedRow :
    s.removeFocusedRow.UpToDate m := by
  rw [Session.removeFocusedRow]
  split
  · exact h
  · rename_i n _
    obtain ⟨form', row, hremove, hsettled, hmarkup⟩ := h.settled.removeRow_spec n
    have hform := h.withForm hmarkup hsettled
    simp only [hremove]
    cases row with
    | none => exact hform.withStatus (by decide)
    | some row => exact hform.afterRowRemoved

theorem activate :
    s.activate.UpToDate m := by
  rw [Session.activate]
  split
  · exact h
  · split
    · exact h.startEditing
    · split
      · exact h.click _
      · exact h

theorem showCopy
    (outcome : Except String String) :
    (s.showCopy outcome).UpToDate m := by
  cases outcome with
  | ok text =>
      refine h.withStatus ?_
      rw [String.toList_append]
      simp
  | error reason =>
      refine h.withStatus ?_
      rw [String.toList_append]
      simp

theorem copy
    (clipboard : Clipboard) :
    (s.copy clipboard).UpToDate m := by
  rw [Session.copy]
  split
  · exact h
  · exact h.showCopy _

end Rows

section Keys

theorem command
    (clipboard : Clipboard)
    (key : Key) :
    (s.command clipboard key).UpToDate m := by
  unfold Session.command
  split
  · exact h.focusNext
  · exact h.focusNext
  · exact h.focusPrevious
  · exact h.focusPrevious
  · exact h.activate
  · exact h.of_form_eq rfl (.inl rfl)
  · exact h.activate
  · exact h.removeFocusedRow
  · exact h.clearFocused
  · exact h.focusNext
  · exact h.focusPrevious
  · exact h.activate
  · exact h.addRow
  · exact h.removeFocusedRow
  · exact h.copy clipboard
  · exact h.of_form_eq rfl (.inl rfl)
  · split
    · exact h.editWith _
    · exact h
  · exact h

theorem pressNormal
    (clipboard : Clipboard)
    (key : Key)
    (mods : Modifiers) :
    (s.pressNormal clipboard key mods).UpToDate m := by
  rw [Session.pressNormal]
  split
  · exact h.addRow
  · split
    · exact h.removeFocusedRow
    · have hcleared : { s with status := none }.UpToDate m := h.of_form_eq rfl (.inr rfl)
      exact hcleared.command clipboard key

theorem pressEditing
    (key : Key) :
    (s.pressEditing key).UpToDate m := by
  unfold Session.pressEditing
  split
  · exact h.finishEditing
  · exact h.finishEditing.focusNext
  · exact h.finishEditing.focusNext
  · exact h.finishEditing.focusPrevious
  · exact h.finishEditing.focusPrevious
  · exact h.cancelEditing
  · exact h.deleteBackward
  · exact h.deleteForward
  · exact h.of_form_eq rfl (.inl rfl)
  · exact h.of_form_eq rfl (.inl rfl)
  · exact h.of_form_eq rfl (.inl rfl)
  · exact h.of_form_eq rfl (.inl rfl)
  · exact h.insertChar _
  · exact h

/-- The help text leaves the form alone. -/
theorem pressHelp
    (key : Key) :
    (s.pressHelp key).UpToDate m := by
  unfold Session.pressHelp
  split
  all_goals exact h.of_form_eq rfl (.inl rfl)

theorem press
    (clipboard : Clipboard)
    (key : Key)
    (mods : Modifiers) :
    (s.press clipboard key mods).UpToDate m := by
  rw [Session.press]
  cases s.mode with
  | normal => exact h.pressNormal clipboard key mods
  | editing => exact h.pressEditing key
  | help => exact h.pressHelp key

theorem handle
    (event : Event) :
    (s.handle event).UpToDate m := by
  cases event with
  | key clipboard key mods => exact h.press clipboard key mods
  | click n => exact h.click n

theorem run
    (events : List Event) :
    (s.run events).UpToDate m := by
  induction events generalizing s with
  | nil => exact h
  | cons event events ih => exact ih (h.handle event)

end Keys

end UpToDate

/-- Every page opens, and its session is up to date. -/
theorem ofPage_spec
    (page : Page)
    (m : Markup) :
    ∃ s, ofPage page m = .ok s ∧ s.UpToDate m := by
  obtain ⟨d, hbuild, hbuilt⟩ := page.build_spec
  have hsteps := hbuilt.extended.grown.steps
  have hd := Document.wellFormed_empty.steps hsteps
  have hids := Document.ids_of_steps Document.wellFormed_empty (by decide) hsteps
  obtain ⟨form, hattach, hsettled, hmarkup⟩ := Form.attach_spec (m := m) hd hids
  refine ⟨{ form := form, title := page.title }, ?_, hmarkup, hsettled, ?_⟩
  · simp only [ofPage, hbuild, hattach]
  · intro text
    simp

/-- No operation on the form of a session is refused by its document. -/
structure NeverRefused (s : Session) : Prop where
  click : ∀ n, ∃ action, (s.form.click n).2 = .ok action
  addRow : ∃ row, s.form.addRow.2 = .ok row
  removeRow : ∀ n, ∃ row, (s.form.removeRow n).2 = .ok row
  setValue : ∀ n value, s.focusedInput? = some n →
    ∃ d, s.document.setValue n value = .ok d ∧
      (Form.update { s.form with document := d }).2 = none

theorem UpToDate.neverRefused
    {m : Markup} {s : Session}
    (h : s.UpToDate m) :
    s.NeverRefused where
  click n := by
    obtain ⟨_, action, hclick, _⟩ := h.settled.click_spec n
    exact ⟨action, by rw [hclick]⟩
  addRow := by
    obtain ⟨_, row, hadd, _⟩ := h.settled.addRow_spec
    exact ⟨row, by rw [hadd]⟩
  removeRow n := by
    obtain ⟨_, row, hremove, _⟩ := h.settled.removeRow_spec n
    exact ⟨row, by rw [hremove]⟩
  setValue n value hinput := by
    obtain ⟨e, he⟩ := element_of_focusedInput? hinput
    obtain ⟨d, _, hd, hupdate, _⟩ := h.settled.setValue_spec he value
    exact ⟨d, hd, by rw [hupdate]⟩

/--
Every page opens, and whatever keys are pressed and nodes are clicked after that: the
formulas of the session are the attached elements with the tag of a formula, in document
order; its container is the element with the id of the container; every formula shows its
value in the document as it is; attaching anew to this document gives the same form with
the same document; and the document has refused nothing and will not refuse the next
operation.
-/
theorem upToDate_run
    (page : Page)
    (m : Markup)
    (hrow : m.invalidClass ≠ m.rowClass)
    (hgrade : m.invalidClass ≠ m.gradeClass)
    (hcredit : m.invalidClass ≠ m.creditClass)
    (events : List Event) :
    ∃ opened reached,
      ofPage page m = .ok opened ∧
      opened.run events = reached ∧
      reached.form.formulas = reached.document.withTag Document.root m.formulaTag ∧
      reached.form.formulas.Pairwise reached.document.Precedes ∧
      (∀ n, n ∈ reached.form.formulas ↔
        reached.document.isAttached n = true ∧
          ∃ e, reached.document.element? n = some e ∧ e.tag = m.formulaTag) ∧
      reached.form.container = reached.document.byId m.gpaContainerId ∧
      (∀ f ∈ reached.form.formulas, Formula.Shows m reached.document f) ∧
      Form.attach reached.document m = (reached.form, none) ∧
      (∀ text, reached.status ≠ some ("Error: " ++ text)) ∧
      reached.NeverRefused := by
  have hm : m.InvalidApart := ⟨hrow, hgrade, hcredit⟩
  obtain ⟨opened, hopened, hfirst⟩ := ofPage_spec page m
  have h := hfirst.run events
  have hd := h.settled.wellFormed
  have hformulas := h.settled.formulas
  have hcontainer := h.settled.container
  have hshows := h.settled.shows (h.markup ▸ hm)
  have hattach := h.settled.attach_eq (h.markup ▸ hm)
  rw [h.markup] at hformulas hcontainer hshows hattach
  refine ⟨opened, opened.run events, hopened, rfl, hformulas, ?_, ?_, hcontainer, hshows,
    hattach, h.status, h.neverRefused⟩
  · rw [hformulas]
    exact hd.pairwise_withTag _
  · intro n
    rw [hformulas]
    exact hd.mem_withTag_root_iff

/-- The add button of the demo page is clicked, and a digit goes into each cell of the row. -/
def newRowEvents : List Event :=
  [.click 16, .key (fun _ => .ok ()) (.char '7') {}, .key (fun _ => .ok ()) .tab {},
    .key (fun _ => .ok ()) (.char '2') {}]

/-- The average is that of the new row, and the first formula still has nothing to work on. -/
theorem upToDate_run_demo :
    ({} : Markup).invalidClass ≠ ({} : Markup).rowClass ∧
    ({} : Markup).invalidClass ≠ ({} : Markup).gradeClass ∧
    ({} : Markup).invalidClass ≠ ({} : Markup).creditClass ∧
    ∃ opened reached,
      ofPage Page.demo {} = .ok opened ∧
      opened.run newRowEvents = reached ∧
      reached.form.formulas = [4, 9, 15] ∧
      reached.form.formulas.map reached.document.text? =
        [some "Invalid Formula", some "0", some "7"] ∧
      Formula.Shows {} reached.document 15 ∧
      Form.attach reached.document {} = (reached.form, none) ∧
      reached.NeverRefused := by
  refine ⟨by decide, by decide, by decide, ?_⟩
  obtain ⟨opened, reached, hopened, hreached, _, _, _, _, hshows, hattach, _, hrefused⟩ :=
    upToDate_run Page.demo {} (by decide) (by decide) (by decide) newRowEvents
  have hshown : (ofPage Page.demo {}).map (fun s =>
      let reached := s.run newRowEvents
      (reached.form.formulas, reached.form.formulas.map reached.document.text?)) =
      .ok ([4, 9, 15], [some "Invalid Formula", some "0", some "7"]) := by
    decide +kernel
  rw [hopened] at hshown
  obtain ⟨hformulas, htexts⟩ := Prod.mk.inj (Except.ok.inj hshown)
  rw [hreached] at hformulas htexts
  have haverage : 15 ∈ reached.form.formulas := by simp [hformulas]
  exact ⟨opened, reached, hopened, hreached, hformulas, htexts, hshows 15 haverage, hattach,
    hrefused⟩

end Session
end LiveForms
