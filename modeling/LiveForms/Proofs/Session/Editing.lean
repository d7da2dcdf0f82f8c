import LiveForms.Proofs.Session.Steps
import LiveForms.Proofs.Session.Zipper
import LiveForms.Screen.Lines

/-!
# Live forms: editing an input is editing a zipper

Outside an edit the buffer is empty. During an edit the focus stays on one input, the
buffer is that of a zipper, and the input holds its text: every key changes the zipper and
is written through to the input at once. So the cursor always stands between two
characters, whatever the number of bytes that these take.

The step from key to key is `Session.pressEditing_eq`: a key that changes the text is
applied, one that leaves the text alone only moves the cursor.

Main definitions:

* `Stroke`, `Session.pressAll`: keys as they are pressed, one after the other.
* `Session.Idle`, `Session.Edits`: sessions outside an edit, and within one.

Main statements:

* `Session.UpToDate.pressAll_induction`: what every key keeps, all keys keep.
* `Session.idle_or_edits_pressAll`: every session is of one of the two kinds.
* `Session.zipper_pressAll`: what keys do to the zipper, to the input and to the drawing.
-/

namespace LiveForms

/-- A key as it is pressed, with the clipboard of that moment. -/
structure Stroke where
  key : Key
  mods : Modifiers := {}
  clipboard : Clipboard := fun _ => .ok ()

namespace Session

/-- The session after one key. -/
def stroke (s : Session) (k : Stroke) : Session :=
  s.press k.clipboard k.key k.mods

theorem stroke_of_normal
    {s : Session}
    (hmode : s.mode = .normal)
    (k : Stroke) :
    s.stroke k = s.pressNormal k.clipboard k.key k.mods := by
  rw [stroke, press, hmode]

/-- The session after a sequence of keys. -/
def pressAll (s : Session) (strokes : List Stroke) : Session :=
  strokes.foldl stroke s

/-- The key as an event. -/
def Stroke.toEvent (k : Stroke) : Event :=
  .key k.clipboard k.key k.mods

theorem pressAll_eq_run
    (s : Session)
    (strokes : List Stroke) :
    s.pressAll strokes = s.run (strokes.map Stroke.toEvent) := by
  rw [run, List.foldl_map]
  rfl

theorem UpToDate.pressAll
    {m : Markup} {s : Session}
    (h : s.UpToDate m)
    (strokes : List Stroke) :
    (s.pressAll strokes).UpToDate m := by
  rw [pressAll_eq_run]
  exact h.run _

/-- What every key of a list keeps, in sessions that are up to date, they keep together. -/
theorem UpToDate.pressAll_induction
    {m : Markup} {s : Session} {P : Session → Prop} {strokes : List Stroke}
    (hup : s.UpToDate m)
    (hs : P s)
    (hstep : ∀ s : Session, s.UpToDate m → P s → ∀ k ∈ strokes, P (s.stroke k)) :
    P (s.pressAll strokes) := by
  induction strokes generalizing s with
  | nil => exact hs
  | cons k strokes ih =>
      apply ih (hup.press k.clipboard k.key k.mods) (hstep s hup hs k List.mem_cons_self)
      intro s hup hs k hk
      exact hstep s hup hs k (List.mem_cons_of_mem _ hk)

variable {m : Markup} {s : Session} {n : NodeId} {z : Zipper}

section Kinds

/-- Nothing is being edited. -/
structure Idle (s : Session) : Prop where
  mode : s.mode ≠ .editing
  buffer : s.buffer = ⟨[], 0⟩

/-- The node `n` is an input that has the focus and is being edited. The buffer is that of
the zipper `z`, and the input holds its text. -/
structure Edits (s : Session) (n : NodeId) (z : Zipper) : Prop where
  mode : s.mode = .editing
  focused : s.focused? = some n
  input : ∃ e, s.document.element? n = some e ∧ e.isInput = true ∧
    e.value = String.ofList z.text
  buffer : s.buffer = z.toBuffer

theorem focusedInput?_eq_some_iff
    {s : Session} {n : NodeId} :
    s.focusedInput? = some n ↔
      s.focused? = some n ∧ ∃ e, s.document.element? n = some e ∧ e.isInput = true := by
  rw [focusedInput?, Option.filter_eq_some_iff, Document.nodeIs_iff]

theorem Edits.focusedInput?
    (h : s.Edits n z) :
    s.focusedInput? = some n := by
  obtain ⟨e, he, hinput, _⟩ := h.input
  exact focusedInput?_eq_some_iff.mpr ⟨h.focused, e, he, hinput⟩

theorem Edits.value?
    (h : s.Edits n z) :
    s.document.value? n = some (String.ofList z.text) := by
  obtain ⟨e, he, _, hvalue⟩ := h.input
  rw [Document.value?, he, Option.map_some, hvalue]

theorem edits_of_focusedInput?
    (hmode : s.mode = .editing)
    (hn : s.focusedInput? = some n)
    (hvalue : s.document.value? n = some (String.ofList z.text))
    (hbuffer : s.buffer = z.toBuffer) :
    s.Edits n z := by
  obtain ⟨hfocused, e, he, hinput⟩ := focusedInput?_eq_some_iff.mp hn
  rw [Document.value?, he] at hvalue
  exact ⟨hmode, hfocused, ⟨e, he, hinput, Option.some.inj hvalue⟩, hbuffer⟩

end Kinds

section Writing

/-- The buffer is written into the input, and then only what formulas show can change. -/
theorem UpToDate.applyBuffer_eq
    (h : s.UpToDate m)
    (hn : s.focusedInput? = some n) :
    ∃ d d',
      s.document.Edited d n (fun e => { e with value := String.ofList s.buffer.text }) ∧
        Formula.Refreshed m d d' s.form.formulas ∧
        s.applyBuffer = { s with form := { s.form with document := d' } } := by
  obtain ⟨e, he⟩ := element_of_focusedInput? hn
  obtain ⟨d, d', hd, hedited, hupdate, hdone⟩ :=
    h.settled.entered_spec he (String.ofList s.buffer.text)
  rw [h.markup] at hdone
  refine ⟨d, d', hedited, hdone, ?_⟩
  simp only [Session.applyBuffer, hn, hd, hupdate]
  rfl

/-- The controls stay, because they are told by their tags. -/
theorem focusables_of_entered
    {d d' : Document} {name value : String}
    (hd : s.document.Edited d n (fun e => { e with value := value }))
    (hquiet : d'.quiet name = d.quiet name) :
    focusables { s with form := { s.form with document := d' } } = s.focusables := by
  show d'.findAll Document.root (Form.isControl s.markup) = s.focusables
  rw [Document.findAll_of_quiet hquiet fun _ => rfl, Document.findAll_of_edited hd fun _ => rfl]
  rfl

/-- The focus stays where it is. -/
theorem focusedInput?_of_entered
    {d d' : Document} {name value : String}
    (hd : s.document.Edited d n (fun e => { e with value := value }))
    (hquiet : d'.quiet name = d.quiet name) :
    focusedInput? { s with form := { s.form with document := d' } } = s.focusedInput? := by
  have hinput : d'.nodeIs Element.isInput = s.document.nodeIs Element.isInput := by
    rw [Document.nodeIs_of_quiet hquiet fun _ => rfl, Document.nodeIs_of_edited hd fun _ => rfl]
  simp only [focusedInput?, focused?, focusables_of_entered hd hquiet, hinput]

theorem edits_change
    (h : s.UpToDate m)
    (hmode : s.mode = .editing)
    (hn : s.focusedInput? = some n) :
    (s.change z.toBuffer).Edits n z := by
  have hbuffer : { s with buffer := z.toBuffer }.UpToDate m := h.of_form_eq rfl (.inl rfl)
  obtain ⟨d, d', hedited, hdone, happly⟩ := hbuffer.applyBuffer_eq hn
  rw [change, happly]
  refine edits_of_focusedInput? hmode ?_ ?_ rfl
  · exact (focusedInput?_of_entered hedited hdone.quiet).trans hn
  · show d'.value? n = some (String.ofList z.text)
    obtain ⟨e, he⟩ := hedited.element_n
    rw [Document.value?_of_quiet hdone.quiet, Document.value?, hedited.element?, if_pos rfl, he]
    rfl

theorem edits_startEditing
    (hn : s.focusedInput? = some n) :
    ∃ text, s.startEditing.Edits n ⟨text, []⟩ := by
  obtain ⟨e, he⟩ := element_of_focusedInput? hn
  have hvalue : s.document.value? n = some e.value := by
    rw [Document.value?, he]
    rfl
  refine ⟨e.value.toList, ?_⟩
  rw [startEditing_of_focusedInput? s hn]
  refine edits_of_focusedInput? rfl hn ?_ ?_
  · simp [Zipper.text, hvalue]
  · simp [hvalue, EditBuffer.ofText_eq_toBuffer]

end Writing

section EditingKeys

theorem deleteBackward_eq
    (hbuffer : s.buffer = z.toBuffer) :
    s.deleteBackward = if z.before = [] then s else s.change (z.press .backspace).toBuffer := by
  rw [deleteBackward, hbuffer, EditBuffer.deleteBackward?_toBuffer]
  by_cases hbefore : z.before = []
  · rw [if_pos hbefore, if_pos hbefore]
  · rw [if_neg hbefore, if_neg hbefore]

theorem deleteForward_eq
    (hbuffer : s.buffer = z.toBuffer) :
    s.deleteForward = if z.after = [] then s else s.change (z.press .delete).toBuffer := by
  rw [deleteForward, hbuffer, EditBuffer.deleteForward?_toBuffer]
  by_cases hafter : z.after = []
  · rw [if_pos hafter, if_pos hafter]
  · rw [if_neg hafter, if_neg hafter]

/-- A key changes the zipper; the outcome is applied if the text is another one. -/
theorem pressEditing_eq
    (hbuffer : s.buffer = z.toBuffer)
    {key : Key}
    (hkey : key.endsEdit = false) :
    s.pressEditing key =
      if (z.press key).text = z.text then { s with buffer := (z.press key).toBuffer }
      else s.change (z.press key).toBuffer := by
  have hsame : s = { s with buffer := z.toBuffer } := by rw [← hbuffer]
  cases key with
  | char c =>
      have hne : (z.press (.char c)).text ≠ z.text := by
        intro heq
        have hlength := congrArg List.length heq
        simp [Zipper.text] at hlength
      rw [if_neg hne, ← EditBuffer.insert_toBuffer, ← hbuffer]
      rfl
  | backspace =>
      show s.deleteBackward = _
      rw [deleteBackward_eq hbuffer]
      rcases List.eq_nil_or_concat z.before with hbefore | ⟨before, c, hbefore⟩
      · rw [if_pos hbefore, Zipper.press_backspace_of_nil hbefore, if_pos rfl]
        exact hsame
      · have hne : (z.press .backspace).text ≠ z.text := by
          intro heq
          have hlength := congrArg List.length heq
          simp [Zipper.text, hbefore] at hlength
        rw [if_neg (by simp [hbefore]), if_neg hne]
  | delete =>
      show s.deleteForward = _
      rw [deleteForward_eq hbuffer]
      cases hafter : z.after with
      | nil =>
          rw [if_pos rfl, Zipper.press_delete_of_nil hafter, if_pos rfl]
          exact hsame
      | cons c after =>
          have hne : (z.press .delete).text ≠ z.text := by
            intro heq
            have hlength := congrArg List.length heq
            simp [Zipper.text, hafter] at hlength
          rw [if_neg (List.cons_ne_nil c after), if_neg hne]
  | left =>
      rw [if_pos (z.text_press_of_isMove rfl), ← EditBuffer.left_toBuffer, ← hbuffer]
      rfl
  | right =>
      rw [if_pos (z.text_press_of_isMove rfl), ← EditBuffer.right_toBuffer, ← hbuffer]
      rfl
  | home =>
      rw [if_pos (z.text_press_of_isMove rfl), ← EditBuffer.home_toBuffer, ← hbuffer]
      rfl
  | toEnd =>
      rw [if_pos (z.text_press_of_isMove rfl), ← EditBuffer.toEnd_toBuffer, ← hbuffer]
      rfl
  | pageUp | pageDown | insert | function | other => exact hsame.trans (if_pos rfl).symm
  | enter | tab | backTab | up | down | escape => cases hkey

/-- A key that does not change the zipper does nothing. -/
theorem pressEditing_eq_self
    (hbuffer : s.buffer = z.toBuffer)
    {key : Key}
    (hkey : key.endsEdit = false)
    (hpress : z.press key = z) :
    s.pressEditing key = s := by
  rw [pressEditing_eq hbuffer hkey, hpress, if_pos rfl, ← hbuffer]

theorem Edits.pressEditing
    (h : s.Edits n z)
    (hup : s.UpToDate m)
    {key : Key}
    (hkey : key.endsEdit = false) :
    (s.pressEditing key).Edits n (z.press key) := by
  rw [pressEditing_eq h.buffer hkey]
  split
  · rename_i htext
    exact ⟨h.mode, h.focused, htext ▸ h.input, rfl⟩
  · exact edits_change hup h.mode h.focusedInput?

/-- The keys that end an edit and keep the value do not touch the form. -/
theorem pressEditing_of_endsEdit
    (s : Session)
    {key : Key}
    (hkey : key.endsEdit = true)
    (hne : key ≠ .escape) :
    ∃ focus, s.pressEditing key =
      { s with focus := focus, mode := .normal, buffer := {}, saved := [] } := by
  have hnext : ∃ focus, s.finishEditing.focusNext =
      { s with focus := focus, mode := .normal, buffer := {}, saved := [] } :=
    focusNext_eq s.finishEditing
  have hprevious : ∃ focus, s.finishEditing.focusPrevious =
      { s with focus := focus, mode := .normal, buffer := {}, saved := [] } :=
    focusPrevious_eq s.finishEditing
  cases key with
  | enter => exact ⟨s.focus, rfl⟩
  | tab => exact hnext
  | down => exact hnext
  | backTab => exact hprevious
  | up => exact hprevious
  | escape => exact absurd rfl hne
  | _ => cases hkey

theorem normal_of_endsEdit
    (s : Session)
    {key : Key}
    (hkey : key.endsEdit = true) :
    (s.pressEditing key).mode = .normal ∧ (s.pressEditing key).buffer = ⟨[], 0⟩ := by
  by_cases hescape : key = .escape
  · subst hescape
    exact ⟨rfl, rfl⟩
  · obtain ⟨focus, h⟩ := pressEditing_of_endsEdit s hkey hescape
    rw [h]
    exact ⟨rfl, rfl⟩

theorem idle_pressEditing
    (s : Session)
    {key : Key}
    (hkey : key.endsEdit = true) :
    (s.pressEditing key).Idle := by
  obtain ⟨hmode, hbuffer⟩ := normal_of_endsEdit s hkey
  exact ⟨by rw [hmode]; decide, hbuffer⟩

end EditingKeys

section AllKeys

theorem Idle.of_command
    {s' : Session}
    (h : s.Idle)
    (hup : s.UpToDate m)
    (hcommand : s.Command s') :
    s'.Idle ∨ ∃ n z, s'.Edits n z := by
  cases hcommand with
  | moved focus status => exact .inl ⟨h.mode, h.buffer⟩
  | added focus status => exact .inl ⟨h.mode, h.buffer⟩
  | removed focus status hn => exact .inl ⟨h.mode, h.buffer⟩
  | cleared hn hd => exact .inl ⟨h.mode, by simp [h.buffer]⟩
  | @started n hn =>
      obtain ⟨text, hedits⟩ := edits_startEditing hn
      exact .inr ⟨n, _, hedits⟩
  | @startedWith n c hn =>
      obtain ⟨text, hedits⟩ := edits_startEditing hn
      refine .inr ⟨n, Zipper.press ⟨text, []⟩ (.char c), ?_⟩
      rw [insertChar, hedits.buffer, EditBuffer.insert_toBuffer]
      exact edits_change hup.startEditing hedits.mode hedits.focusedInput?
  | helped => exact .inl ⟨by simp, h.buffer⟩

theorem idle_or_edits_stroke
    (hup : s.UpToDate m)
    (h : s.Idle ∨ ∃ n z, s.Edits n z)
    (k : Stroke) :
    (s.stroke k).Idle ∨ ∃ n z, (s.stroke k).Edits n z := by
  rcases h with h | ⟨n, z, h⟩
  · cases hmode : s.mode with
    | normal => exact h.of_command hup (command_press s hmode k.clipboard k.key k.mods)
    | editing => exact absurd hmode h.mode
    | help =>
        obtain ⟨mode, position, hediting, heq⟩ := pressHelp_eq s hmode k.key
        rw [stroke, press, hmode]
        simp only [heq]
        exact .inl ⟨hediting, h.buffer⟩
  · rw [stroke, press, h.mode]
    cases hkey : k.key.endsEdit with
    | false => exact .inr ⟨n, _, h.pressEditing hup hkey⟩
    | true => exact .inl (idle_pressEditing s hkey)

/-- Every session that keys lead to is idle or edits an input. -/
theorem idle_or_edits_pressAll
    (hup : s.UpToDate m)
    (h : s.Idle ∨ ∃ n z, s.Edits n z)
    (strokes : List Stroke) :
    (s.pressAll strokes).Idle ∨ ∃ n z, (s.pressAll strokes).Edits n z :=
  hup.pressAll_induction h fun _ hup h k _ => idle_or_edits_stroke hup h k

/-- A page opens with an idle session. -/
theorem ofPage_idle
    (page : Page)
    (m : Markup) :
    ∃ opened, ofPage page m = .ok opened ∧ opened.UpToDate m ∧ opened.Idle := by
  obtain ⟨opened, hopened, hup⟩ := ofPage_spec page m
  refine ⟨opened, hopened, hup, ?_⟩
  rw [ofPage] at hopened
  split at hopened
  · cases hopened
  · split at hopened
    · cases hopened
    · cases hopened
      exact ⟨by simp, rfl⟩

end AllKeys

section Zippers

/-- How keys act on a session that edits the input `n`, as the zipper `z`. -/
structure FollowsZipper (s : Session) (n : NodeId) (z : Zipper) : Prop where
  pressed : ∀ k : Stroke, k.key.endsEdit = false → (s.stroke k).Edits n (z.press k.key)
  /-- A key that leaves the zipper alone does nothing at all. -/
  ignored : ∀ k : Stroke, k.key.endsEdit = false → z.press k.key = z → s.stroke k = s
  moved : ∀ key, Zipper.isMove key = true → (z.press key).text = z.text
  ended : ∀ k : Stroke, k.key.endsEdit = true →
    (s.stroke k).mode = .normal ∧ (s.stroke k).buffer = ⟨[], 0⟩
  /-- Every end of the edit but its cancellation leaves the text in the input. -/
  kept : ∀ k : Stroke, k.key.endsEdit = true → k.key ≠ .escape →
    (s.stroke k).document.value? n = some (String.ofList z.text)
  /-- The input is drawn as the two lists, with a space for a cursor at the end. -/
  drawn : ∀ e, (Screen.inputSpans s e true).map Span.text =
    ["[", String.ofList z.before, String.ofList [z.after.head?.getD ' '],
      String.ofList z.after.tail, "]"]

theorem Edits.followsZipper
    (h : s.Edits n z)
    (hup : s.UpToDate m) :
    s.FollowsZipper n z := by
  have hstroke : ∀ k : Stroke, s.stroke k = s.pressEditing k.key := by
    intro k
    rw [stroke, press, h.mode]
  refine ⟨?_, ?_, fun _ => z.text_press_of_isMove, ?_, ?_, ?_⟩
  · intro k hkey
    rw [hstroke]
    exact h.pressEditing hup hkey
  · intro k hkey hpress
    rw [hstroke]
    exact pressEditing_eq_self h.buffer hkey hpress
  · intro k hkey
    rw [hstroke]
    exact normal_of_endsEdit s hkey
  · intro k hkey hescape
    obtain ⟨focus, heq⟩ := pressEditing_of_endsEdit s hkey hescape
    rw [hstroke, heq]
    exact h.value?
  · intro e
    rw [Screen.inputSpans, h.mode, h.buffer]
    simp [Screen.bufferSpans]

/-- The buffer of a session that is idle or edits an input can be split at its cursor. -/
theorem isSome_split?_of_idle_or_edits
    (h : s.Idle ∨ ∃ n z, s.Edits n z) :
    s.buffer.split?.isSome = true := by
  rcases h with h | ⟨n, z, h⟩
  · rw [h.buffer]
    rfl
  · rw [h.buffer, EditBuffer.split?_toBuffer]
    rfl

theorem isSome_split?_startEditing
    (h : s.Idle ∨ ∃ n z, s.Edits n z) :
    s.startEditing.buffer.split?.isSome = true := by
  cases hn : s.focusedInput? with
  | none =>
      rw [startEditing_of_focusedInput?_none s hn]
      exact isSome_split?_of_idle_or_edits h
  | some n =>
      obtain ⟨text, hedits⟩ := edits_startEditing hn
      exact isSome_split?_of_idle_or_edits (.inr ⟨n, _, hedits⟩)

/--
Every page opens, and whatever keys are pressed after that: either nothing is being
edited and the buffer is empty with its cursor at zero, or an input has the focus and
holds the text of a zipper, whose buffer the session has, and all keys follow this
zipper. The cursor is a position of the UTF-8 form of the text, in the buffer as it is
and in the one with which a digit would start an edit. These are all buffers that are
changed, cut or drawn at the cursor.
-/
theorem zipper_pressAll
    (page : Page)
    (m : Markup)
    (strokes : List Stroke) :
    ∃ opened reached,
      ofPage page m = .ok opened ∧
      opened.pressAll strokes = reached ∧
      (reached.Idle ∨ ∃ n z, reached.Edits n z ∧ reached.FollowsZipper n z) ∧
      String.Pos.Raw.IsValid (String.ofList reached.buffer.text) ⟨reached.buffer.cursor⟩ ∧
      String.Pos.Raw.IsValid (String.ofList reached.startEditing.buffer.text)
        ⟨reached.startEditing.buffer.cursor⟩ := by
  obtain ⟨opened, hopened, hfirst, hidle⟩ := ofPage_idle page m
  have hup := hfirst.pressAll strokes
  have h := idle_or_edits_pressAll hfirst (.inl hidle) strokes
  refine ⟨opened, _, hopened, rfl, ?_, ?_, ?_⟩
  · rcases h with h | ⟨n, z, h⟩
    · exact .inl h
    · exact .inr ⟨n, z, h, h.followsZipper hup⟩
  · exact (EditBuffer.isSome_split?_iff _).mp (isSome_split?_of_idle_or_edits h)
  · exact (EditBuffer.isSome_split?_iff _).mp (isSome_split?_startEditing h)

/-- A letter of two bytes and a digit go into the first input of the demo page, and the
letter is removed with the cursor behind it. -/
theorem zipper_pressAll_demo :
    ∃ opened reached n z,
      ofPage Page.demo {} = .ok opened ∧
      opened.pressAll [{ key := .enter }, { key := .char 'é' }, { key := .char '7' },
        { key := .left }] = reached ∧
      reached.buffer = ⟨['é', '7'], 2⟩ ∧
      reached.Edits n z ∧
      (reached.stroke { key := .backspace }).Edits n (z.press .backspace) := by
  obtain ⟨opened, reached, hopened, hreached, hkinds, _⟩ :=
    zipper_pressAll Page.demo {} [{ key := .enter }, { key := .char 'é' }, { key := .char '7' },
      { key := .left }]
  have hediting : (ofPage Page.demo {}).map (fun s =>
      let reached := s.pressAll [{ key := .enter }, { key := .char 'é' }, { key := .char '7' },
        { key := .left }]
      (reached.mode, reached.buffer)) = .ok (.editing, ⟨['é', '7'], 2⟩) := by
    decide +kernel
  rw [hopened] at hediting
  obtain ⟨hmode, hbuffer⟩ := Prod.mk.inj (Except.ok.inj hediting)
  rw [hreached] at hmode hbuffer
  rcases hkinds with h | ⟨n, z, h, hfollows⟩
  · exact absurd hmode h.mode
  · exact ⟨opened, reached, n, z, hopened, hreached, hbuffer, h, hfollows.pressed _ rfl⟩

end Zippers

end Session
end LiveForms
