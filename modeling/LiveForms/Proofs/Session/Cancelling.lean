import LiveForms.Proofs.Session.Editing

/-!
# Live forms: a cancelled edit leaves nothing behind

Every key of an edit writes a value into the input and recomputes all formulas, so an edit
can make formulas valid and invalid any number of times. What stays the same during the
whole edit is the document that putting back the saved value would give: up to what
formulas show, it is the document from before the edit. The cancellation puts the value
back and recomputes, and then the formulas show what they showed before, because that
depends on the rest of the document only.

The list of the classes of a formula may be in another order afterwards, with the class
of an invalid formula at its end. No question about a document can tell.

Main definitions:

* `Document.SameAnswers`: documents that cannot be told apart by questions.
* `Formula.Redrawn`: documents that differ in what formulas show at most.
* `Session.EditSince`: an edit, seen from the session before it.

Main statement:

* `Session.cancel_restores`: what is left of an edit that is cancelled.
-/

namespace LiveForms

/-- The document `d'` answers every question in the way of `d`. -/
structure Document.SameAnswers (d d' : Document) : Prop where
  size : d'.size = d.size
  parent? : ∀ n, d'.parent? n = d.parent? n
  children : ∀ n, d'.children n = d.children n
  identity : ∀ n e, d.element? n = some e →
    ∃ e', d'.element? n = some e' ∧ e.SameIdentity e'
  value? : ∀ n, d'.value? n = d.value? n
  text? : ∀ n, d'.text? n = d.text? n
  hasClass : ∀ n name, d'.hasClass n name = d.hasClass n name
  byId : ∀ id, d'.byId id = d.byId id

namespace Formula

/-- In `d'` formulas of a list may show something else; all else is as in `d`. -/
structure Redrawn (m : Markup) (formulas : List NodeId) (d d' : Document) : Prop where
  quiet : d'.quiet m.invalidClass = d.quiet m.invalidClass
  element? : ∀ n, n ∉ formulas → d'.element? n = d.element? n

namespace Redrawn

variable {m : Markup} {formulas : List NodeId} {d d' d'' : Document}

theorem refl
    (d : Document) :
    Redrawn m formulas d d :=
  ⟨rfl, fun _ _ => rfl⟩

theorem trans
    (h : Redrawn m formulas d d')
    (h' : Redrawn m formulas d' d'') :
    Redrawn m formulas d d'' :=
  ⟨h'.quiet.trans h.quiet, fun n hn => (h'.element? n hn).trans (h.element? n hn)⟩

theorem of_refreshed
    (h : Refreshed m d d' formulas) :
    Redrawn m formulas d d' :=
  ⟨h.quiet, h.element?⟩

/-- The same value is written into both documents. -/
theorem edited
    {e e' : Document} {n : NodeId} {value : String}
    (h : Redrawn m formulas d d')
    (hd : d.Edited e n (fun e => { e with value := value }))
    (hd' : d'.Edited e' n (fun e => { e with value := value })) :
    Redrawn m formulas e e' := by
  constructor
  · have hquiet : (d.quiet m.invalidClass).Edited (e.quiet m.invalidClass) n
        fun e => { e with value := value } :=
      hd.quiet fun _ => rfl
    have hquiet' : (d'.quiet m.invalidClass).Edited (e'.quiet m.invalidClass) n
        fun e => { e with value := value } :=
      hd'.quiet fun _ => rfl
    rw [h.quiet] at hquiet'
    exact hquiet.unique hquiet'
  · intro k hk
    rw [hd.element?, hd'.element?, h.element? k hk]

variable (h : Redrawn m formulas d d')
include h

theorem value?
    (n : NodeId) :
    d'.value? n = d.value? n :=
  Document.value?_of_quiet h.quiet n

theorem identity
    {n : NodeId} {e : Element}
    (he : d.element? n = some e) :
    ∃ e', d'.element? n = some e' ∧ e.SameIdentity e' := by
  obtain ⟨e', he', hsame⟩ := Document.element?_of_quiet h.quiet he
  exact ⟨e', he', Element.sameIdentity_of_quiet hsame⟩

section Shows

variable (hm : m.InvalidApart)
variable (hshows : ∀ f ∈ formulas, Shows m d f) (hshows' : ∀ f ∈ formulas, Shows m d' f)
include hm hshows hshows'

/-- What a node shows depends on the rest of the document. -/
theorem shown
    (n : NodeId) :
    (d'.element? n).map (fun e => (e.text, e.hasClass m.invalidClass)) =
      (d.element? n).map (fun e => (e.text, e.hasClass m.invalidClass)) := by
  by_cases hn : n ∈ formulas
  · rw [hshows n hn, hshows' n hn, compute_congr hm h.quiet]
  · rw [h.element? n hn]

theorem text?
    (n : NodeId) :
    d'.text? n = d.text? n := by
  have hshown := congrArg (Option.map Prod.fst) (shown h hm hshows hshows' n)
  simp only [Option.map_map, Function.comp_def] at hshown
  exact hshown

theorem hasClass
    (n : NodeId)
    (name : String) :
    d'.hasClass n name = d.hasClass n name := by
  by_cases hname : m.invalidClass = name
  · subst hname
    have hany : ∀ d : Document, d.hasClass n m.invalidClass =
        ((d.element? n).map fun e => (e.text, e.hasClass m.invalidClass)).any Prod.snd := by
      intro d
      rw [Document.hasClass, Document.nodeIs]
      cases d.element? n <;> rfl
    rw [hany, hany, shown h hm hshows hshows' n]
  · have hclass := Element.hasClass_quiet hname
    exact congrFun (Document.nodeIs_of_quiet h.quiet hclass) n

theorem sameAnswers : d.SameAnswers d' where
  size := Document.size_of_quiet h.quiet
  parent? := Document.parent?_of_quiet h.quiet
  children := Document.children_of_quiet h.quiet
  identity _ _ he := identity h he
  value? := value? h
  text? := text? h hm hshows hshows'
  hasClass := hasClass h hm hshows hshows'
  byId id := by rw [← Document.byId_quiet m.invalidClass, h.quiet, Document.byId_quiet]

end Shows

end Redrawn
end Formula

/-- The keys that start an edit if the focus is on an input. -/
def Key.opensEdit : Key → Bool
  | .enter => true
  | .function number => number = 2
  | .char c => c = ' ' || Session.startsEdit c
  | _ => false

namespace Session

variable {m : Markup} {before s : Session} {n : NodeId} {z : Zipper}

theorem activate_of_focusedInput?
    (hn : s.focusedInput? = some n) :
    s.activate = s.startEditing := by
  obtain ⟨hfocused, e, he, hinput⟩ := focusedInput?_eq_some_iff.mp hn
  have hnode : s.document.nodeIs Element.isInput n = true :=
    Document.nodeIs_iff.mpr ⟨e, he, hinput⟩
  simp only [activate, hfocused, hnode, if_true]

theorem editWith_of_focusedInput?
    (hn : s.focusedInput? = some n)
    (c : Char) :
    s.editWith c = s.startEditing.insertChar c := by
  have hediting : s.startEditing.mode = .editing := by
    rw [startEditing_of_focusedInput? s hn]
  rw [editWith, if_pos hediting]

theorem command_char_of_startsEdit
    (s : Session)
    (clipboard : Clipboard)
    {c : Char}
    (hc : startsEdit c = true) :
    s.command clipboard (.char c) = s.editWith c := by
  unfold command
  split
  case h_17 heq =>
      cases heq
      rw [if_pos hc]
  case h_18 hother => exact absurd rfl (hother c)
  -- the other cases are those of keys without a character, and of letters with a command
  all_goals
    rename_i heq
    cases heq
  all_goals exact absurd hc (by decide)

/-- The edit starts with the value of the input, or with one more character. -/
theorem stroke_of_opensEdit
    (hmode : s.mode = .normal)
    (hn : s.focusedInput? = some n)
    {k : Stroke}
    (hkey : k.key.opensEdit = true) :
    s.stroke k = s.startEditing ∨ ∃ c, s.stroke k = s.startEditing.insertChar c := by
  -- the two keys that are row commands with the control key start no edit
  have hadd : k.key ≠ .char 'n' := by
    intro heq
    rw [heq] at hkey
    exact absurd hkey (by decide)
  have hremove : k.key ≠ .char 'd' := by
    intro heq
    rw [heq] at hkey
    exact absurd hkey (by decide)
  have hstroke : s.stroke k = command k.clipboard { s with status := none } k.key :=
    (stroke_of_normal hmode k).trans (pressNormal_eq_command s k.clipboard hadd hremove k.mods)
  have hcleared : focusedInput? { s with status := none } = some n := hn
  have hactivate : activate { s with status := none } = s.startEditing :=
    (activate_of_focusedInput? hcleared).trans (startEditing_of_clearedStatus s hn)
  rw [hstroke]
  cases hk : k.key with
  | enter => exact .inl hactivate
  | function number =>
      rw [hk] at hkey
      obtain rfl : number = 2 := of_decide_eq_true hkey
      exact .inl hactivate
  | char c =>
      rw [hk] at hkey
      rcases (Bool.or_eq_true _ _).mp hkey with hspace | hc
      · obtain rfl : c = ' ' := of_decide_eq_true hspace
        exact .inl hactivate
      · refine .inr ⟨c, ?_⟩
        rw [command_char_of_startsEdit _ _ hc, editWith_of_focusedInput? hcleared,
          startEditing_of_clearedStatus s hn]
  | _ =>
      rw [hk] at hkey
      cases hkey

/--
The input `n` is being edited since the session `before`. With the saved value put back,
the document is that of `before` up to what formulas show.
-/
structure EditSince (m : Markup) (before : Session) (n : NodeId) (s : Session) : Prop where
  edits : ∃ z, s.Edits n z
  focus : s.focus = before.focus
  formulas : s.form.formulas = before.form.formulas
  restored : ∃ d,
    s.document.Edited d n (fun e => { e with value := String.ofList s.saved }) ∧
      Formula.Redrawn m before.form.formulas before.document d

theorem editSince_startEditing
    (m : Markup)
    (hn : before.focusedInput? = some n) :
    EditSince m before n before.startEditing := by
  obtain ⟨e, he⟩ := element_of_focusedInput? hn
  obtain ⟨text, hedits⟩ := edits_startEditing hn
  refine ⟨⟨_, hedits⟩, ?_, ?_, before.document, ?_, .refl _⟩
  · rw [startEditing_of_focusedInput? before hn]
  · rw [startEditing_of_focusedInput? before hn]
  · rw [startEditing_of_focusedInput? before hn]
    refine Document.edited_self he ?_
    simp [Document.value?, he]

namespace EditSince

variable (h : EditSince m before n s) (hup : s.UpToDate m)
include h hup

theorem change
    (z : Zipper) :
    EditSince m before n (s.change z.toBuffer) := by
  obtain ⟨_, hedits⟩ := h.edits
  have hbuffer : { s with buffer := z.toBuffer }.UpToDate m := hup.of_form_eq rfl (.inl rfl)
  obtain ⟨entered, d', hentered, hdone, happly⟩ := hbuffer.applyBuffer_eq hedits.focusedInput?
  obtain ⟨restored, hrestored, hredrawn⟩ := h.restored
  -- the value that is put back goes over the new one in the same way as over the old one
  have hback := hentered.overwrite hrestored fun _ => rfl
  obtain ⟨e, he⟩ := hentered.exists_element hentered.element_n
  obtain ⟨_, he', _⟩ := (Document.kept_of_steps hdone.steps).element? n e he
  obtain ⟨after, hafter⟩ := Document.modifyElement_of_element?
    (fun e => { e with value := String.ofList s.saved }) he'
  have hafter := Document.modifyElement_spec hafter
  refine ⟨⟨z, edits_change hup hedits.mode hedits.focusedInput?⟩, ?_, ?_, after, ?_, ?_⟩
  · rw [Session.change, happly]
    exact h.focus
  · rw [Session.change, happly]
    exact h.formulas
  · rw [Session.change, happly]
    exact hafter
  · have hrefreshed := Formula.Redrawn.of_refreshed hdone
    rw [h.formulas] at hrefreshed
    exact hredrawn.trans (hrefreshed.edited hback hafter)

theorem stroke
    {k : Stroke}
    (hkey : k.key.endsEdit = false) :
    EditSince m before n (s.stroke k) := by
  obtain ⟨z, hedits⟩ := h.edits
  have hstroke : s.stroke k = s.pressEditing k.key := by
    rw [Session.stroke, press, hedits.mode]
  rw [hstroke]
  have hnext := hedits.pressEditing hup hkey
  rw [pressEditing_eq hedits.buffer hkey] at hnext ⊢
  split
  · rename_i htext
    rw [if_pos htext] at hnext
    exact ⟨⟨_, hnext⟩, h.focus, h.formulas, h.restored⟩
  · exact h.change hup _

theorem pressAll
    {edits : List Stroke}
    (hedits : ∀ k ∈ edits, k.key.endsEdit = false) :
    EditSince m before n (s.pressAll edits) :=
  hup.pressAll_induction h fun _ hup h k hk => h.stroke hup (hedits k hk)

/-- The cancellation puts the saved value back. -/
theorem cancelEditing :
    s.cancelEditing.mode = .normal ∧ s.cancelEditing.focus = before.focus ∧
      s.cancelEditing.buffer = ⟨[], 0⟩ ∧ s.cancelEditing.form.formulas = before.form.formulas ∧
      Formula.Redrawn m before.form.formulas before.document s.cancelEditing.document := by
  obtain ⟨_, hedits⟩ := h.edits
  have hsaved :
      { s with buffer := { s.buffer with text := s.saved }, saved := [] }.UpToDate m :=
    hup.of_form_eq rfl (.inl rfl)
  obtain ⟨entered, d', hentered, hdone, happly⟩ := hsaved.applyBuffer_eq hedits.focusedInput?
  obtain ⟨restored, hrestored, hredrawn⟩ := h.restored
  obtain rfl := hrestored.unique hentered
  have hrefreshed := Formula.Redrawn.of_refreshed hdone
  rw [h.formulas] at hrefreshed
  rw [Session.cancelEditing, happly]
  exact ⟨rfl, h.focus, rfl, h.formulas, hredrawn.trans hrefreshed⟩

end EditSince

/-- An edit that is cancelled leaves the formulas as they were, and so everything. -/
theorem sameAnswers_of_redrawn
    {after : Session}
    (hm : m.InvalidApart)
    (hbefore : before.UpToDate m)
    (hafter : after.UpToDate m)
    (hformulas : after.form.formulas = before.form.formulas)
    (h : Formula.Redrawn m before.form.formulas before.document after.document) :
    before.document.SameAnswers after.document := by
  have hshows := hbefore.settled.shows (hbefore.markup ▸ hm)
  have hshows' := hafter.settled.shows (hafter.markup ▸ hm)
  rw [hbefore.markup] at hshows
  rw [hafter.markup, hformulas] at hshows'
  exact h.sameAnswers hm hshows hshows'

/--
Every page opens. Whatever keys are pressed after that, if they lead to a session in
normal mode whose focus is on an input, then a key that starts an edit, keys that do not
end it and the escape key bring back the mode, the focus, the buffer with its cursor, and
a document that answers every question in the way of the one before.
-/
theorem cancel_restores
    (page : Page)
    (m : Markup)
    (hrow : m.invalidClass ≠ m.rowClass)
    (hgrade : m.invalidClass ≠ m.gradeClass)
    (hcredit : m.invalidClass ≠ m.creditClass)
    (strokes : List Stroke)
    (opener : Stroke)
    (hopener : opener.key.opensEdit = true)
    (edits : List Stroke)
    (hedits : ∀ k ∈ edits, k.key.endsEdit = false)
    (escape : Stroke)
    (hescape : escape.key = .escape) :
    ∃ opened before,
      ofPage page m = .ok opened ∧
      opened.pressAll strokes = before ∧
      ∀ n, before.mode = .normal → before.focusedInput? = some n →
        ∃ after, before.pressAll (opener :: edits ++ [escape]) = after ∧
          after.mode = .normal ∧ after.focus = before.focus ∧
          after.buffer = before.buffer ∧
          before.document.SameAnswers after.document := by
  obtain ⟨opened, hopened, hfirst, hidle⟩ := ofPage_idle page m
  refine ⟨opened, _, hopened, rfl, ?_⟩
  have hkinds := idle_or_edits_pressAll hfirst (.inl hidle) strokes
  have hup := hfirst.pressAll strokes
  generalize opened.pressAll strokes = before at hkinds hup ⊢
  intro n hmode hn
  have hbuffer : before.buffer = ⟨[], 0⟩ := by
    rcases hkinds with h | ⟨_, _, h⟩
    · exact h.buffer
    · rw [h.mode] at hmode
      cases hmode
  have hstart := editSince_startEditing m hn
  have hopen : EditSince m before n (before.stroke opener) := by
    rcases stroke_of_opensEdit hmode hn hopener with h | ⟨c, h⟩
    · rw [h]
      exact hstart
    · obtain ⟨z, hz⟩ := hstart.edits
      rw [h, insertChar, hz.buffer, EditBuffer.insert_toBuffer]
      exact hstart.change hup.startEditing _
  have hupOpen : (before.stroke opener).UpToDate m :=
    hup.press opener.clipboard opener.key opener.mods
  have hlast := hopen.pressAll hupOpen hedits
  have hupLast := hupOpen.pressAll edits
  obtain ⟨_, hz⟩ := hlast.edits
  have hpress : before.pressAll (opener :: edits ++ [escape]) =
      ((before.stroke opener).pressAll edits).cancelEditing := by
    rw [pressAll, List.cons_append, List.foldl_cons, List.foldl_append]
    show stroke ((before.stroke opener).pressAll edits) escape = _
    rw [stroke, press, hz.mode, hescape]
    rfl
  obtain ⟨hnormal, hfocus, hempty, hformulas, hredrawn⟩ := hlast.cancelEditing hupLast
  refine ⟨_, hpress, hnormal, hfocus, hempty.trans hbuffer.symm, ?_⟩
  exact sameAnswers_of_redrawn ⟨hrow, hgrade, hcredit⟩ hup hupLast.cancelEditing hformulas
    hredrawn

/-- An input, and a formula that doubles it. -/
def doubling : Page where
  body :=
    Page.leaves
      [{ tag := "input", id := some "a", value := some "12" },
       { tag := "formula", attrs := [("evaluator", "a * 2")] }]
      .nil

/-- While a letter is in the input, the formula is invalid; then the edit is cancelled. -/
theorem cancel_restores_doubling :
    ({} : Markup).invalidClass ≠ ({} : Markup).rowClass ∧
    ({} : Markup).invalidClass ≠ ({} : Markup).gradeClass ∧
    ({} : Markup).invalidClass ≠ ({} : Markup).creditClass ∧
    Key.opensEdit (.char '.') = true ∧
    (∀ k ∈ [({ key := .left } : Stroke), { key := .char 'é' }, { key := .backspace },
      { key := .char 'é' }, { key := .delete }], k.key.endsEdit = false) ∧
    ∃ opened after,
      ofPage doubling {} = .ok opened ∧
      (opened.pressAll [{ key := .char '.' }, { key := .left },
        { key := .char 'é' }]).document.text? 2 = some "Invalid Formula" ∧
      opened.pressAll [{ key := .char '.' }, { key := .left }, { key := .char 'é' },
        { key := .backspace }, { key := .char 'é' }, { key := .delete },
        { key := .escape }] = after ∧
      after.mode = .normal ∧ after.buffer = opened.buffer ∧
      opened.document.SameAnswers after.document := by
  have hdone : ∀ k ∈ [({ key := .left } : Stroke), { key := .char 'é' }, { key := .backspace },
      { key := .char 'é' }, { key := .delete }], k.key.endsEdit = false := by
    simp [Key.endsEdit]
  refine ⟨by decide, by decide, by decide, by decide, hdone, ?_⟩
  obtain ⟨opened, before, hopened, rfl, hcancel⟩ :=
    cancel_restores doubling {} (by decide) (by decide) (by decide) []
      { key := .char '.' } (by decide) _ hdone { key := .escape } rfl
  have hstart : (ofPage doubling {}).map (fun s => (s.mode, s.focusedInput?)) =
      .ok (.normal, some 1) := by
    decide +kernel
  have hletter : (ofPage doubling {}).map (fun s =>
      (s.pressAll [{ key := .char '.' }, { key := .left },
        { key := .char 'é' }]).document.text? 2) = .ok (some "Invalid Formula") := by
    decide +kernel
  rw [hopened] at hstart hletter
  obtain ⟨hmode, hinput⟩ := Prod.mk.inj (Except.ok.inj hstart)
  obtain ⟨after, hafter, hnormal, _, hbuffer, hsame⟩ := hcancel 1 hmode hinput
  exact ⟨opened, after, hopened, Except.ok.inj hletter, hafter, hnormal, hbuffer, hsame⟩

end Session
end LiveForms
