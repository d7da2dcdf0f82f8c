import LiveForms.Proofs.Document.Walks
import LiveForms.Proofs.Session.Editing
import LiveForms.Proofs.Session.Effects

/-!
# Live forms: what one key leaves alone

A key does at most one thing to the document: it writes a value into the input that has the
focus, puts a new row into the container, or takes out the row around the focus. After that
all formulas are recomputed, and these are the ones that are in the tree by then. Nothing
else changes, wherever rows, formulas and the container lie.

Main definitions:

* `Element.Touched`: what may change of an element, and when.
* `Session.Relinked`: what may change of the links.

Main statements:

* `Session.framed_stroke`: what one key leaves alone.
* `Session.frame_pressAll`: what every key leaves alone, after all keys.
-/

namespace LiveForms

/-- What became of an element: its value is another one only if it was written, and its text
and the class of an invalid formula only if it is shown. The rest stays. -/
structure Element.Touched (m : Markup) (written shown : Prop) (e e' : Element) : Prop where
  identity : e.SameIdentity e'
  value : e.value ≠ e'.value → written
  text : e.text ≠ e'.text → shown
  invalid : e.hasClass m.invalidClass ≠ e'.hasClass m.invalidClass → shown
  hasClass : ∀ name, name ≠ m.invalidClass → e'.hasClass name = e.hasClass name

namespace Element.Touched

variable {m : Markup} {written shown : Prop} {e e' : Element}

theorem refl
    (e : Element) :
    e.Touched m written shown e :=
  ⟨.refl e, fun hne => absurd rfl hne, fun hne => absurd rfl hne, fun hne => absurd rfl hne,
    fun _ _ => rfl⟩

theorem trans
    {e'' : Element}
    (h : e.Touched m written shown e')
    (h' : e'.Touched m written shown e'') :
    e.Touched m written shown e'' where
  identity := h.identity.trans h'.identity
  value hne := (hne.ne_or_ne e'.value).elim h.value fun hne => h'.value hne.symm
  text hne := (hne.ne_or_ne e'.text).elim h.text fun hne => h'.text hne.symm
  invalid hne := (hne.ne_or_ne (e'.hasClass m.invalidClass)).elim h.invalid fun hne =>
    h'.invalid hne.symm
  hasClass name hname := (h'.hasClass name hname).trans (h.hasClass name hname)

theorem of_value
    (hwritten : written)
    (value : String) :
    e.Touched m written shown { e with value := value } :=
  ⟨⟨rfl, rfl, rfl, rfl, rfl⟩, fun _ => hwritten, fun hne => absurd rfl hne,
    fun hne => absurd rfl hne, fun _ _ => rfl⟩

/-- What can be shown by an element whose quiet copy stays. -/
theorem of_quiet
    (hquiet : e'.quiet m.invalidClass = e.quiet m.invalidClass)
    (hshown : shown) :
    e.Touched m written shown e' where
  identity := Element.sameIdentity_of_quiet hquiet
  value hne := absurd (congrArg Element.value hquiet).symm hne
  text _ := hshown
  invalid _ := hshown
  hasClass name hname := by
    rw [← Element.hasClass_quiet (Ne.symm hname) e', hquiet,
      Element.hasClass_quiet (Ne.symm hname)]

end Element.Touched

namespace Document

/-- All elements of `d` are elements of `d'`, and were touched as the two predicates say. -/
def Touched (m : Markup) (written shown : NodeId → Prop) (d d' : Document) : Prop :=
  ∀ n e, d.element? n = some e →
    ∃ e', d'.element? n = some e' ∧ e.Touched m (written n) (shown n) e'

namespace Touched

variable {m : Markup} {written shown : NodeId → Prop} {d d' : Document}

theorem trans
    {d'' : Document}
    (h : Touched m written shown d d')
    (h' : Touched m written shown d' d'') :
    Touched m written shown d d'' := by
  intro n e he
  obtain ⟨e', he', htouched⟩ := h n e he
  obtain ⟨e'', he'', htouched'⟩ := h' n e' he'
  exact ⟨e'', he'', htouched.trans htouched'⟩

theorem of_element?
    (h : ∀ n, n < d.size → d'.element? n = d.element? n) :
    Touched m written shown d d' := by
  intro n e he
  exact ⟨e, by rw [h n (lt_size_of_element? he), he], .refl e⟩

theorem of_edited
    {n : NodeId} {value : String}
    (hd : d.Edited d' n (fun e => { e with value := value }))
    (hn : written n) :
    Touched m written shown d d' := by
  intro k e he
  rw [hd.element?, he]
  split
  · rename_i hk
    exact ⟨_, rfl, .of_value (hk ▸ hn) value⟩
  · exact ⟨e, rfl, .refl e⟩

/-- A recomputation touches the formulas that it recomputes. -/
theorem of_refreshed
    {formulas : List NodeId}
    (hd : Formula.Refreshed m d d' formulas) :
    Touched m written (· ∈ formulas) d d' := by
  intro n e he
  by_cases hn : n ∈ formulas
  · obtain ⟨e', he', hquiet⟩ := element?_of_quiet hd.quiet he
    exact ⟨e', he', .of_quiet hquiet hn⟩
  · exact ⟨e, by rw [hd.element? n hn, he], .refl e⟩

end Touched

section Links

/-- All links stay, and no node is new. -/
structure SameLinks (d d' : Document) : Prop where
  size : d'.size = d.size
  parent? : ∀ n, d'.parent? n = d.parent? n
  children : ∀ n, d'.children n = d.children n

/-- A new row comes between two children of `container`. All other links stay. -/
structure RowLinked (m : Markup) (d d' : Document) (container : NodeId)
    (before after : List NodeId) : Prop where
  size : d'.size = d.size + 4
  parent? : ∀ n, n < d.size → d'.parent? n = d.parent? n
  siblings : d.children container = before ++ after
  children : ∀ n, n < d.size →
    d'.children n = if n = container then before ++ d.size :: after else d.children n
  parent_row : d'.parent? d.size = some container
  children_row : d'.children d.size = [d.size + 1, d.size + 2, d.size + 3]
  row : ∃ e, d'.element? d.size = some e ∧ (Form.rowElement m).Touched m False True e

/-- The node `row` loses its parent, which drops it from its children. All other links
stay. -/
structure RowUnlinked (d d' : Document) (parent row : NodeId) : Prop where
  size : d'.size = d.size
  parent_row : d.parent? row = some parent
  parent? : ∀ n, d'.parent? n = if n = row then none else d.parent? n
  children : ∀ n,
    d'.children n = if n = parent then (d.children n).filter (· != row) else d.children n

/-- A recomputation changes no links. -/
theorem RowLinked.of_quiet
    {m : Markup} {d d' d'' : Document} {container : NodeId} {before after : List NodeId}
    (h : RowLinked m d d' container before after)
    (hquiet : d''.quiet m.invalidClass = d'.quiet m.invalidClass) :
    RowLinked m d d'' container before after where
  size := (size_of_quiet hquiet).trans h.size
  parent? n hn := (parent?_of_quiet hquiet n).trans (h.parent? n hn)
  siblings := h.siblings
  children n hn := (children_of_quiet hquiet n).trans (h.children n hn)
  parent_row := (parent?_of_quiet hquiet _).trans h.parent_row
  children_row := (children_of_quiet hquiet _).trans h.children_row
  row := by
    obtain ⟨e, he, htouched⟩ := h.row
    obtain ⟨e', he', hsame⟩ := element?_of_quiet hquiet he
    exact ⟨e', he', htouched.trans (.of_quiet hsame trivial)⟩

theorem RowUnlinked.of_quiet
    {name : String} {d d' d'' : Document} {parent row : NodeId}
    (h : RowUnlinked d d' parent row)
    (hquiet : d''.quiet name = d'.quiet name) :
    RowUnlinked d d'' parent row where
  size := (size_of_quiet hquiet).trans h.size
  parent_row := h.parent_row
  parent? n := (parent?_of_quiet hquiet n).trans (h.parent? n)
  children n := (children_of_quiet hquiet n).trans (h.children n)

end Links

end Document

theorem Form.RowAdded.rowLinked
    {m : Markup} {d d' : Document} {container : NodeId} {before after : List NodeId}
    (hd : RowAdded m d d' container before after) :
    d.RowLinked m d' container before after where
  size := hd.size
  parent? := hd.grown.parent?
  siblings := hd.siblings
  children := hd.children
  parent_row := hd.parent_row
  children_row := hd.row.children
  row := ⟨_, hd.row.element, .refl _⟩

namespace Session

/-- What a key does to the links. -/
inductive Relinked (m : Markup) (s : Session) (d : Document) : Prop
  | same
      (hd : s.document.SameLinks d)
  | added
      {container : NodeId} {before after : List NodeId}
      (hcontainer : s.document.byId m.gpaContainerId = some container)
      (hd : s.document.RowLinked m d container before after)
  /-- The row is the nearest one around the focus. -/
  | removed
      {n parent row : NodeId}
      (hn : s.focused? = some n)
      (hrow : s.document.Nearest m.rowClass n row)
      (hd : s.document.RowUnlinked d parent row)

/-- A node in the tree with the tag of a formula. -/
def ShowsFormula (m : Markup) (s : Session) (n : NodeId) : Prop :=
  s.document.isAttached n = true ∧ ∃ e, s.document.element? n = some e ∧ e.tag = m.formulaTag

/-- What a key leaves alone. -/
structure Framed (m : Markup) (s s' : Session) : Prop where
  root : s.document.element? Document.root = none ∧ s'.document.element? Document.root = none
  element : ∀ n, n < s.document.size → n ≠ Document.root →
    ∃ e e', s.document.element? n = some e ∧ s'.document.element? n = some e' ∧
      e.Touched m (s.focusedInput? = some n) (s'.ShowsFormula m n) e'
  links : s.Relinked m s'.document
  help : s.mode = .help → s'.form = s.form

variable {m : Markup} {s : Session}

/-- The focus is in the tree. -/
theorem UpToDate.above_of_focused?
    (h : s.UpToDate m)
    {n : NodeId}
    (hn : s.focused? = some n) :
    s.document.Above Document.root n := by
  have hmem : n ∈ s.focusables := List.mem_of_getElem? hn
  exact h.settled.wellFormed.mem_descendants_iff.mp (List.mem_filter.mp hmem).1

/-- The focus is below the root, and so is every element on the way up from there. -/
theorem UpToDate.exists_parent_of_nearest
    (h : s.UpToDate m)
    {n row : NodeId}
    (hn : s.focused? = some n)
    (hrow : s.document.Nearest m.rowClass n row) :
    ∃ parent, s.document.parent? row = some parent := by
  obtain ⟨e, he, _⟩ := Document.nodeIs_iff.mp hrow.hasClass
  exact h.settled.wellFormed.exists_parent_of_reached (h.above_of_focused? hn) hrow.reached he

theorem UpToDate.mem_formulas_iff
    (h : s.UpToDate m)
    (n : NodeId) :
    n ∈ s.form.formulas ↔ s.ShowsFormula m n := by
  rw [h.settled.formulas, h.markup]
  exact h.settled.wellFormed.mem_withTag_root_iff

theorem UpToDate.effect_stroke
    (h : s.UpToDate m)
    (k : Stroke) :
    s.Effect m (s.mode = .normal ∧ s.AddsRow k.key k.mods) (s.stroke k).form
      (s.stroke k).focus :=
  h.effect_press k.clipboard k.key k.mods

/-- A recomputation changes no links. -/
theorem Relinked.of_quiet
    {d d' : Document}
    (h : s.Relinked m d)
    (hquiet : d'.quiet m.invalidClass = d.quiet m.invalidClass) :
    s.Relinked m d' := by
  have hsize := Document.size_of_quiet hquiet
  have hparent := Document.parent?_of_quiet hquiet
  have hchildren := Document.children_of_quiet hquiet
  cases h with
  | same hd =>
      exact .same ⟨hsize.trans hd.size, fun n => (hparent n).trans (hd.parent? n),
        fun n => (hchildren n).trans (hd.children n)⟩
  | added hcontainer hd => exact .added hcontainer (hd.of_quiet hquiet)
  | removed hn hrow hd => exact .removed hn hrow (hd.of_quiet hquiet)

namespace Effect

variable {adds : Prop} {form : Form} {focus : Nat}

theorem touched
    (h : s.UpToDate m)
    (heffect : s.Effect m adds form focus) :
    Document.Touched m (fun n => s.focusedInput? = some n) (· ∈ form.formulas) s.document
      form.document := by
  obtain rfl := h.markup
  cases heffect with
  | moved => exact .of_element? fun _ _ => rfl
  | entered hn hd hdone =>
      have hentered : Document.Touched s.markup (fun n => s.focusedInput? = some n)
          (· ∈ s.form.formulas) s.document _ :=
        .of_edited hd hn
      exact hentered.trans (.of_refreshed hdone)
  | added hadds hcontainer hd hdone =>
      exact (Document.Touched.of_element? hd.grown.element?).trans (.of_refreshed hdone)
  | removed hn hrow hd hdone =>
      exact (Document.Touched.of_element? fun n _ => hd.element? n).trans (.of_refreshed hdone)

theorem relinked
    (h : s.UpToDate m)
    (heffect : s.Effect m adds form focus) :
    s.Relinked m form.document := by
  have hdoc := h.settled.wellFormed
  cases heffect with
  | moved => exact .same ⟨rfl, fun _ => rfl, fun _ => rfl⟩
  | entered hn hd hdone =>
      have hsame : s.Relinked m _ := .same ⟨hd.size, hd.parent?, hd.children⟩
      exact hsame.of_quiet hdone.quiet
  | added hadds hcontainer hd hdone =>
      rw [h.settled.container, h.markup] at hcontainer
      exact .added hcontainer (hd.rowLinked.of_quiet hdone.quiet)
  | @removed n row _ _ hn hrow hd hdone =>
      have hnearest := hdoc.closestWithClass_eq_some_iff.mp hrow
      obtain ⟨parent, hparent⟩ := h.exists_parent_of_nearest hn hnearest
      have hunlinked : s.Relinked m _ :=
        .removed hn hnearest
          ⟨hd.size, hparent, hd.parent?, hdoc.children_of_removed hd hparent⟩
      exact hunlinked.of_quiet hdone.quiet

end Effect

theorem form_stroke_of_help
    (hmode : s.mode = .help)
    (k : Stroke) :
    (s.stroke k).form = s.form := by
  obtain ⟨mode, position, _, heq⟩ := pressHelp_eq s hmode k.key
  rw [stroke, press, hmode]
  simp only [heq]

/-- What one key leaves alone. -/
theorem framed_stroke
    (h : s.UpToDate m)
    (k : Stroke) :
    s.Framed m (s.stroke k) := by
  have h' : (s.stroke k).UpToDate m := h.press k.clipboard k.key k.mods
  have heffect := h.effect_stroke k
  refine ⟨⟨h.settled.wellFormed.element_root, h'.settled.wellFormed.element_root⟩, ?_,
    heffect.relinked h, fun hmode => form_stroke_of_help hmode k⟩
  intro n hn hroot
  obtain ⟨e, he⟩ := h.settled.wellFormed.element_of_lt n hn hroot
  obtain ⟨e', he', hsame⟩ := heffect.touched h n e he
  simp only [h'.mem_formulas_iff] at hsame
  exact ⟨e, e', he, he', hsame⟩

/--
Every page opens. Whatever keys have been pressed after that, of the nodes that are there
the next key changes: the value of the input that has the focus; texts and the class of an
invalid formula of elements that are formulas in the tree after the key; and the links to a
new row in the container, or to the nearest row around the focus, which loses its parent.
Everything else stays, the order of children included, and while the help text is shown
nothing changes at all.
-/
theorem frame_pressAll
    (page : Page)
    (m : Markup)
    (strokes : List Stroke)
    (k : Stroke) :
    ∃ opened before after,
      ofPage page m = .ok opened ∧
      opened.pressAll strokes = before ∧
      before.stroke k = after ∧
      before.Framed m after := by
  obtain ⟨opened, hopened, hfirst⟩ := ofPage_spec page m
  exact ⟨opened, _, _, hopened, rfl, rfl, framed_stroke (hfirst.pressAll strokes) k⟩

end Session
end LiveForms
