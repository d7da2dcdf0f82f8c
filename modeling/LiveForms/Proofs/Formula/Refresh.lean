import LiveForms.Formula.Form
import LiveForms.Proofs.Document.Index
import LiveForms.Proofs.Formula.Reads

/-!
# Live forms: recomputing formulas

Recomputing writes a text and a class into each formula. It leaves the quiet copy of the
document alone, so what the first formula shows is still its value after the last one is
written, and the same in whatever order they come. Where every formula shows its value
already, nothing changes at all.

Main statements:

* `Formula.refreshAll_spec`: after a recomputation every formula shows its value.
* `Formula.refreshAll_of_shows`: a second recomputation changes nothing.
-/

namespace LiveForms

namespace Document

variable {d d' : Document}

/-- A change can be made on the quiet copies. -/
theorem Edited.quiet
    {name : String} {n : NodeId} {f g : Element → Element}
    (hd : Edited d d' n f)
    (hfg : ∀ e : Element, (f e).quiet name = g (e.quiet name)) :
    Edited (d.quiet name) (d'.quiet name) n g := by
  obtain ⟨e, he⟩ := hd.element_n
  refine ⟨⟨e.quiet name, by rw [element?_quiet, he]; rfl⟩, ?_, ?_, ?_, ?_, hd.ids⟩
  · rw [size_quiet, size_quiet, hd.size]
  · intro m
    rw [parent?_quiet, parent?_quiet, hd.parent?]
  · intro m
    rw [children_quiet, children_quiet, hd.children]
  · intro m
    rw [element?_quiet, element?_quiet, hd.element?]
    split
    · cases d.element? m with
      | none => rfl
      | some e => exact congrArg some (hfg e)
    · rfl

theorem quiet_of_edited
    {name : String} {n : NodeId} {f : Element → Element}
    (hd : Edited d d' n f)
    (hf : ∀ e : Element, (f e).quiet name = e.quiet name) :
    d'.quiet name = d.quiet name := by
  have hquiet : Edited (d.quiet name) (d'.quiet name) n id := hd.quiet hf
  obtain ⟨e, he⟩ := hquiet.element_n
  exact eq_of_edited hquiet he rfl

section QuietCopies

variable {name : String} (h : d'.quiet name = d.quiet name)
include h

theorem size_of_quiet : d'.size = d.size := by
  rw [← size_quiet name d', h, size_quiet]

theorem parent?_of_quiet
    (n : NodeId) :
    d'.parent? n = d.parent? n := by
  rw [← parent?_quiet name d', h, parent?_quiet]

theorem children_of_quiet
    (n : NodeId) :
    d'.children n = d.children n := by
  rw [← children_quiet name d', h, children_quiet]

theorem isAttached_of_quiet
    (hd : d.WellFormed)
    (hd' : d'.WellFormed)
    (n : NodeId) :
    d'.isAttached n = d.isAttached n := by
  rw [Bool.eq_iff_iff, hd.isAttached_iff, hd'.isAttached_iff, above_congr (parent?_of_quiet h)]

theorem value?_of_quiet
    (n : NodeId) :
    d'.value? n = d.value? n := by
  rw [← value?_quiet name d', h, value?_quiet]

theorem nodeIs_of_quiet
    {p : Element → Bool}
    (hp : ∀ e : Element, p (e.quiet name) = p e) :
    d'.nodeIs p = d.nodeIs p := by
  rw [← nodeIs_quiet name d' hp, h, nodeIs_quiet name d hp]

theorem findAll_of_quiet
    {p : Element → Bool}
    (hp : ∀ e : Element, p (e.quiet name) = p e)
    (scope : NodeId) :
    d'.findAll scope p = d.findAll scope p := by
  rw [← findAll_quiet name d' hp, h, findAll_quiet name d hp]

/-- The elements have the same quiet copies. -/
theorem element?_of_quiet
    {n : NodeId} {e : Element}
    (he : d.element? n = some e) :
    ∃ e', d'.element? n = some e' ∧ e'.quiet name = e.quiet name := by
  have hquiet := congrArg (element? · n) h
  simp only [element?_quiet, he, Option.map_some] at hquiet
  exact Option.map_eq_some_iff.mp hquiet

end QuietCopies

end Document

theorem Element.sameIdentity_of_quiet
    {name : String} {e e' : Element}
    (h : e'.quiet name = e.quiet name) :
    e.SameIdentity e' := by
  have htag := congrArg Element.tag h
  have hid := congrArg Element.id h
  have hattrs := congrArg Element.attrs h
  have hplaceholder := congrArg Element.placeholder h
  have hlabel := congrArg Element.label h
  exact ⟨htag, hid, hattrs, hplaceholder, hlabel⟩

namespace Formula

/-- The text of an outcome, and whether it is an error. -/
def rendering : Except FormulaError Float → String × Bool
  | .ok x => (display x, false)
  | .error err => (err.message, true)

/-- A formula shows its value: the text is that of its value or error, and the class of
an invalid formula is there in the latter case only. -/
def Shows (m : Markup) (d : Document) (formula : NodeId) : Prop :=
  (d.element? formula).map (fun e => (e.text, e.hasClass m.invalidClass)) =
    some (rendering (compute m d formula))

/-- The element of a formula that presents an outcome. -/
def showing (m : Markup) (outcome : Except FormulaError Float) (e : Element) : Element :=
  match outcome with
  | .ok x => Element.removeClass { e with text := display x } m.invalidClass
  | .error err => Element.addClass { e with text := err.message } m.invalidClass

variable (m : Markup)

theorem sameIdentity_showing
    (outcome : Except FormulaError Float)
    (e : Element) :
    e.SameIdentity (showing m outcome e) := by
  cases outcome with
  | ok x => exact ⟨rfl, rfl, rfl, rfl, rfl⟩
  | error err =>
      have hclass := Element.sameIdentity_addClass { e with text := err.message } m.invalidClass
      exact ⟨hclass.tag, hclass.id, hclass.attrs, hclass.placeholder, hclass.label⟩

theorem quiet_showing
    (outcome : Except FormulaError Float)
    (e : Element) :
    (showing m outcome e).quiet m.invalidClass = e.quiet m.invalidClass := by
  cases outcome with
  | ok x => simp [showing, Element.removeClass, Element.quiet]
  | error err =>
      rw [showing, Element.addClass]
      split <;> simp [Element.quiet]

/-- What is shown can be read off the element. -/
theorem rendering_showing
    (outcome : Except FormulaError Float)
    (e : Element) :
    ((showing m outcome e).text, (showing m outcome e).hasClass m.invalidClass) =
      rendering outcome := by
  cases outcome with
  | ok x => simp [showing, rendering, Element.removeClass, Element.hasClass]
  | error err =>
      rw [showing, Element.addClass]
      split
      · rename_i hclass
        rw [hclass]
        rfl
      · simp [rendering, Element.hasClass]

/-- An element that shows an outcome already is not changed. -/
theorem showing_eq_self
    {outcome : Except FormulaError Float} {e : Element}
    (he : (e.text, e.hasClass m.invalidClass) = rendering outcome) :
    showing m outcome e = e := by
  cases outcome with
  | ok x =>
      obtain ⟨htext, hclass⟩ := Prod.mk.inj he
      have hclasses : e.classes.filter (· != m.invalidClass) = e.classes := by
        rw [List.filter_eq_self]
        intro c hc
        rw [bne_iff_ne]
        rintro rfl
        simp [Element.hasClass, hc] at hclass
      simp [showing, Element.removeClass, hclasses, ← htext]
  | error err =>
      obtain ⟨htext, hclass⟩ := Prod.mk.inj he
      rw [showing, ← htext, Element.addClass, if_pos hclass]

variable {m} {d d' : Document} {formula : NodeId} {e : Element}

theorem present_spec
    (outcome : Except FormulaError Float)
    (he : d.element? formula = some e) :
    ∃ d', present m d formula outcome = .ok d' ∧
      d.Edited d' formula (showing m outcome) := by
  cases outcome with
  | ok x =>
      obtain ⟨_, d₂, h₁, h₂, hedited⟩ :=
        Document.modifyElement_twice (fun e => { e with text := display x })
          (Element.removeClass · m.invalidClass) he
      refine ⟨d₂, ?_, hedited⟩
      simp only [present, Document.setText, h₁, Document.removeClass, h₂]
  | error err =>
      obtain ⟨_, d₂, h₁, h₂, hedited⟩ :=
        Document.modifyElement_twice (fun e => { e with text := err.message })
          (Element.addClass · m.invalidClass) he
      refine ⟨d₂, ?_, hedited⟩
      simp only [present, Document.setText, h₁, Document.addClass, h₂]

theorem refresh_spec
    (he : d.element? formula = some e) :
    ∃ d', refresh m d formula = .ok d' ∧
      d.Edited d' formula (showing m (compute m d formula)) :=
  present_spec _ he

theorem shows_congr
    (hm : m.InvalidApart)
    (hquiet : d'.quiet m.invalidClass = d.quiet m.invalidClass)
    (helement : d'.element? formula = d.element? formula)
    (hshows : Shows m d formula) :
    Shows m d' formula := by
  rw [Shows, compute_congr hm hquiet, helement]
  exact hshows

theorem shows_of_edited
    (hm : m.InvalidApart)
    (he : d.element? formula = some e)
    (hd : d.Edited d' formula (showing m (compute m d formula))) :
    Shows m d' formula := by
  have hquiet := Document.quiet_of_edited hd (quiet_showing m _)
  rw [Shows, compute_congr hm hquiet, hd.element?, if_pos rfl, he]
  exact congrArg some (rendering_showing m _ e)

/-- What a recomputation makes of a document. -/
structure Refreshed (m : Markup) (d d' : Document) (formulas : List NodeId) : Prop where
  steps : d.Steps d'
  quiet : d'.quiet m.invalidClass = d.quiet m.invalidClass
  shows : m.InvalidApart → ∀ f ∈ formulas, Shows m d' f
  element? : ∀ n, n ∉ formulas → d'.element? n = d.element? n

/-- Elements can always be recomputed, and then they all show their values. -/
theorem refreshAll_spec
    {formulas : List NodeId}
    (hformulas : ∀ f ∈ formulas, ∃ e, d.element? f = some e) :
    ∃ d', refreshAll m d formulas = (d', none) ∧ Refreshed m d d' formulas := by
  induction formulas generalizing d with
  | nil =>
      exact ⟨d, rfl, .refl, rfl, by simp, fun _ _ => rfl⟩
  | cons f rest ih =>
      obtain ⟨e, he⟩ := hformulas f List.mem_cons_self
      obtain ⟨d₁, hrefresh, hedited⟩ := refresh_spec (m := m) he
      have hquiet := Document.quiet_of_edited hedited (quiet_showing m _)
      have hstep := Document.Step.edited hedited (sameIdentity_showing m _)
      have hrest : ∀ g ∈ rest, ∃ e, d₁.element? g = some e := by
        intro g hg
        exact hedited.exists_element (hformulas g (List.mem_cons_of_mem _ hg))
      obtain ⟨d₂, hall, hdone⟩ := ih hrest
      refine ⟨d₂, by simp only [refreshAll, hrefresh, hall], ?_⟩
      refine ⟨.head hstep hdone.steps, hdone.quiet.trans hquiet, ?_, ?_⟩
      · intro hm g hg
        by_cases hmem : g ∈ rest
        · exact hdone.shows hm g hmem
        · -- the first formula is written once, and shows its value from then on
          have hgf : g = f := (List.mem_cons.mp hg).resolve_right hmem
          subst hgf
          exact shows_congr hm hdone.quiet (hdone.element? g hmem)
            (shows_of_edited hm he hedited)
      · intro n hn
        obtain ⟨hnf, hnrest⟩ := not_or.mp (mt List.mem_cons.mpr hn)
        rw [hdone.element? n hnrest, hedited.element?, if_neg hnf]

theorem refresh_of_shows
    (hshows : Shows m d formula) :
    refresh m d formula = .ok d := by
  obtain ⟨e, he, hrendering⟩ := Option.map_eq_some_iff.mp hshows
  obtain ⟨d', hrefresh, hedited⟩ := refresh_spec (m := m) he
  rw [hrefresh, Document.eq_of_edited hedited he (showing_eq_self m hrendering)]

/-- Where all formulas show their values, a recomputation changes nothing. -/
theorem refreshAll_of_shows
    {formulas : List NodeId}
    (hshows : ∀ f ∈ formulas, Shows m d f) :
    refreshAll m d formulas = (d, none) := by
  induction formulas with
  | nil =>
      rfl
  | cons f rest ih =>
      have hfirst := refresh_of_shows (hshows f List.mem_cons_self)
      have hrest := ih fun g hg => hshows g (List.mem_cons_of_mem _ hg)
      simp only [refreshAll, hfirst, hrest]

end Formula
end LiveForms
