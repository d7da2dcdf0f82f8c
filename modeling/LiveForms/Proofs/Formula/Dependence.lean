import LiveForms.Proofs.Document.Index
import LiveForms.Proofs.Formula.AtOnce
import LiveForms.Proofs.Formula.Averages

/-!
# Live forms: which formulas an edit reaches

An edit writes a value into one element and recomputes all formulas. Most of them have not
looked at this element. An expression looks at the elements that its names stand for, and an
id stands for its first holder in the tree only. An average looks at two cells of each row
around it. Any other formula ends up with the text and the classes that it had.

Main definitions:

* `Formula.LooksAt`: the elements whose values a formula looks at.
* `Document.face?`: what can be seen of an element.

Main statements:

* `Formula.compute_of_not_looksAt`: the other values do not matter.
* `Form.edit_reaches`: what an edit changes of a form that is up to date.
-/

namespace LiveForms

/-- What can be seen of an element: its text and its classes. -/
def Document.face? (d : Document) (n : NodeId) : Option (String × List String) :=
  (d.element? n).map fun e => (e.text, e.classes)

theorem Document.face?_of_edited
    {d d' : Document} {n other : NodeId} {value : String}
    (hd : d.Edited d' n fun e => { e with value := value }) :
    d'.face? other = d.face? other := by
  rw [face?, face?, hd.element?]
  split
  · cases d.element? other <;> rfl
  · rfl

namespace Formula

/-- The formula `f` looks at the value of `n`. -/
inductive LooksAt (m : Markup) (d : Document) (f n : NodeId) : Prop
  | name
      {e : Expr} {name : String}
      (hkind : ¬ IsAverage m d f)
      (hparse : Expr.parse ((d.attr? f m.evaluatorAttr).getD "") = .ok e)
      (hname : name ∈ e.fieldNames)
      (hn : d.byId name = some n) :
      LooksAt m d f n
  | cell
      {p row : NodeId}
      (hkind : IsAverage m d f)
      (hparent : d.parent? f = some p)
      (hrow : d.Above p row)
      (hclass : d.hasClass row m.rowClass = true)
      (hcell : d.FirstBelow row m.gradeClass n ∨ d.FirstBelow row m.creditClass n) :
      LooksAt m d f n

variable {m : Markup} {d d' : Document} {f n : NodeId}

section TwoDocuments

theorem isAverage_congr
    (hattr : d'.attr? f m.evaluatorAttr = d.attr? f m.evaluatorAttr) :
    IsAverage m d' f ↔ IsAverage m d f := by
  rw [IsAverage, IsAverage, hattr]

theorem compute_eq_expression
    (hkind : ¬ IsAverage m d f) :
    compute m d f = expression d ((d.attr? f m.evaluatorAttr).getD "") := by
  rw [IsAverage] at hkind
  rw [compute, if_neg hkind]

/-- An average without anything around it has no rows. -/
theorem compute_of_parent?_none
    (hkind : IsAverage m d f)
    (hparent : d.parent? f = none) :
    compute m d f = .ok 0.0 := by
  rw [IsAverage] at hkind
  simp only [compute, if_pos hkind, average, hparent]

/-- Between two documents there is one question about an average, and one about the names of
an expression. -/
theorem compute_eq_of_kind
    (hattr : d'.attr? f m.evaluatorAttr = d.attr? f m.evaluatorAttr)
    (hparent : d'.parent? f = d.parent? f)
    (haverage : IsAverage m d f → ∀ p, d.parent? f = some p →
      averageOf m d' (d'.withClass p m.rowClass) = averageOf m d (d.withClass p m.rowClass))
    (hexpression : ¬ IsAverage m d f →
      ∀ e, Expr.parse ((d.attr? f m.evaluatorAttr).getD "") = .ok e →
        ∀ name ∈ e.fieldNames, field d' name = field d name) :
    compute m d' f = compute m d f := by
  have hsame := isAverage_congr hattr
  by_cases hkind : IsAverage m d f
  · have hkind' := hsame.mpr hkind
    cases hp : d.parent? f with
    | none =>
        rw [compute_of_parent?_none hkind hp, compute_of_parent?_none hkind' (hparent.trans hp)]
    | some p =>
        rw [compute_eq_averageOf hkind hp, compute_eq_averageOf hkind' (hparent.trans hp),
          haverage hkind p hp]
  · rw [compute_eq_expression hkind, compute_eq_expression (mt hsame.mp hkind), hattr]
    exact expression_congr (hexpression hkind)

end TwoDocuments

section Values

/-- A name keeps its number if the value of another element is set. -/
theorem field_of_edited
    {value name : String}
    (hd : d.Edited d' n fun e => { e with value := value })
    (hname : d.byId name ≠ some n) :
    field d' name = field d name := by
  apply field_congr
  · rw [Document.byId, hd.ids, Document.byId]
  · rintro k hk
    have hne : k ≠ n := by
      rintro rfl
      exact hname hk
    rw [Document.value?, hd.element?, if_neg hne, Document.value?]

/-- An average keeps its number if no first cell below a row gets another value. -/
theorem averageOf_of_edited
    {value : String} {p : NodeId}
    (h : d.WellFormed)
    (hd : d.Edited d' n fun e => { e with value := value })
    (hnot : ∀ row, d.Above p row → d.hasClass row m.rowClass = true →
      ¬ (d.FirstBelow row m.gradeClass n ∨ d.FirstBelow row m.creditClass n)) :
    averageOf m d' (d'.withClass p m.rowClass) = averageOf m d (d.withClass p m.rowClass) := by
  have hrows : d'.withClass p m.rowClass = d.withClass p m.rowClass :=
    Document.findAll_of_edited hd (fun _ => rfl) p
  rw [hrows]
  apply averageOf_of_kept
  intro row hrow
  obtain ⟨hbelow, hclass⟩ := List.mem_filter.mp (mem_of_mem_reached hrow)
  obtain ⟨hgrade, hcredit⟩ := not_or.mp (hnot row (h.mem_descendants_iff.mp hbelow) hclass)
  rw [← h.firstWithClass_eq_some_iff] at hgrade hcredit
  exact sameCells_of_edited hd hgrade hcredit

theorem compute_of_not_looksAt
    {value : String}
    (h : d.WellFormed)
    (hset : d.setValue n value = .ok d')
    (hnot : ¬ LooksAt m d f n) :
    compute m d' f = compute m d f := by
  have hd := Document.modifyElement_spec hset
  apply compute_eq_of_kind (attr?_of_edited hd) (hd.parent? f)
  · intro hkind p hparent
    apply averageOf_of_edited h hd
    intro row hrow hclass hcell
    exact hnot (.cell hkind hparent hrow hclass hcell)
  · intro hkind e hparse name hname
    exact field_of_edited hd fun hn => hnot (.name hkind hparse hname hn)

/-- A formula that does not look at an element shows its value again, without a recomputation. -/
theorem shows_of_not_looksAt
    {value : String}
    (h : d.WellFormed)
    (hset : d.setValue n value = .ok d')
    (hnot : ¬ LooksAt m d f n)
    (hshows : Shows m d f) :
    Shows m d' f := by
  have hd := Document.modifyElement_spec hset
  rw [Shows, compute_of_not_looksAt h hset hnot, ← hshows, hd.element?]
  split
  · cases d.element? f <;> rfl
  · rfl

end Values

section Elements

/-- What a formula of the tree looks at is in the tree. -/
theorem LooksAt.isAttached
    (hlooks : LooksAt m d f n)
    (h : d.WellFormed)
    (hids : d.ids = d.attachedIds)
    (hf : d.isAttached f = true) :
    d.isAttached n = true := by
  cases hlooks with
  | name _ _ _ hn => exact (h.firstWithId_of_byId hids hn).2.attached
  | @cell p row _ hparent hrow _ hcell =>
      have hn : d.Above p n := hrow.trans (hcell.elim (·.below) (·.below))
      rw [h.isAttached_iff] at hf ⊢
      rcases hf with rfl | hf
      · rw [h.parent_root] at hparent
        cases hparent
      · rcases (Document.above_iff_of_parent? hparent).mp hf with rfl | hp
        · exact .inr hn
        · exact .inr (hp.trans hn)

/-- An expression looks at no element whose id belongs to another one. -/
theorem not_looksAt_of_firstWithId
    {id : String} {first : NodeId}
    (h : d.WellFormed)
    (hids : d.ids = d.attachedIds)
    (hkind : ¬ IsAverage m d f)
    (hid : d.idOf n = some id)
    (hfirst : d.FirstWithId id first)
    (hne : first ≠ n) :
    ¬ LooksAt m d f n := by
  rintro (⟨_, _, _, hn⟩ | ⟨haverage, _, _, _, _⟩)
  · obtain ⟨hempty, hholds⟩ := h.firstWithId_of_byId hids hn
    obtain rfl := Option.some.inj (hid.symm.trans hholds.idOf)
    have hfound := (h.byId_eq_some_iff hids).mpr ⟨hempty, hfirst⟩
    exact hne (Option.some.inj (hfound.symm.trans hn))
  · exact hkind haverage

end Elements

end Formula

namespace Form

/--
One value of a form that is up to date is set, and all formulas are recomputed. Then they are
up to date again, those that do not look at this element have the values that they had,
and no other text and no class list in the document has changed. In particular no expression has
changed if the id of the element belongs to another one, and no formula of the tree has if
the element is not in the tree.
-/
theorem edit_reaches
    (form : Form)
    (h : form.document.WellFormed)
    (hids : form.document.ids = form.document.attachedIds)
    (hrow : form.markup.invalidClass ≠ form.markup.rowClass)
    (hgrade : form.markup.invalidClass ≠ form.markup.gradeClass)
    (hcredit : form.markup.invalidClass ≠ form.markup.creditClass)
    (hshows : ∀ f ∈ form.formulas, Formula.Shows form.markup form.document f)
    {n : NodeId} {e : Element}
    (hn : form.document.element? n = some e)
    (value : String) :
    ∃ d shown,
      form.document.setValue n value = .ok d ∧
      update { form with document := d } = ({ form with document := shown }, none) ∧
      (∀ f ∈ form.formulas, Formula.Shows form.markup shown f) ∧
      (∀ f, ¬ Formula.LooksAt form.markup form.document f n →
        Formula.compute form.markup shown f = Formula.compute form.markup form.document f) ∧
      (∀ f, (f ∈ form.formulas → ¬ Formula.LooksAt form.markup form.document f n) →
        shown.face? f = form.document.face? f) ∧
      (∀ id first, form.document.idOf n = some id → form.document.FirstWithId id first →
        first ≠ n → ∀ f ∈ form.formulas, ¬ Formula.IsAverage form.markup form.document f →
          shown.face? f = form.document.face? f) ∧
      (form.document.isAttached n = false →
        ∀ f ∈ form.formulas, form.document.isAttached f = true →
          shown.face? f = form.document.face? f) := by
  have hm : form.markup.InvalidApart := ⟨hrow, hgrade, hcredit⟩
  obtain ⟨d, hset⟩ := Document.modifyElement_of_element? (fun e => { e with value := value }) hn
  have hd := Document.modifyElement_spec hset
  have hformulas : ∀ f ∈ form.formulas, ∃ e, d.element? f = some e := by
    intro f hf
    obtain ⟨e, he, _⟩ := Option.map_eq_some_iff.mp (hshows f hf)
    exact hd.exists_element ⟨e, he⟩
  obtain ⟨shown, hall, hdone⟩ := Formula.refreshAll_spec (m := form.markup) hformulas
  have hface : ∀ f, (f ∈ form.formulas →
      ¬ Formula.LooksAt form.markup form.document f n) →
      shown.face? f = form.document.face? f := by
    intro f hf
    have hkept : shown.element? f = d.element? f := by
      by_cases hmem : f ∈ form.formulas
      · exact Formula.element?_of_shows hm hformulas hall
          (Formula.shows_of_not_looksAt h hset (hf hmem) (hshows f hmem))
      · exact hdone.element? f hmem
    rw [Document.face?, hkept, ← Document.face?_of_edited hd, Document.face?]
  refine ⟨d, shown, hset, by simp only [update, hall], hdone.shows hm, ?_, hface, ?_, ?_⟩
  · intro f hnot
    rw [Formula.compute_congr hm hdone.quiet, Formula.compute_of_not_looksAt h hset hnot]
  · intro id first hid hfirst hne f hf hkind
    exact hface f fun _ => Formula.not_looksAt_of_firstWithId h hids hkind hid hfirst hne
  · intro hdetached f hf hattached
    apply hface f
    intro _ hlooks
    rw [hlooks.isAttached h hids hattached] at hdetached
    cases hdetached

/-- A row whose first cell has the id of an input in front of it. -/
def sharedId : Form where
  document :=
    Document.ofChanges
      [.create 0 { tag := "div" },
       .create 1 { tag := "input", id := some "x", value := "3" },
       .create 1 { tag := "div", classes := ["gpa-row"] },
       .create 3 { tag := "input", id := some "x", classes := ["grade"], value := "15" },
       .create 3 { tag := "input", classes := ["credit"], value := "2" },
       .create 1 { tag := "formula", attrs := [("evaluator", "x * 2")], text := "6" },
       .create 1 { tag := "formula", attrs := [("evaluator", "calculateGPA")], text := "15" }]
  markup := {}
  formulas := [6, 7]
  container := none

/-- A grade goes into the cell. The average follows; the expression, which has its name, does
not. -/
theorem edit_reaches_sharedId :
    sharedId.document.WellFormed ∧
    sharedId.document.ids = sharedId.document.attachedIds ∧
    sharedId.markup.invalidClass ≠ sharedId.markup.rowClass ∧
    sharedId.markup.invalidClass ≠ sharedId.markup.gradeClass ∧
    sharedId.markup.invalidClass ≠ sharedId.markup.creditClass ∧
    (∀ f ∈ sharedId.formulas, Formula.Shows sharedId.markup sharedId.document f) ∧
    ∃ d shown,
      sharedId.document.setValue 4 "9" = .ok d ∧
      update { sharedId with document := d } = ({ sharedId with document := shown }, none) ∧
      shown.face? 6 = some ("6", []) ∧
      shown.face? 7 = some ("9", []) := by
  have hids := Document.ids_ofChanges
  have hshows : ∀ f ∈ sharedId.formulas, Formula.Shows sharedId.markup sharedId.document f := by
    have h₆ : Formula.Shows sharedId.markup sharedId.document 6 := by
      rw [Formula.Shows]
      decide +kernel
    have h₇ : Formula.Shows sharedId.markup sharedId.document 7 := by
      rw [Formula.Shows]
      decide +kernel
    intro f hf
    rcases List.mem_cons.mp hf with rfl | hf
    · exact h₆
    · obtain rfl := List.mem_singleton.mp hf
      exact h₇
  obtain ⟨e, he⟩ : ∃ e, sharedId.document.element? 4 = some e :=
    Option.isSome_iff_exists.mp (by decide)
  refine ⟨Document.wellFormed_ofChanges _, hids _, by decide, by decide, by decide, hshows, ?_⟩
  obtain ⟨d, shown, hset, hupdate, _, _, _, hhidden, _⟩ :=
    edit_reaches sharedId (Document.wellFormed_ofChanges _) (hids _) (by decide) (by decide)
      (by decide) hshows he "9"
  have hfirst : sharedId.document.FirstWithId "x" 2 :=
    ((Document.wellFormed_ofChanges _).firstWithId_of_byId (hids _) (by decide)).2
  have h₆ : shown.face? 6 = sharedId.document.face? 6 :=
    hhidden "x" 2 (by decide) hfirst (by decide) 6 (by decide) (by rw [Formula.IsAverage]; decide)
  have h₇ : (sharedId.document.setValue 4 "9").toOption.map
      (fun d => (update { sharedId with document := d }).1.document.face? 7) =
      some (some ("9", [])) := by
    decide +kernel
  rw [hset] at h₇
  refine ⟨d, shown, hset, hupdate, h₆.trans (by decide), ?_⟩
  simpa [Except.toOption, hupdate] using h₇

end Form
end LiveForms
