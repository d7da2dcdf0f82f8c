import LiveForms.Formula.Value
import LiveForms.Proofs.Document.Moves
import LiveForms.Proofs.Document.Walks

/-!
# Live forms: averages

An average goes through the rows below the parent of its formula in document order. It
stops at the first row that is bad; if there is none, it divides the sum of the weighted
grades by that of the credits. Rows may lie inside other rows. Each of them counts for
itself, and the cells of the inner one may at the same time be the first cells of the
outer one.

Main definitions:

* `Formula.Counts`, `Formula.Bad`: the two kinds of rows.
* `Formula.Averages`: the outcome for a list of rows.
* `Formula.reached`: the rows up to the first bad one.
* `Formula.DecidedByRows`: what decides the value of a formula.

Main statement:

* `Formula.compute_average`: all of this, in every well-formed document.
-/

namespace LiveForms
namespace Formula

/-- The attribute of a formula says that it is an average. -/
def IsAverage (m : Markup) (d : Document) (formula : NodeId) : Prop :=
  (d.attr? formula m.evaluatorAttr).getD "" = m.gpaMarker

/-- The numbers in the two cells of a row. -/
structure Entry where
  grade : Float
  credit : Float

def Entry.Negative (entry : Entry) : Prop :=
  entry.grade < 0.0 ∨ entry.credit < 0.0

def Entry.weighted (entry : Entry) : Float :=
  entry.grade * entry.credit

/-- Both cells of a row are there, and can be read. -/
structure Reads (m : Markup) (d : Document) (row : NodeId) (entry : Entry) : Prop where
  grade : cell? d row m.gradeClass = some entry.grade
  credit : cell? d row m.creditClass = some entry.credit

/-- A row takes part in the average. -/
structure Counts (m : Markup) (d : Document) (row : NodeId) (entry : Entry) : Prop where
  reads : Reads m d row entry
  nonneg : ¬ entry.Negative

/-- A row does not allow an average. A cell that cannot be read comes before a negative one. -/
inductive Bad (m : Markup) (d : Document) (row : NodeId) : FormulaError → Prop
  | unreadable
      (hreads : ∀ entry, ¬ Reads m d row entry) :
      Bad m d row .invalid
  | negative
      {entry : Entry}
      (hreads : Reads m d row entry)
      (hnegative : entry.Negative) :
      Bad m d row .negativeGradeOrCredit

/-- A sum from left to right, with what was there before. -/
def sumFrom (start : Float) (summands : List Float) : Float :=
  summands.foldl (· + ·) start

def creditSum (entries : List Entry) : Float :=
  sumFrom 0.0 (entries.map Entry.credit)

def weightedSum (entries : List Entry) : Float :=
  sumFrom 0.0 (entries.map Entry.weighted)

/-- The outcome of an average over a list of rows. -/
inductive Averages (m : Markup) (d : Document) (rows : List NodeId) :
    Except FormulaError Float → Prop
  | bad
      {before after : List NodeId} {entries : List Entry} {row : NodeId} {err : FormulaError}
      (hrows : rows = before ++ row :: after)
      (hbefore : List.Forall₂ (Counts m d) before entries)
      (hbad : Bad m d row err) :
      Averages m d rows (.error err)
  | noCredits
      {entries : List Entry}
      (hrows : List.Forall₂ (Counts m d) rows entries)
      (hzero : (creditSum entries == 0.0) = true) :
      Averages m d rows (.ok 0.0)
  | overflow
      {entries : List Entry}
      (hrows : List.Forall₂ (Counts m d) rows entries)
      (hcredits : (creditSum entries == 0.0) = false)
      (hfinite : (weightedSum entries / creditSum entries).isFinite = false) :
      Averages m d rows (.error .invalid)
  | quotient
      {entries : List Entry}
      (hrows : List.Forall₂ (Counts m d) rows entries)
      (hcredits : (creditSum entries == 0.0) = false)
      (hfinite : (weightedSum entries / creditSum entries).isFinite = true) :
      Averages m d rows (.ok (weightedSum entries / creditSum entries))

/-- Two rows have the same numbers in their cells, or lack the same ones. -/
structure SameCells (m : Markup) (d d' : Document) (row row' : NodeId) : Prop where
  grade : cell? d' row' m.gradeClass = cell? d row m.gradeClass
  credit : cell? d' row' m.creditClass = cell? d row m.creditClass

/-- Whether a row takes part in an average. -/
def usable (m : Markup) (d : Document) (row : NodeId) : Bool :=
  (addRow m d {} row).isOk

/-- The rows up to the first that is bad, and this one. -/
def reached (m : Markup) (d : Document) : List NodeId → List NodeId
  | [] => []
  | row :: rows => if usable m d row then row :: reached m d rows else [row]

/-- The average over a list of rows. -/
def averageOf (m : Markup) (d : Document) (rows : List NodeId) : Except FormulaError Float :=
  match addRows m d {} rows with
  | .error e => .error e
  | .ok totals => Formula.quotient totals

/--
What decides the value of a formula that averages the rows below `p`. The rows are those
that the search lists, and their cells are the first ones below them. What is not below `p`
does not matter, nor do values other than those of the first cells of rows that are
reached; of two documents it matters only what these cells hold.
-/
structure DecidedByRows (m : Markup) (d : Document) (f p : NodeId) : Prop where
  finds : d.Finds p (fun e => e.hasClass m.rowClass = true) (d.withClass p m.rowClass)
  cell : ∀ row name x, cell? d row name = some x ↔
    ∃ n raw, d.FirstBelow row name n ∧ d.value? n = some raw ∧ readCell raw = some x
  outcome : ∀ outcome, compute m d f = outcome ↔
    Averages m d (d.withClass p m.rowClass) outcome
  refused_iff : (∃ err, compute m d f = .error err) ↔
    (∃ row ∈ d.withClass p m.rowClass, ∃ err, Bad m d row err) ∨
      ∃ entries, List.Forall₂ (Counts m d) (d.withClass p m.rowClass) entries ∧
        (creditSum entries == 0.0) = false ∧
        (weightedSum entries / creditSum entries).isFinite = false
  apart : ∀ d' : Document, d'.WellFormed → d.SubtreeKept d' p →
    compute m d' f = compute m d f
  values : ∀ n value d', d.setValue n value = .ok d' →
    (∀ row ∈ reached m d (d.withClass p m.rowClass),
      ¬ d.FirstBelow row m.gradeClass n ∧ ¬ d.FirstBelow row m.creditClass n) →
    compute m d' f = compute m d f
  cells : ∀ d' f' p', IsAverage m d' f' → d'.parent? f' = some p' →
    List.Forall₂ (SameCells m d d') (reached m d (d.withClass p m.rowClass))
      (reached m d' (d'.withClass p' m.rowClass)) →
    compute m d' f' = compute m d f

variable {m : Markup} {d d' : Document} {row : NodeId} {rows : List NodeId}

theorem compute_eq_averageOf
    {f p : NodeId}
    (hmarker : IsAverage m d f)
    (hparent : d.parent? f = some p) :
    compute m d f = averageOf m d (d.withClass p m.rowClass) := by
  rw [IsAverage] at hmarker
  simp only [compute, if_pos hmarker, average, hparent]
  rfl

section OneRow

theorem counts_or_bad
    (m : Markup)
    (d : Document)
    (row : NodeId) :
    (∃ entry, Counts m d row entry) ∨ ∃ err, Bad m d row err := by
  by_cases hreads : ∃ entry, Reads m d row entry
  · obtain ⟨entry, hentry⟩ := hreads
    by_cases hnegative : entry.Negative
    · exact Or.inr ⟨_, .negative hentry hnegative⟩
    · exact Or.inl ⟨entry, hentry, hnegative⟩
  · exact Or.inr ⟨_, .unreadable fun entry hentry => hreads ⟨entry, hentry⟩⟩

theorem addRow_of_counts
    {entry : Entry}
    (h : Counts m d row entry)
    (totals : Totals) :
    addRow m d totals row =
      .ok ⟨totals.weighted + entry.weighted, totals.credits + entry.credit⟩ := by
  simp only [addRow, h.reads.grade, h.reads.credit]
  exact if_neg h.nonneg

theorem addRow_of_bad
    {err : FormulaError}
    (h : Bad m d row err)
    (totals : Totals) :
    addRow m d totals row = .error err := by
  cases h with
  | unreadable hreads =>
      rw [addRow]
      split
      · rename_i grade credit hgrade hcredit
        exact absurd ⟨hgrade, hcredit⟩ (hreads ⟨grade, credit⟩)
      · rfl
  | negative hreads hnegative =>
      simp only [addRow, hreads.grade, hreads.credit]
      exact if_pos hnegative

theorem usable_of_counts
    {entry : Entry}
    (h : Counts m d row entry) :
    usable m d row = true := by
  rw [usable, addRow_of_counts h]
  rfl

theorem not_usable_of_bad
    {err : FormulaError}
    (h : Bad m d row err) :
    usable m d row = false := by
  rw [usable, addRow_of_bad h]
  rfl

end OneRow

section AllRows

theorem sumFrom_cons
    (start x : Float)
    (summands : List Float) :
    sumFrom start (x :: summands) = sumFrom (start + x) summands :=
  rfl

/-- Rows that count are all added up. -/
theorem addRows_of_counts
    {entries : List Entry}
    (h : List.Forall₂ (Counts m d) rows entries)
    (totals : Totals)
    (rest : List NodeId) :
    addRows m d totals (rows ++ rest) =
      addRows m d
        ⟨sumFrom totals.weighted (entries.map Entry.weighted),
          sumFrom totals.credits (entries.map Entry.credit)⟩ rest := by
  induction h generalizing totals with
  | nil =>
      rfl
  | cons hrow _ ih =>
      rw [List.cons_append, addRows, addRow_of_counts hrow]
      exact ih _

/-- Either all rows count, or one is the first that is bad. -/
theorem all_count_or_first_bad
    (m : Markup)
    (d : Document)
    (rows : List NodeId) :
    (∃ entries, List.Forall₂ (Counts m d) rows entries) ∨
      ∃ before row after entries err, rows = before ++ row :: after ∧
        List.Forall₂ (Counts m d) before entries ∧ Bad m d row err := by
  induction rows with
  | nil =>
      exact Or.inl ⟨[], .nil⟩
  | cons row rows ih =>
      rcases counts_or_bad m d row with ⟨entry, hentry⟩ | ⟨err, hbad⟩
      · rcases ih with ⟨entries, hrows⟩ | ⟨before, bad, after, entries, err, rfl, hbefore, hbad⟩
        · exact Or.inl ⟨entry :: entries, .cons hentry hrows⟩
        · exact Or.inr ⟨row :: before, bad, after, entry :: entries, err, rfl,
            .cons hentry hbefore, hbad⟩
      · exact Or.inr ⟨[], row, rows, [], err, rfl, .nil, hbad⟩

theorem averageOf_of_counts
    {entries : List Entry}
    (h : List.Forall₂ (Counts m d) rows entries) :
    averageOf m d rows = Formula.quotient ⟨weightedSum entries, creditSum entries⟩ := by
  have hadd := addRows_of_counts h {} []
  rw [List.append_nil, addRows] at hadd
  rw [averageOf, hadd]
  rfl

theorem averageOf_of_averages
    {outcome : Except FormulaError Float}
    (h : Averages m d rows outcome) :
    averageOf m d rows = outcome := by
  cases h with
  | bad hrows hbefore hbad =>
      rw [averageOf, hrows, addRows_of_counts hbefore, addRows, addRow_of_bad hbad]
  | noCredits hrows hzero =>
      rw [averageOf_of_counts hrows, Formula.quotient, if_pos hzero]
  | overflow hrows hcredits hfinite =>
      simp [averageOf_of_counts hrows, Formula.quotient, hcredits, finite, hfinite]
  | quotient hrows hcredits hfinite =>
      simp [averageOf_of_counts hrows, Formula.quotient, hcredits, finite, hfinite]

theorem exists_averages
    (m : Markup)
    (d : Document)
    (rows : List NodeId) :
    ∃ outcome, Averages m d rows outcome := by
  rcases all_count_or_first_bad m d rows with
    ⟨entries, hrows⟩ | ⟨before, row, after, entries, err, hrows, hbefore, hbad⟩
  · cases hcredits : creditSum entries == 0.0 with
    | true => exact ⟨_, .noCredits hrows hcredits⟩
    | false =>
        cases hfinite : (weightedSum entries / creditSum entries).isFinite with
        | true => exact ⟨_, .quotient hrows hcredits hfinite⟩
        | false => exact ⟨_, .overflow hrows hcredits hfinite⟩
  · exact ⟨_, .bad hrows hbefore hbad⟩

theorem averageOf_eq_iff
    {outcome : Except FormulaError Float} :
    averageOf m d rows = outcome ↔ Averages m d rows outcome := by
  constructor
  · rintro rfl
    obtain ⟨outcome, h⟩ := exists_averages m d rows
    rw [averageOf_of_averages h]
    exact h
  · exact averageOf_of_averages

theorem not_bad_of_counts
    {entries : List Entry}
    (h : List.Forall₂ (Counts m d) rows entries)
    (hrow : row ∈ rows)
    {err : FormulaError} :
    ¬ Bad m d row err := by
  intro hbad
  induction h with
  | nil => cases hrow
  | cons hfirst _ ih =>
      rcases List.mem_cons.mp hrow with rfl | hrow
      · have husable := usable_of_counts hfirst
        rw [not_usable_of_bad hbad] at husable
        cases husable
      · exact ih hrow

theorem averageOf_eq_error_iff :
    (∃ err, averageOf m d rows = .error err) ↔
      (∃ row ∈ rows, ∃ err, Bad m d row err) ∨
        ∃ entries, List.Forall₂ (Counts m d) rows entries ∧
          (creditSum entries == 0.0) = false ∧
          (weightedSum entries / creditSum entries).isFinite = false := by
  simp only [averageOf_eq_iff]
  constructor
  · rintro ⟨err, h⟩
    cases h with
    | @bad before after _ row _ hrows _ hbad =>
        exact Or.inl ⟨row, by simp [hrows], err, hbad⟩
    | @overflow entries hrows hcredits hfinite =>
        exact Or.inr ⟨entries, hrows, hcredits, hfinite⟩
  · rintro (⟨row, hrow, err, hbad⟩ | ⟨entries, hrows, hcredits, hfinite⟩)
    · rcases all_count_or_first_bad m d rows with
        ⟨entries, hrows⟩ | ⟨before, first, after, entries, err', hrows, hbefore, hfirst⟩
      · exact absurd hbad (not_bad_of_counts hrows hrow)
      · exact ⟨err', .bad hrows hbefore hfirst⟩
    · exact ⟨.invalid, .overflow hrows hcredits hfinite⟩

end AllRows

section Congruence

theorem mem_of_mem_reached
    (h : row ∈ reached m d rows) :
    row ∈ rows := by
  induction rows with
  | nil =>
      exact h
  | cons first rest ih =>
      rw [reached] at h
      split at h
      · exact List.mem_cons.mpr ((List.mem_cons.mp h).imp_right ih)
      · exact List.mem_cons.mpr ((List.mem_cons.mp h).imp_right fun h => absurd h List.not_mem_nil)

/-- The rows after the first bad one are not looked at. -/
theorem addRows_reached
    (totals : Totals)
    (rows : List NodeId) :
    addRows m d totals (reached m d rows) = addRows m d totals rows := by
  induction rows generalizing totals with
  | nil =>
      rfl
  | cons row rows ih =>
      rcases counts_or_bad m d row with ⟨entry, hentry⟩ | ⟨err, hbad⟩
      · rw [reached, if_pos (usable_of_counts hentry), addRows, addRows,
          addRow_of_counts hentry]
        exact ih _
      · rw [reached, not_usable_of_bad hbad, if_neg Bool.false_ne_true, addRows, addRows,
          addRow_of_bad hbad]

theorem SameCells.addRow_eq
    {row' : NodeId}
    (h : SameCells m d d' row row')
    (totals : Totals) :
    addRow m d' totals row' = addRow m d totals row := by
  rw [addRow, addRow, h.grade, h.credit]

theorem addRows_of_sameCells
    {rows' : List NodeId}
    (h : List.Forall₂ (SameCells m d d') rows rows')
    (totals : Totals) :
    addRows m d' totals rows' = addRows m d totals rows := by
  induction h generalizing totals with
  | nil =>
      rfl
  | cons hrow _ ih =>
      rw [addRows, addRows, hrow.addRow_eq]
      simp only [ih]

theorem averageOf_of_sameCells
    {rows' : List NodeId}
    (h : List.Forall₂ (SameCells m d d') (reached m d rows) (reached m d' rows')) :
    averageOf m d' rows' = averageOf m d rows := by
  have hadd := addRows_of_sameCells h {}
  rw [addRows_reached, addRows_reached] at hadd
  rw [averageOf, averageOf, hadd]

/-- Rows that keep their cells as far as they are reached are reached again. -/
theorem reached_congr
    (h : ∀ row ∈ reached m d rows, SameCells m d d' row row) :
    reached m d' rows = reached m d rows := by
  induction rows with
  | nil =>
      rfl
  | cons row rows ih =>
      have hrow : usable m d' row = usable m d row := by
        have hmem : row ∈ reached m d (row :: rows) := by
          rw [reached]
          split <;> exact List.mem_cons_self
        rw [usable, usable, (h row hmem).addRow_eq]
      rw [reached, reached, hrow]
      rw [reached] at h
      split
      · rename_i husable
        rw [if_pos husable] at h
        rw [ih fun r hr => h r (List.mem_cons_of_mem _ hr)]
      · rfl

theorem averageOf_of_kept
    (h : ∀ row ∈ reached m d rows, SameCells m d d' row row) :
    averageOf m d' rows = averageOf m d rows := by
  refine averageOf_of_sameCells ?_
  rw [reached_congr h, List.forall₂_same]
  exact h

theorem cell?_eq_some_iff
    (h : d.WellFormed)
    {name : String} {x : Float} :
    cell? d row name = some x ↔
      ∃ n raw, d.FirstBelow row name n ∧ d.value? n = some raw ∧ readCell raw = some x := by
  simp only [← h.firstWithClass_eq_some_iff]
  rw [cell?]
  cases d.firstWithClass row name with
  | none => simp
  | some n => cases hvalue : d.value? n <;> simp [hvalue]

/-- A row has the same cells as long as all that is below it stays. -/
theorem sameCells_of_kept
    (h : d.WellFormed)
    (hkept : d.SubtreeKept d' row) :
    SameCells m d d' row row := by
  have hcell : ∀ name, cell? d' row name = cell? d row name := by
    intro name
    have hfirst : d'.firstWithClass row name = d.firstWithClass row name := by
      rw [Document.firstWithClass, Document.firstWithClass, Document.findFirst_eq_head?,
        Document.findFirst_eq_head?, h.findAll_of_subtreeKept hkept]
    rw [cell?, cell?, hfirst]
    cases hn : d.firstWithClass row name with
    | none => rfl
    | some n =>
        have hbelow := (h.firstWithClass_eq_some_iff.mp hn).below
        simp only [Document.value?, hkept.element? n (.inr hbelow)]
  exact ⟨hcell _, hcell _⟩

/-- A row has the same cells as long as the subtree around it stays. -/
theorem sameCells_of_subtreeKept
    (h : d.WellFormed)
    (h' : d'.WellFormed)
    {p : NodeId}
    (hkept : d.SubtreeKept d' p)
    (hrow : d.Above p row) :
    SameCells m d d' row row :=
  sameCells_of_kept h (h.subtreeKept_below h' hkept (.inr hrow))

/-- Setting a value leaves the attributes alone. -/
theorem attr?_of_edited
    {n other : NodeId} {value attr : String}
    (hd : d.Edited d' n fun e => { e with value := value }) :
    d'.attr? other attr = d.attr? other attr := by
  rw [Document.attr?, Document.attr?, hd.element?]
  split
  · cases d.element? other <;> rfl
  · rfl

/-- A row has the same cells if another value than that of a first cell is set. -/
theorem sameCells_of_edited
    {n : NodeId} {value : String}
    (hd : d.Edited d' n fun e => { e with value := value })
    (hgrade : d.firstWithClass row m.gradeClass ≠ some n)
    (hcredit : d.firstWithClass row m.creditClass ≠ some n) :
    SameCells m d d' row row := by
  have hcell : ∀ name, d.firstWithClass row name ≠ some n →
      cell? d' row name = cell? d row name := by
    intro name hne
    have hfirst : d'.firstWithClass row name = d.firstWithClass row name := by
      rw [Document.firstWithClass, Document.firstWithClass, Document.findFirst_eq_head?,
        Document.findFirst_eq_head?, Document.findAll_of_edited hd fun _ => rfl]
    rw [cell?, cell?, hfirst]
    cases hcellAt : d.firstWithClass row name with
    | none => rfl
    | some cell =>
        have hcellNe : cell ≠ n := by
          rintro rfl
          exact hne hcellAt
        simp only [Document.value?, hd.element?, if_neg hcellNe]
  exact ⟨hcell _ hgrade, hcell _ hcredit⟩

/-- In every well-formed document, the rows below its parent decide the value of a formula
that averages. -/
theorem compute_average
    {f p : NodeId}
    (h : d.WellFormed)
    (hmarker : IsAverage m d f)
    (hparent : d.parent? f = some p) :
    DecidedByRows m d f p where
  finds := h.finds_findAll p fun e => e.hasClass m.rowClass
  cell row name x := cell?_eq_some_iff h
  outcome outcome := by
    rw [compute_eq_averageOf hmarker hparent, averageOf_eq_iff]
  refused_iff := by
    rw [compute_eq_averageOf hmarker hparent, averageOf_eq_error_iff]
  apart d' h' hkept := by
    have hbelow := Document.above_of_parent? hparent
    have hmarker' : IsAverage m d' f := by
      rw [IsAverage, Document.attr?, hkept.element? f (.inr hbelow)]
      exact hmarker
    have hparent' : d'.parent? f = some p := by
      rw [hkept.parent? f hbelow, hparent]
    have hrows : d'.withClass p m.rowClass = d.withClass p m.rowClass :=
      h.findAll_of_subtreeKept hkept _
    rw [compute_eq_averageOf hmarker' hparent', compute_eq_averageOf hmarker hparent, hrows]
    apply averageOf_of_kept
    intro row hrow
    exact sameCells_of_subtreeKept h h' hkept
      (h.mem_descendants_iff.mp (List.mem_of_mem_filter (mem_of_mem_reached hrow)))
  values n value d' hset hother := by
    have hd := Document.modifyElement_spec hset
    have hmarker' : IsAverage m d' f := by
      rw [IsAverage, attr?_of_edited hd]
      exact hmarker
    have hparent' : d'.parent? f = some p := by
      rw [hd.parent?, hparent]
    have hrows : d'.withClass p m.rowClass = d.withClass p m.rowClass :=
      Document.findAll_of_edited hd (fun _ => rfl) p
    rw [compute_eq_averageOf hmarker' hparent', compute_eq_averageOf hmarker hparent, hrows]
    apply averageOf_of_kept
    intro row hrow
    obtain ⟨hgrade, hcredit⟩ := hother row hrow
    rw [← h.firstWithClass_eq_some_iff] at hgrade hcredit
    exact sameCells_of_edited hd hgrade hcredit
  cells d' f' p' hmarker' hparent' hcells := by
    rw [compute_eq_averageOf hmarker' hparent', compute_eq_averageOf hmarker hparent]
    exact averageOf_of_sameCells hcells

/-- A row with cells of its own around a row; only those of the inner row are first cells. -/
def nestedRows : Document :=
  Document.ofChanges
    [.create 0 { tag := "div" },
     .create 1 { tag := "div", classes := ["gpa-row"] },
     .create 2 { tag := "div", classes := ["gpa-row"] },
     .create 3 { tag := "input", classes := ["grade"], value := "15" },
     .create 3 { tag := "input", classes := ["credit"], value := "2" },
     .create 2 { tag := "input", classes := ["grade"], value := "-9" },
     .create 2 { tag := "input", classes := ["credit"], value := "none" },
     .create 1 { tag := "formula", attrs := [("evaluator", "calculateGPA")] }]

/-- Both rows count, each with the cells of the inner one. -/
theorem compute_average_nestedRows :
    nestedRows.WellFormed ∧ IsAverage {} nestedRows 8 ∧ nestedRows.parent? 8 = some 1 ∧
      nestedRows.withClass 1 "gpa-row" = [2, 3] ∧ compute {} nestedRows 8 = .ok 15.0 ∧
      ∀ value d', nestedRows.setValue 7 value = .ok d' → compute {} d' 8 = .ok 15.0 := by
  have hmarker : IsAverage {} nestedRows 8 := by
    rfl
  have hparent : nestedRows.parent? 8 = some 1 := by
    rfl
  have hrows : nestedRows.withClass 1 "gpa-row" = [2, 3] := by
    decide
  have hwell : nestedRows.WellFormed := Document.wellFormed_ofChanges _
  have h := compute_average hwell hmarker hparent
  have hgrade : ∀ row ∈ [2, 3], cell? nestedRows row "grade" = some 15.0 := by
    decide +kernel
  have hcredit : ∀ row ∈ [2, 3], cell? nestedRows row "credit" = some 2.0 := by
    decide +kernel
  have hnonneg : ¬ ((15.0 : Float) < 0.0 ∨ (2.0 : Float) < 0.0) := by
    decide +kernel
  have hcounts : List.Forall₂ (Counts {} nestedRows) [2, 3] [⟨15.0, 2.0⟩, ⟨15.0, 2.0⟩] := by
    have hrow : ∀ row ∈ [2, 3], Counts {} nestedRows row ⟨15.0, 2.0⟩ := by
      intro row hrow
      exact ⟨⟨hgrade row hrow, hcredit row hrow⟩, hnonneg⟩
    exact .cons (hrow 2 (by decide)) (.cons (hrow 3 (by decide)) .nil)
  have hcompute : compute {} nestedRows 8 = .ok 15.0 := by
    have hquotient : weightedSum [⟨15.0, 2.0⟩, ⟨15.0, 2.0⟩] / creditSum [⟨15.0, 2.0⟩, ⟨15.0, 2.0⟩]
        = 15.0 := by
      decide +kernel
    rw [h.outcome, ← hquotient]
    exact .quotient (hrows ▸ hcounts) (by decide +kernel) (by decide +kernel)
  refine ⟨hwell, hmarker, hparent, hrows, hcompute, ?_⟩
  intro value d' hset
  rw [h.values 7 value d' hset, hcompute]
  intro row hrow
  have hfirst : ∀ row ∈ nestedRows.withClass 1 "gpa-row",
      nestedRows.firstWithClass row "grade" ≠ some 7 ∧
        nestedRows.firstWithClass row "credit" ≠ some 7 := by
    decide
  rw [← hwell.firstWithClass_eq_some_iff, ← hwell.firstWithClass_eq_some_iff]
  exact hfirst row (mem_of_mem_reached hrow)

end Congruence

end Formula
end LiveForms
