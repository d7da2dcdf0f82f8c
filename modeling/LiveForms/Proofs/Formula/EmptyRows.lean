import LiveForms.Proofs.Document.Apart
import LiveForms.Proofs.Formula.Dependence
import LiveForms.Proofs.Formula.Overflow

/-!
# Live forms: empty rows

An empty row counts with the grade zero and the credit zero. It adds a zero to each of the two
sums of an average, wherever it stands among the rows. The sums start at zero and grow by
numbers that are not negative, so neither is ever a negative zero, and the new zeros change
nothing. A bad row is bad with the empty row and without it, and is reached in both cases.

An empty row that lies in no other row has the only cells that it could give to a row. So it
can be taken out, and no formula outside it has another value.

Main definitions:

* `Formula.Totals.Grown`: what the sums of an average are.
* `Formula.EmptyRow`: empty rows that no other row sees.

Main statements:

* `Formula.addRows_filter`: the sums over the rows with an empty row and without it.
* `Formula.EmptyRow.compute_of_removed`: an empty row is taken out.
-/

namespace LiveForms
namespace Formula

open Doubles

/-- Both sums started at zero and have grown by numbers that are not negative. -/
structure Totals.Grown (totals : Totals) : Prop where
  weighted : Rising totals.weighted.toModel.unpack
  credits : Rising totals.credits.toModel.unpack

/-- The row with nothing in its cells. -/
def Entry.empty : Entry where
  grade := 0.0
  credit := 0.0

theorem Entry.empty_not_negative : ¬ Entry.empty.Negative := by
  simp only [Entry.Negative, Entry.empty]
  decide +kernel

/-- The node `row` is an empty row. No other row is in it or around it, and it has no ids. -/
structure EmptyRow (m : Markup) (d : Document) (row : NodeId) : Prop where
  counts : Counts m d row .empty
  around : ∀ n, d.Above n row → d.hasClass n m.rowClass = false
  inside : ∀ n, d.Above row n → d.hasClass n m.rowClass = false
  unnamed : ∀ n, row = n ∨ d.Above row n → d.idOf n = none

variable {m : Markup} {d d' : Document} {row : NodeId}

section Sums

theorem Totals.grown_zero : Totals.Grown {} :=
  ⟨rising_zero, rising_zero⟩

/-- The sums with one more row that counts. -/
theorem Totals.Grown.add
    {totals : Totals} {entry : Entry}
    (h : totals.Grown)
    (hentry : ¬ entry.Negative) :
    Totals.Grown ⟨totals.weighted + entry.weighted, totals.credits + entry.credit⟩ := by
  obtain ⟨hgrade, hcredit⟩ := nonneg_of_not_negative hentry
  exact ⟨rising_sum h.weighted (nonneg_product hgrade hcredit), rising_sum h.credits hcredit⟩

/-- An empty row leaves the sums as they are. -/
theorem addRow_of_empty
    {totals : Totals}
    (hrow : Counts m d row .empty)
    (htotals : totals.Grown) :
    addRow m d totals row = .ok totals := by
  have hweighted : Entry.empty.weighted = 0.0 := product_zero
  have hcredit : Entry.empty.credit = 0.0 := rfl
  rw [addRow_of_counts hrow, hweighted, hcredit, sum_zero htotals.weighted,
    sum_zero htotals.credits]

/-- The sums over a list of rows do not change if an empty row is left out. -/
theorem addRows_filter
    {totals : Totals} {rows : List NodeId}
    (hrow : Counts m d row .empty)
    (hrows : ∀ r ∈ rows, r ≠ row → SameCells m d d' r r)
    (htotals : totals.Grown) :
    addRows m d' totals (rows.filter (· != row)) = addRows m d totals rows := by
  induction rows generalizing totals with
  | nil =>
      rfl
  | cons first rest ih =>
      obtain ⟨hfirst, hrest⟩ := List.forall_mem_cons.mp hrows
      by_cases heq : first = row
      · subst heq
        rw [List.filter_cons, bne_self_eq_false, if_neg Bool.false_ne_true, ih hrest htotals,
          addRows, addRow_of_empty hrow htotals]
      · rw [List.filter_cons, if_pos (bne_iff_ne.mpr heq), addRows, addRows,
          (hfirst heq).addRow_eq]
        rcases counts_or_bad m d first with ⟨entry, hentry⟩ | ⟨err, hbad⟩
        · rw [addRow_of_counts hentry]
          exact ih hrest (htotals.add hentry.nonneg)
        · rw [addRow_of_bad hbad]

theorem averageOf_filter
    {rows : List NodeId}
    (hrow : Counts m d row .empty)
    (hrows : ∀ r ∈ rows, r ≠ row → SameCells m d d' r r) :
    averageOf m d' (rows.filter (· != row)) = averageOf m d rows := by
  rw [averageOf, averageOf, addRows_filter hrow hrows Totals.grown_zero]

end Sums

namespace EmptyRow

variable (hrow : EmptyRow m d row) (h : d.WellFormed) (hd : d.Removed d' row)
include hrow h hd

/-- Every other row keeps its cells, since it is not around the empty one. -/
theorem sameCells_of_removed
    {r : NodeId}
    (hclass : d.hasClass r m.rowClass = true)
    (hne : r ≠ row) :
    SameCells m d d' r r := by
  apply sameCells_of_kept h
  apply h.subtreeKept_of_removed_below hd
  rintro (heq | habove)
  · exact hne heq
  · rw [hrow.around r habove] at hclass
    cases hclass

theorem averageOf_of_removed
    {p : NodeId}
    (hp : d.outside row p = true) :
    averageOf m d' (d'.withClass p m.rowClass) = averageOf m d (d.withClass p m.rowClass) := by
  have hrows : d'.withClass p m.rowClass = (d.withClass p m.rowClass).filter (· != row) :=
    h.findAll_of_removed hd hp hrow.inside
  rw [hrows]
  apply averageOf_filter hrow.counts
  intro r hr hne
  exact hrow.sameCells_of_removed h hd (List.mem_filter.mp hr).2 hne

/-- No formula outside an empty row changes its value when the row is taken out. -/
theorem compute_of_removed
    {f : NodeId}
    (hids : d.ids = d.attachedIds)
    (hroot : row ≠ Document.root)
    (hf : d.outside row f = true) :
    compute m d' f = compute m d f := by
  obtain ⟨hne, hnot⟩ := not_or.mp (h.outside_iff.mp hf)
  have hattr : d'.attr? f m.evaluatorAttr = d.attr? f m.evaluatorAttr := by
    rw [Document.attr?, hd.element?, Document.attr?]
  have hparent : d'.parent? f = d.parent? f := by
    rw [hd.parent?, if_neg (Ne.symm hne)]
  apply compute_eq_of_kind hattr hparent
  · intro _ p hp
    apply hrow.averageOf_of_removed h hd
    rwa [Document.above_iff_of_parent? hp, ← h.outside_iff] at hnot
  · intro _ _ _ name _
    apply field_congr (h.byId_of_removed_unnamed hd hids hroot hrow.unnamed name)
    intro n _
    rw [Document.value?, hd.element?, Document.value?]

end EmptyRow

end Formula
end LiveForms
