import LiveForms.Proofs.Decimal.Doubles
import LiveForms.Proofs.Formula.Averages
import LiveForms.Proofs.Formula.Rendering

/-!
# Live forms: averages of sums that are not finite

Grades and credits may be so large that one of the sums of an average is infinite. Only the
quotient is looked at, so it matters which of them it is. An infinite sum of weighted grades
makes the quotient infinite or no number, and the formula is invalid. An infinite sum of
credits below a finite one makes it zero, and zero is shown.

The sums do not vanish behind the back of an infinity: credits have the sum zero only if
each of them is zero, and then no weighted grade is infinite.

Main statement:

* `Formula.compute_of_infinite_sum`: the value of a formula with an infinite sum.
-/

namespace LiveForms
namespace Formula

open Doubles

variable {start : Float} {summands : List Float} {entries : List Entry}

section Sums

theorem rising_sumFrom
    (hstart : Rising start.toModel.unpack)
    (hsummands : ∀ x ∈ summands, Nonneg x.toModel.unpack) :
    Rising (sumFrom start summands).toModel.unpack := by
  induction summands generalizing start with
  | nil =>
      exact hstart
  | cons x rest ih =>
      obtain ⟨hx, hrest⟩ := List.forall_mem_cons.mp hsummands
      rw [sumFrom_cons]
      exact ih (rising_sum hstart hx) hrest

theorem null_sumFrom
    (hstart : Null start.toModel.unpack)
    (hsummands : ∀ x ∈ summands, Null x.toModel.unpack) :
    Null (sumFrom start summands).toModel.unpack := by
  induction summands generalizing start with
  | nil =>
      exact hstart
  | cons x rest ih =>
      obtain ⟨hx, hrest⟩ := List.forall_mem_cons.mp hsummands
      rw [sumFrom_cons]
      exact ih (null_sum hstart hx) hrest

/-- If the sum is zero, every summand is, and so was the start. -/
theorem beq_zero_of_sumFrom
    (hstart : Rising start.toModel.unpack)
    (hsummands : ∀ x ∈ summands, Nonneg x.toModel.unpack)
    (hzero : (sumFrom start summands == 0.0) = true) :
    (start == 0.0) = true ∧ ∀ x ∈ summands, (x == 0.0) = true := by
  induction summands generalizing start with
  | nil =>
      exact ⟨hzero, fun x hx => absurd hx List.not_mem_nil⟩
  | cons x rest ih =>
      obtain ⟨hx, hrest⟩ := List.forall_mem_cons.mp hsummands
      obtain ⟨hfirst, hothers⟩ := ih (rising_sum hstart hx) hrest hzero
      obtain ⟨hstart', hx'⟩ := beq_zero_of_sum hstart.nonneg hx hfirst
      exact ⟨hstart', List.forall_mem_cons.mpr ⟨hx', hothers⟩⟩

end Sums

theorem nonneg_of_not_negative
    {entry : Entry}
    (h : ¬ entry.Negative) :
    Nonneg entry.grade.toModel.unpack ∧ Nonneg entry.credit.toModel.unpack :=
  ⟨nonneg_of_not_lt fun hgrade => h (Or.inl hgrade),
    nonneg_of_not_lt fun hcredit => h (Or.inr hcredit)⟩

section NotNegative

variable (hentries : ∀ entry ∈ entries, ¬ entry.Negative)
include hentries

theorem nonneg_credits :
    ∀ x ∈ entries.map Entry.credit, Nonneg x.toModel.unpack := by
  rw [List.forall_mem_map]
  intro entry hentry
  exact (nonneg_of_not_negative (hentries entry hentry)).2

theorem rising_creditSum : Rising (creditSum entries).toModel.unpack :=
  rising_sumFrom rising_zero (nonneg_credits hentries)

theorem rising_weightedSum : Rising (weightedSum entries).toModel.unpack := by
  apply rising_sumFrom rising_zero
  rw [List.forall_mem_map]
  intro entry hentry
  obtain ⟨hgrade, hcredit⟩ := nonneg_of_not_negative (hentries entry hentry)
  exact nonneg_product hgrade hcredit

/-- Without credits there are no weighted grades, whatever the grades are. -/
theorem null_weightedSum
    (hzero : (creditSum entries == 0.0) = true) :
    Null (weightedSum entries).toModel.unpack := by
  obtain ⟨_, hcredits⟩ := beq_zero_of_sumFrom rising_zero (nonneg_credits hentries) hzero
  rw [List.forall_mem_map] at hcredits
  apply null_sumFrom null_zero
  rw [List.forall_mem_map]
  intro entry hentry
  exact null_product entry.grade (hcredits entry hentry)

/-- An infinite sum does not go with credits that are zero. -/
theorem credits_of_infinite_sum
    (hinfinite : (creditSum entries).isInf = true ∨ (weightedSum entries).isInf = true) :
    (creditSum entries == 0.0) = false := by
  rw [Bool.eq_false_iff]
  intro hzero
  rw [isInf_of_null (null_of_beq_zero hzero),
    isInf_of_null (null_weightedSum hentries hzero)] at hinfinite
  simp at hinfinite

theorem quotient_of_infinite_sum
    (hinfinite : (creditSum entries).isInf = true ∨ (weightedSum entries).isInf = true) :
    Formula.quotient ⟨weightedSum entries, creditSum entries⟩ =
      if (weightedSum entries).isFinite = true then .ok 0.0 else .error .invalid := by
  rw [Formula.quotient, credits_of_infinite_sum hentries hinfinite,
    if_neg Bool.false_ne_true, finite]
  cases hweighted : (weightedSum entries).isFinite with
  | true =>
      -- then the sum of the credits is the infinite one
      have hcredits : (creditSum entries).isInf = true := by
        rw [(isNaN_isInf_of_isFinite hweighted).2] at hinfinite
        exact hinfinite.resolve_right Bool.false_ne_true
      rw [quotient_infinity (rising_weightedSum hentries) hweighted (rising_creditSum hentries)
        hcredits, if_pos isFinite_zero, if_pos rfl]
  | false =>
      rw [isFinite_quotient _ hweighted, if_neg Bool.false_ne_true, if_neg Bool.false_ne_true]

end NotNegative

theorem not_negative_of_counts
    {m : Markup} {d : Document} {rows : List NodeId}
    (hrows : List.Forall₂ (Counts m d) rows entries) :
    ∀ entry ∈ entries, ¬ entry.Negative := by
  induction hrows with
  | nil => exact fun entry hentry => absurd hentry List.not_mem_nil
  | cons hrow _ ih => exact List.forall_mem_cons.mpr ⟨hrow.nonneg, ih⟩

/--
If all rows count and the sum of the credits or that of the weighted grades is infinite, the
formula is invalid exactly if the sum of the weighted grades is not finite. Otherwise it has
the value zero.
-/
theorem compute_of_infinite_sum
    {m : Markup} {d : Document} {f p : NodeId}
    (hmarker : IsAverage m d f)
    (hparent : d.parent? f = some p)
    (hrows : List.Forall₂ (Counts m d) (d.withClass p m.rowClass) entries)
    (hinfinite : (creditSum entries).isInf = true ∨ (weightedSum entries).isInf = true) :
    (compute m d f = .error .invalid ↔ (weightedSum entries).isFinite = false) ∧
      ((weightedSum entries).isFinite = true → compute m d f = .ok 0.0) := by
  rw [compute_eq_averageOf hmarker hparent, averageOf_of_counts hrows,
    quotient_of_infinite_sum (not_negative_of_counts hrows) hinfinite]
  cases (weightedSum entries).isFinite <;> simp

/-- Two rows with credits whose sum is infinite, and with finite weighted grades. -/
def vastCredits : Document :=
  Document.ofChanges
    [.create 0 { tag := "div" },
     .create 1 { tag := "div", classes := ["gpa-row"] },
     .create 2 { tag := "input", classes := ["grade"], value := "0.5" },
     .create 2 { tag := "input", classes := ["credit"], value := "1e308" },
     .create 1 { tag := "div", classes := ["gpa-row"] },
     .create 5 { tag := "input", classes := ["grade"], value := "0.5" },
     .create 5 { tag := "input", classes := ["credit"], value := "1e308" },
     .create 1 { tag := "formula", attrs := [("evaluator", "calculateGPA")] }]

/-- The overflow is not noticed, and the average of two grades of 0.5 is zero. -/
theorem compute_vastCredits :
    ∃ entries, IsAverage {} vastCredits 8 ∧ vastCredits.parent? 8 = some 1 ∧
      List.Forall₂ (Counts {} vastCredits) (vastCredits.withClass 1 "gpa-row") entries ∧
      (creditSum entries).isInf = true ∧ compute {} vastCredits 8 = .ok 0.0 := by
  have hmarker : IsAverage {} vastCredits 8 := by
    rfl
  have hparent : vastCredits.parent? 8 = some 1 := by
    rfl
  have hgrade : ∀ row ∈ [2, 5], cell? vastCredits row "grade" = some 0.5 := by
    decide +kernel
  have hcredit : ∀ row ∈ [2, 5], cell? vastCredits row "credit" = some 1e308 := by
    decide +kernel
  have hnonneg : ¬ ((0.5 : Float) < 0.0 ∨ (1e308 : Float) < 0.0) := by
    decide +kernel
  have hrow : ∀ row ∈ [2, 5], Counts {} vastCredits row ⟨0.5, 1e308⟩ := by
    intro row hrow
    exact ⟨⟨hgrade row hrow, hcredit row hrow⟩, hnonneg⟩
  have hrows : vastCredits.withClass 1 "gpa-row" = [2, 5] := by
    decide
  have hcounts : List.Forall₂ (Counts {} vastCredits) (vastCredits.withClass 1 "gpa-row")
      [⟨0.5, 1e308⟩, ⟨0.5, 1e308⟩] := by
    rw [hrows]
    exact .cons (hrow 2 (by decide)) (.cons (hrow 5 (by decide)) .nil)
  have hinfinite : (creditSum [⟨0.5, 1e308⟩, ⟨0.5, 1e308⟩]).isInf = true := by
    decide +kernel
  have hfinite : (weightedSum [⟨0.5, 1e308⟩, ⟨0.5, 1e308⟩]).isFinite = true := by
    decide +kernel
  have h := compute_of_infinite_sum hmarker hparent hcounts (Or.inl hinfinite)
  exact ⟨_, hmarker, hparent, hcounts, hinfinite, h.2 hfinite⟩

end Formula
end LiveForms
