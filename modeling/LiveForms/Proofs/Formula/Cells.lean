import LiveForms.Proofs.Decimal.LeadingPattern
import LiveForms.Proofs.Document.Runs
import LiveForms.Proofs.Text.Trimming

/-!
# Live forms: what a cell makes of its text

A grade or credit cell holds whatever was typed into it. Without the blanks around it, the text
counts as zero if it is empty, and else as the longest number it starts with. Only a text that
starts with no number makes the cell unreadable: a text behind the number does not, and a power
of ten that was left unfinished does not either.

Main statements:

* `Formula.readCell_eq`: the number of a cell by its trimmed text.
* `Formula.readCell_append`: a text put behind the number of a cell.
* `Formula.cell_reads_longest`: what every cell reads.
-/

namespace LiveForms
namespace Formula

open Grammar (Longest)
open Numeral (IsSigned Denotes leading? leadingPattern)

section Trimmed

variable {text : String} {visible : List Char}
variable (htrimmed : Text.IsTrimmed text.toList visible)
include htrimmed

theorem readCell_of_nil
    (hnil : visible = []) :
    readCell text = some 0.0 := by
  rw [readCell, Text.trim_of_isTrimmed htrimmed, hnil]
  rfl

/-- A cell with a visible text has the number that the text starts with. -/
theorem readCell_eq
    (hne : visible ≠ []) :
    readCell text = leading? visible := by
  have hempty : visible.isEmpty = false := by simpa using hne
  simp only [readCell, Text.trim_of_isTrimmed htrimmed, hempty]
  rfl

/-- What is put behind a number that it does not go on with does not count. -/
theorem readCell_append
    {x : Float} {more : List Char}
    (hne : visible ≠ [])
    (hread : readCell text = some x)
    (hmore : ∀ c ∈ more.head?, ¬ Numeral.Continues c) :
    readCell (String.ofList (visible ++ more)) = some x := by
  rw [readCell_eq htrimmed hne, Numeral.leading?_eq_some_iff] at hread
  obtain ⟨lexeme, rest, heq, hlongest, hx⟩ := hread
  obtain ⟨kept, blanks, rfl, htrim⟩ := Text.exists_trim_append htrimmed hne more
  have hkept : ∀ c ∈ kept.head?, ¬ Numeral.Continues c := by
    intro c hc
    obtain ⟨cs, rfl⟩ := List.head?_eq_some_iff.mp hc
    exact hmore c rfl
  have hwhole : Text.IsTrimmed (String.ofList (visible ++ (kept ++ blanks))).toList
      (visible ++ kept) := by
    rw [String.toList_ofList]
    exact Text.trim_eq_iff.mp htrim
  rw [readCell_eq hwhole (by simp [hne]), Numeral.leading?_eq_some_iff]
  refine ⟨lexeme, rest ++ kept, ?_, Numeral.longest_append hlongest hkept, hx⟩
  rw [heq, List.append_assoc]

end Trimmed

/--
Of every text there is one part that is left without the blanks at both ends, and a cell with
the text reads it as follows. Nothing is read as zero. Anything else is read as no number
exactly if it starts with no text of a number, and as a number exactly if the longest such text
denotes it. The preferred match of the pattern of numbers is this longest text, and it always
denotes a number, and only one. A mark with no complete power of ten is cut off with all that
follows. And whatever is put behind a text with a number in front leaves this number, if its
first character is none that a number may go on with.
-/
theorem cell_reads_longest
    (text : String) :
    ∃ visible, (∀ cs, Text.IsTrimmed text.toList cs ↔ cs = visible) ∧
      (∀ d row name cell, d.firstWithClass row name = some cell → d.value? cell = some text →
        cell? d row name = readCell text) ∧
      (visible = [] → readCell text = some 0.0) ∧
      (visible ≠ [] →
        (readCell text = none ↔ ∀ lexeme rest, visible = lexeme ++ rest → ¬ IsSigned lexeme) ∧
        (∀ x, readCell text = some x ↔ ∃ lexeme rest,
          visible = lexeme ++ rest ∧ Longest IsSigned lexeme rest ∧ Denotes lexeme x) ∧
        (∀ lexeme rest, visible = lexeme ++ rest →
          (leadingPattern.find? visible = some rest ↔ Longest IsSigned lexeme rest) ∧
          (Longest IsSigned lexeme rest → ∃! x, Denotes lexeme x)) ∧
        (∀ sign negative whole fraction? mark rest,
          visible = sign ++ (Token.numeralText whole fraction? ++ mark :: rest) →
          Numeral.IsSign sign negative → Numeral.IsMantissa whole fraction? →
          mark = 'e' ∨ mark = 'E' →
          (∀ power after exponent, mark :: rest = power ++ after →
            Numeral.IsPower power exponent → power = []) →
          readCell text =
            some (Numeral.signed negative (Numeral.value ⟨whole, fraction?.getD [], 0⟩))) ∧
        ∀ x more, readCell text = some x → (∀ c ∈ more.head?, ¬ Numeral.Continues c) →
          readCell (String.ofList (visible ++ more)) = some x) := by
  have htrimmed := Text.isTrimmed_trim text.toList
  refine ⟨Text.trim text.toList, ?_, ?_, readCell_of_nil htrimmed, fun hne => ?_⟩
  · intro cs
    rw [← Text.trim_eq_iff]
    exact eq_comm
  · intro d row name cell hcell hvalue
    simp only [cell?, hcell, hvalue]
  · have hread := readCell_eq htrimmed hne
    refine ⟨?_, ?_, ?_, ?_, ?_⟩
    · rw [hread]
      exact Numeral.leading?_eq_none_iff
    · intro x
      rw [hread]
      exact Numeral.leading?_eq_some_iff
    · intro lexeme rest heq
      refine ⟨?_, fun hlongest => Numeral.existsUnique_denotes hlongest.isForm⟩
      rw [Numeral.find?_leadingPattern_iff]
      constructor
      · rintro ⟨other, hother, hlongest⟩
        rwa [List.append_cancel_right (heq.symm.trans hother)]
      · intro hlongest
        exact ⟨lexeme, heq, hlongest⟩
    · intro sign negative whole fraction? mark rest heq hsign hmantissa hmark hincomplete
      rw [hread, heq]
      exact Numeral.leading?_of_incomplete hsign hmantissa hmark hincomplete
    · intro x more hx hmore
      exact readCell_append htrimmed hne hx hmore

/-- A cell with blanks around its text, and a power of ten without digits at its end. -/
def unfinishedPower : Document :=
  Document.ofChanges [.create Document.root
    { tag := "input", classes := ["grade"], value := "\u00a0+12.e-\u2003" }]

/-- The sign behind a mark is cut off with it, but a text behind them makes no difference. -/
theorem cell_reads_longest_unfinishedPower :
    cell? unfinishedPower Document.root "grade" = some 12.0 ∧
    readCell "+12.e-x7" = some 12.0 := by
  obtain ⟨visible, htrimmed, hcell, -, hread⟩ := cell_reads_longest "\u00a0+12.e-\u2003"
  have hvisible : "+12.e-".toList = visible :=
    (htrimmed _).mp (Text.trim_eq_iff.mp (by decide +kernel))
  subst hvisible
  obtain ⟨-, -, -, hincomplete, happend⟩ := hread (by decide +kernel)
  have hunfinished : ∀ power after exponent, ['e', '-'] = power ++ after →
      Numeral.IsPower power exponent → power = [] := by
    intro power after exponent heq hpower
    cases hpower with
    | absent => rfl
    | marked hmark hsign hds =>
        obtain ⟨d, ds, rfl⟩ := List.exists_cons_of_ne_nil hds.ne_nil
        have hd := hds.isDigit d List.mem_cons_self
        cases hsign with
        | absent =>
            obtain ⟨-, rfl, -⟩ : _ ∧ '-' = d ∧ _ := by simpa using heq
            exact absurd hd (by decide)
        | plus => simp at heq
        | minus => simp at heq
  have hmantissa : Numeral.IsMantissa ['1', '2'] (some []) := ⟨by simp, by simp, by simp⟩
  have htwelve : readCell "\u00a0+12.e-\u2003" = some 12.0 := by
    rw [hincomplete ['+'] false ['1', '2'] (some []) 'e' ['-'] (by decide +kernel) .plus hmantissa
      (.inl rfl) hunfinished]
    decide +kernel
  refine ⟨?_, happend 12.0 ['x', '7'] htwelve (by simp [Numeral.Continues])⟩
  rw [hcell unfinishedPower Document.root "grade" 1 (by decide +kernel) (by decide +kernel)]
  exact htwelve

end Formula
end LiveForms
