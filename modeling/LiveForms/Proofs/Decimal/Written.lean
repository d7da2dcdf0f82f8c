import LiveForms.Formula.Value

/-!
# Live forms: how numbers are written

A number is written as digits, or as digits on both sides of a point. A very large or very
small one has a power of ten behind that, with a sign in front of its digits. Every decimal
has such a form in either notation, and formulas display every finite double in this way.

The other texts that a formula could show are the error messages and the words for what
is not finite. None of them starts like a numeral.

Main definitions:

* `Decimal.IsUnsigned`, `Decimal.IsNumeral`: the two forms, without and with a minus.

Main statements:

* `Formula.isNumeral_display`: finite numbers are displayed as numerals.
* `Formula.display_ne_message`, `Formula.display_not_mem_words`: they are displayed as
  nothing else.
-/

namespace LiveForms
namespace Decimal

/-- A run of digits, one at least. -/
structure IsDigits (cs : List Char) : Prop where
  ne_nil : cs ≠ []
  isDigit : ∀ c ∈ cs, c.isDigit = true

/-- Digits, or digits on both sides of a point. -/
inductive IsPositional : List Char → Prop
  | whole
      {ds : List Char}
      (hds : IsDigits ds) :
      IsPositional ds
  | point
      {ds fs : List Char}
      (hds : IsDigits ds)
      (hfs : IsDigits fs) :
      IsPositional (ds ++ '.' :: fs)

/-- A number in positional notation, or one with a power of ten behind it. -/
inductive IsUnsigned : List Char → Prop
  | positional
      {cs : List Char}
      (hcs : IsPositional cs) :
      IsUnsigned cs
  | scientific
      {cs ds : List Char} {sign : Char}
      (hcs : IsPositional cs)
      (hsign : sign = '+' ∨ sign = '-')
      (hds : IsDigits ds) :
      IsUnsigned (cs ++ 'e' :: sign :: ds)

/-- A number with or without a minus. -/
inductive IsNumeral : List Char → Prop
  | unsigned
      {cs : List Char}
      (hcs : IsUnsigned cs) :
      IsNumeral cs
  | negative
      {cs : List Char}
      (hcs : IsUnsigned cs) :
      IsNumeral ('-' :: cs)

variable (d : Decimal)

section Notations

theorem isDigits_toDigits
    (n : Nat) :
    IsDigits (Nat.toDigits 10 n) :=
  ⟨Nat.toDigits_ne_nil, fun _ => Nat.isDigit_of_mem_toDigits (by decide) (by decide)⟩

theorem isDigits_cons
    {c : Char} {cs : List Char}
    (hc : c.isDigit = true)
    (hcs : ∀ x ∈ cs, x.isDigit = true) :
    IsDigits (c :: cs) := by
  refine ⟨List.cons_ne_nil c cs, ?_⟩
  intro x hx
  rcases List.mem_cons.mp hx with rfl | hx
  · exact hc
  · exact hcs x hx

/-- Zeros in front of digits or behind them. -/
theorem IsDigits.pad
    {ds : List Char}
    (h : IsDigits ds)
    (before after : Nat) :
    IsDigits (List.replicate before '0' ++ ds ++ List.replicate after '0') := by
  have hzero : ∀ count, ∀ c ∈ List.replicate count '0', c.isDigit = true := by
    intro count c hc
    rw [List.eq_of_mem_replicate hc]
    decide
  refine ⟨by simp [h.ne_nil], ?_⟩
  intro c hc
  rcases List.mem_append.mp hc with hc | hc
  · rcases List.mem_append.mp hc with hc | hc
    · exact hzero before c hc
    · exact h.isDigit c hc
  · exact hzero after c hc

/-- A point inside a run of digits has digits on both sides. -/
theorem IsDigits.split
    {ds : List Char}
    (h : IsDigits ds)
    {count : Nat}
    (hpos : 0 < count)
    (hlt : count < ds.length) :
    IsPositional (ds.take count ++ '.' :: ds.drop count) := by
  refine .point ⟨?_, fun c hc => h.isDigit c (List.mem_of_mem_take hc)⟩
    ⟨?_, fun c hc => h.isDigit c (List.mem_of_mem_drop hc)⟩
  · intro hnil
    have hlength := congrArg List.length hnil
    simp only [List.length_take, List.length_nil] at hlength
    omega
  · intro hnil
    have hlength := congrArg List.length hnil
    simp only [List.length_drop, List.length_nil] at hlength
    omega

theorem isDigits_digitChars :
    IsDigits d.digitChars :=
  isDigits_toDigits d.digits

theorem isPositional_positional :
    IsPositional (d.positional []) := by
  have hdigits := d.isDigits_digitChars
  simp only [positional]
  split
  · have hzero : IsDigits ['0'] := isDigits_cons (by decide) (by simp)
    have hfraction := hdigits.pad d.point.natAbs 0
    rw [List.replicate_zero, List.append_nil] at hfraction
    exact .point hzero hfraction
  · rename_i hpoint
    split
    · have hwhole := hdigits.pad 0 (d.point.toNat - d.digitChars.length)
      rw [List.replicate_zero, List.nil_append] at hwhole
      rw [List.append_nil]
      exact .whole hwhole
    · rename_i hlength
      exact hdigits.split (by omega) (by omega)

theorem isUnsigned_scientific :
    IsUnsigned (d.scientific ['+']) := by
  have hdigits := d.isDigits_digitChars
  have hpower : ∀ cs, IsPositional cs →
      IsUnsigned (cs ++ 'e' :: ((if d.point - 1 < 0 then ['-'] else ['+']) ++
        Nat.toDigits 10 (d.point - 1).natAbs)) := by
    intro cs hcs
    split
    · exact .scientific hcs (.inr rfl) (isDigits_toDigits _)
    · exact .scientific hcs (.inl rfl) (isDigits_toDigits _)
  rw [scientific]
  apply hpower
  split
  · rename_i hnil
    exact absurd hnil hdigits.ne_nil
  · rename_i digit hdigit
    rw [hdigit] at hdigits
    exact .whole hdigits
  · rename_i digit digits hne heq
    rw [heq] at hdigits
    have hlength : 1 < (digit :: digits).length := by
      cases digits with
      | nil => exact absurd rfl hne
      | cons _ _ => simp
    exact hdigits.split Nat.one_pos hlength

end Notations

section Heads

/-- Whether a text starts with a digit, or with a minus and a digit. -/
def startsNumeral : List Char → Bool
  | [] => false
  | '-' :: cs => cs.head?.any Char.isDigit
  | c :: _ => c.isDigit

variable {d} {cs : List Char}

theorem IsPositional.head
    (h : IsPositional cs) :
    ∃ c rest, cs = c :: rest ∧ c.isDigit = true := by
  have hhead : ∀ ds, IsDigits ds → ∃ c rest, ds = c :: rest ∧ c.isDigit = true := by
    intro ds hds
    obtain ⟨c, rest, rfl⟩ := List.exists_cons_of_ne_nil hds.ne_nil
    exact ⟨c, rest, rfl, hds.isDigit c List.mem_cons_self⟩
  cases h with
  | whole hds => exact hhead cs hds
  | point hds hfs =>
      obtain ⟨c, rest, rfl, hc⟩ := hhead _ hds
      exact ⟨c, _, rfl, hc⟩

theorem IsUnsigned.head
    (h : IsUnsigned cs) :
    ∃ c rest, cs = c :: rest ∧ c.isDigit = true := by
  cases h with
  | positional hcs => exact hcs.head
  | scientific hcs hsign hds =>
      obtain ⟨c, rest, rfl, hc⟩ := hcs.head
      exact ⟨c, _, rfl, hc⟩

theorem IsNumeral.startsNumeral
    (h : IsNumeral cs) :
    startsNumeral cs = true := by
  cases h with
  | unsigned hcs =>
      obtain ⟨c, rest, rfl, hc⟩ := hcs.head
      unfold Decimal.startsNumeral
      split
      · rename_i heq
        cases heq
      · rename_i heq
        cases heq
        exact absurd hc (by decide)
      · rename_i heq
        cases heq
        exact hc
  | negative hcs =>
      obtain ⟨c, rest, rfl, hc⟩ := hcs.head
      exact hc

/-- A text that does not start like a numeral is none. -/
theorem IsNumeral.ne
    {text word : String}
    (h : IsNumeral text.toList)
    (hword : Decimal.startsNumeral word.toList = false) :
    text ≠ word := by
  rintro rfl
  rw [h.startsNumeral] at hword
  cases hword

end Heads

end Decimal

namespace Formula

variable {x : Float} (hx : x.isFinite = true)
include hx

/-- A finite number is neither of the two that are written as words. -/
theorem isNaN_isInf_of_isFinite :
    x.isNaN = false ∧ x.isInf = false := by
  rw [Float.isFinite, Float.Model.isFinite] at hx
  rw [Float.isNaN, Float.Model.isNaN, Float.isInf, Float.Model.isInf]
  cases hunpacked : x.toModel.unpack with
  | notANumber | infinity =>
      rw [hunpacked] at hx
      cases hx
  | zero | finite => exact ⟨rfl, rfl⟩

/-- A finite number is displayed as a numeral. -/
theorem isNumeral_display :
    Decimal.IsNumeral (display x).toList := by
  obtain ⟨hNaN, hInf⟩ := isNaN_isInf_of_isFinite hx
  have hmagnitude : Decimal.IsUnsigned (Layout.result.writeMagnitude x) := by
    rw [Layout.writeMagnitude]
    split
    · exact .positional (.whole (Decimal.isDigits_cons (by decide) (by simp [Layout.result])))
    · rw [hInf, if_neg Bool.false_ne_true]
      split
      · exact .positional (Decimal.isPositional_positional _)
      · exact Decimal.isUnsigned_scientific _
  rw [display, String.toList_ofList, Layout.write, hNaN, if_neg Bool.false_ne_true]
  split
  · exact .negative hmagnitude
  · exact .unsigned hmagnitude

/-- No number is taken for an error. -/
theorem display_ne_message
    (err : FormulaError) :
    display x ≠ err.message := by
  apply (isNumeral_display hx).ne
  cases err <;> decide

/-- No number is displayed as one of the words. -/
theorem display_not_mem_words :
    display x ∉ ["NaN", "inf", "-inf"] := by
  intro hmem
  have hword : ∀ word ∈ ["NaN", "inf", "-inf"],
      Decimal.startsNumeral (String.toList word) = false := by
    decide
  exact (isNumeral_display hx).ne (hword _ hmem) rfl

end Formula
end LiveForms
