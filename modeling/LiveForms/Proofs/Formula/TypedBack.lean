import LiveForms.Proofs.Decimal.Bits
import LiveForms.Proofs.Decimal.Notations
import LiveForms.Proofs.Formula.Literals

/-!
# Live forms: displayed numbers, typed back

What a formula displays can be typed into a cell, and the cell holds the same number. It can
be typed into an input as well, as long as it is displayed without a power of ten, since an
input is read as a whole and takes no such power. So two numbers are displayed alike only if
they are the same, or both are zero.

Main definitions:

* `Formula.unsigned`: a number without the sign of a zero.
* `Formula.powerBehind`: the power of ten that a number is displayed with, if any.

Main statements:

* `Formula.readCell_display`, `Formula.readField_display`: what becomes of a displayed number.
* `Formula.displayed_readers`: cells and inputs with a displayed number.
-/

namespace LiveForms
namespace Formula

/-- The number, and zero for both zeros. -/
def unsigned (x : Float) : Float :=
  if x == 0.0 then 0.0 else x

/-- Which numbers are the same but for the sign of a zero. -/
theorem unsigned_eq_unsigned_iff
    {x y : Float} :
    unsigned y = unsigned x ↔ y = x ∨ (y == 0.0) = true ∧ (x == 0.0) = true := by
  have hself : ((0.0 : Float) == 0.0) = true := by decide +kernel
  constructor
  · intro h
    simp only [unsigned] at h
    split at h
    · rename_i hy
      split at h
      · rename_i hx
        exact .inr ⟨hy, hx⟩
      · rename_i hx
        rw [← h] at hx
        exact absurd hself hx
    · rename_i hy
      split at h
      · rw [h] at hy
        exact absurd hself hy
      · exact .inl h
  · rintro (rfl | ⟨hy, hx⟩)
    · rfl
    · rw [unsigned, unsigned, if_pos hy, if_pos hx]

/-- The power of ten behind a number that is displayed. -/
def powerBehind (x : Float) : List Char :=
  if 1e-6 ≤ x.abs ∧ x.abs < 1e21 then
    []
  else
    Decimal.powerText ((Decimal.shortest (Binary64.rank x)).point - 1)

section Finite

variable {x : Float} (hx : x.isFinite = true)
include hx

theorem display_of_beq_zero
    (hzero : (x == 0.0) = true) :
    display x = "0" := by
  rw [display, Layout.write, Layout.writeMagnitude, hzero, (isNaN_isInf_of_isFinite hx).1]
  simp [Layout.result]

section Nonzero

variable (hne : (x == 0.0) = false)
include hne

/-- A number is displayed as its sign and a numeral with the value of its shortest decimal. -/
theorem exists_display_eq_parts :
    ∃ whole fraction?,
      display x =
        String.ofList (Numeral.parts (Binary64.signBit x) whole fraction? (powerBehind x)) ∧
      (Decimal.shortest (Binary64.rank x)).IsSpelled whole fraction? (powerBehind x) := by
  obtain ⟨hNaN, hInf⟩ := isNaN_isInf_of_isFinite hx
  have hmagnitude : ∃ whole fraction?,
      Layout.result.writeMagnitude x = Token.numeralText whole fraction? ++ powerBehind x ∧
      (Decimal.shortest (Binary64.rank x)).IsSpelled whole fraction? (powerBehind x) := by
    rw [Layout.writeMagnitude, hne, hInf, if_neg Bool.false_ne_true, if_neg Bool.false_ne_true,
      powerBehind]
    -- the two bounds are those of the layout of results
    change ∃ whole fraction?, (if 1e-6 ≤ x.abs ∧ x.abs < 1e21 then _ else _) = _ ∧ _
    split
    · obtain ⟨whole, fraction?, htext, hspelled⟩ := Decimal.exists_isSpelled_positional
        (Decimal.shortest (Binary64.rank x))
      exact ⟨whole, fraction?, htext.trans (List.append_nil _).symm, hspelled⟩
    · exact Decimal.exists_isSpelled_scientific _
  obtain ⟨whole, fraction?, htext, hspelled⟩ := hmagnitude
  refine ⟨whole, fraction?, ?_, hspelled⟩
  rw [display, Layout.write, hNaN, hne, htext, Numeral.parts]
  cases Binary64.signBit x <;> rfl

/-- A numeral with the value of the shortest decimal is read as the number. -/
theorem signed_value_of_isSpelled
    {whole : List Char} {fraction? : Option (List Char)} {rest : List Char}
    (h : (Decimal.shortest (Binary64.rank x)).IsSpelled whole fraction? rest) :
    Numeral.signed (Binary64.signBit x)
      (Numeral.value ⟨whole, fraction?.getD [], Numeral.leadingPower rest⟩) = x := by
  have hpos : 0 < Binary64.rank x := by
    rw [Nat.pos_iff_ne_zero, Ne, Binary64.rank_eq_zero_iff, hne]
    exact Bool.false_ne_true
  have hrank := Decimal.nearestRank_of_toRat_eq hpos (Binary64.rank_lt_infinityRank hx) h.value
  rw [Numeral.value, Decimal.toFloat, hrank, Binary64.signed_ofRank_rank]

end Nonzero

/-- A cell with a displayed number holds this number. -/
theorem readCell_display :
    readCell (display x) = some (unsigned x) := by
  rw [unsigned]
  split
  · rename_i hzero
    rw [display_of_beq_zero hx hzero]
    decide +kernel
  · rename_i hne
    rw [Bool.not_eq_true] at hne
    obtain ⟨whole, fraction?, htext, hspelled⟩ := exists_display_eq_parts hx hne
    rw [htext, readCell_parts hspelled.complete hspelled.stops hspelled.visible,
      signed_value_of_isSpelled hx hne hspelled]

/-- An input takes a displayed number if there is no power of ten behind it. -/
theorem readField_display :
    readField (display x) =
      if (x == 0.0) = true ∨ 1e-6 ≤ x.abs ∧ x.abs < 1e21 then
        .ok (unsigned x)
      else
        .error .invalid := by
  by_cases hzero : (x == 0.0) = true
  · rw [display_of_beq_zero hx hzero, if_pos (.inl hzero), unsigned, if_pos hzero]
    decide +kernel
  · rw [unsigned, if_neg hzero]
    have hne := Bool.eq_false_of_not_eq_true hzero
    obtain ⟨whole, fraction?, htext, hspelled⟩ := exists_display_eq_parts hx hne
    have hvalue := signed_value_of_isSpelled hx hne hspelled
    rw [htext]
    by_cases hrange : 1e-6 ≤ x.abs ∧ x.abs < 1e21
    · rw [if_pos (.inr hrange)]
      rw [powerBehind, if_pos hrange] at hvalue ⊢
      rw [readField_parts hspelled.complete]
      exact congrArg Except.ok hvalue
    · have hpower : 'e' ∈ powerBehind x := by
        rw [powerBehind, if_neg hrange, Decimal.powerText]
        exact List.mem_cons_self
      rw [if_neg (not_or.mpr ⟨hzero, hrange⟩), readField_parts_of_mem hspelled.complete hpower]

end Finite

/--
Whatever finite number a formula displays, a cell with this text holds the number, and zero if
it is one of the zeros. An input with this text stands for the same number if it is a zero or
not below `1e-6` and below `1e21` in magnitude, and is invalid if it is not. Another finite
number is displayed alike only if both are zeros.
-/
theorem displayed_readers
    (x : Float)
    (hx : x.isFinite = true) :
    (∀ d row name cell, d.firstWithClass row name = some cell →
      d.value? cell = some (display x) → cell? d row name = some (unsigned x)) ∧
    (∀ d name input, d.byId name = some input → d.value? input = some (display x) →
      field d name =
        if (x == 0.0) = true ∨ 1e-6 ≤ x.abs ∧ x.abs < 1e21 then
          .ok (unsigned x)
        else
          .error .invalid) ∧
    ∀ y, y.isFinite = true →
      (display y = display x ↔ y = x ∨ (y == 0.0) = true ∧ (x == 0.0) = true) := by
  refine ⟨?_, ?_, ?_⟩
  · intro d row name cell hcell hvalue
    simp only [cell?, hcell, hvalue]
    exact readCell_display hx
  · intro d name input hinput hvalue
    rw [field, hinput, Option.bind_some, hvalue]
    exact readField_display hx
  · intro y hy
    constructor
    · intro htext
      have hread := readCell_display hy
      rw [htext, readCell_display hx] at hread
      exact unsigned_eq_unsigned_iff.mp (Option.some.inj hread).symm
    · rintro (rfl | ⟨hyzero, hxzero⟩)
      · rfl
      · rw [display_of_beq_zero hy hyzero, display_of_beq_zero hx hxzero]

/-- An input that is a cell as well, with a displayed number. -/
def typedBack (x : Float) : Document :=
  Document.ofChanges [.create Document.root
    { tag := "input", id := some "weight", classes := ["grade"], value := display x }]

/-- The first number with a power of ten, and the one below it, which has 21 digits. -/
theorem displayed_readers_aroundLimit :
    (1e21 : Float).isFinite = true ∧ (999999999999999868928.0 : Float).isFinite = true ∧
    display 1e21 = "1e+21" ∧ cell? (typedBack 1e21) Document.root "grade" = some 1e21 ∧
    field (typedBack 1e21) "weight" = .error .invalid ∧
    field (typedBack 999999999999999868928.0) "weight" = .ok 999999999999999868928.0 ∧
    display 999999999999999868928.0 ≠ display 1e21 := by
  have hlimit : (1e21 : Float).isFinite = true := by decide +kernel
  have hbelow : (999999999999999868928.0 : Float).isFinite = true := by decide +kernel
  obtain ⟨hcell, hfield, hinjective⟩ := displayed_readers 1e21 hlimit
  obtain ⟨_, hfieldBelow, _⟩ := displayed_readers 999999999999999868928.0 hbelow
  refine ⟨hlimit, hbelow, by decide +kernel, ?_, ?_, ?_, ?_⟩
  · rw [hcell (typedBack 1e21) Document.root "grade" 1 (by decide +kernel) (by decide +kernel)]
    decide +kernel
  · rw [hfield (typedBack 1e21) "weight" 1 (by decide +kernel) (by decide +kernel)]
    decide +kernel
  · rw [hfieldBelow (typedBack 999999999999999868928.0) "weight" 1 (by decide +kernel)
      (by decide +kernel)]
    decide +kernel
  · rw [Ne, hinjective _ hbelow]
    decide +kernel

end Formula
end LiveForms
