import LiveForms.Proofs.Decimal.ReadBack
import LiveForms.Proofs.Decimal.Readers

/-!
# Live forms: what is written in either notation

A decimal is written as digits with a point among them or with zeros around them, or else with
a power of ten behind the digits. Both are numerals in the sense of the readers, and have the
value of the decimal again: zeros and the point move the digits to their place, and so does the
power.

Main definition:

* `Decimal.IsSpelled`: a numeral in its parts, with the value of a decimal.

Main statements:

* `Decimal.exists_isSpelled_positional`, `Decimal.exists_isSpelled_scientific`: the two
  notations.
-/

namespace LiveForms
namespace Decimal

open Numeral (Complete Stops leadingPower)

/-- A numeral with a text behind it that is read as a power of ten, if any, and its value. -/
structure IsSpelled (d : Decimal) (whole : List Char) (fraction? : Option (List Char))
    (rest : List Char) : Prop where
  complete : Complete whole fraction?
  stops : Stops fraction? rest
  visible : ∀ c ∈ rest, Text.isBlank c = false
  value : (Numeral.decimal ⟨whole, fraction?.getD [], leadingPower rest⟩).toRat = d.toRat

variable (d : Decimal)

theorem ofDigitChars_digitChars :
    Nat.ofDigitChars 10 d.digitChars 0 = d.digits :=
  Nat.ofDigitChars_ten_toDigits

variable {d} {whole fs rest : List Char} {fraction? : Option (List Char)}

/-- A point among the digits is followed by a fraction. -/
theorem complete_of_append
    (h : whole ++ fs = d.digitChars)
    (hne : fs ≠ []) :
    Complete whole (some fs) := by
  have hdigit := d.isDigits_digitChars.isDigit
  rw [← h] at hdigit
  refine ⟨fun c hc => hdigit c (List.mem_append_left _ hc), ?_, by simp⟩
  rintro fs' hfs
  obtain rfl := Option.some.inj hfs
  exact ⟨hne, fun c hc => hdigit c (List.mem_append_right _ hc)⟩

/-- Where the point stands among the digits is made up for by the power of ten. -/
theorem isSpelled_of_append
    (hcomplete : Complete whole fraction?)
    (hstops : Stops fraction? rest)
    (hvisible : ∀ c ∈ rest, Text.isBlank c = false)
    (happend : whole ++ fraction?.getD [] = d.digitChars)
    (hpower : leadingPower rest - (fraction?.getD []).length = d.exponent) :
    IsSpelled d whole fraction? rest := by
  refine ⟨hcomplete, hstops, hvisible, ?_⟩
  rw [Numeral.decimal, happend, ofDigitChars_digitChars, hpower]

section Positional

/-- The point is in front of all digits. -/
theorem isSpelled_fraction
    (h : d.point ≤ 0) :
    IsSpelled d ['0'] (some (List.replicate d.point.natAbs '0' ++ d.digitChars)) [] := by
  have hzero : IsDigits ['0'] := isDigits_cons (by decide) (by simp)
  have hfraction := d.isDigits_digitChars.pad d.point.natAbs 0
  rw [List.replicate_zero, List.append_nil] at hfraction
  have hdigits : Nat.ofDigitChars 10
      (['0'] ++ (List.replicate d.point.natAbs '0' ++ d.digitChars)) 0 = d.digits := by
    rw [Nat.ofDigitChars_append, Nat.ofDigitChars_append, Nat.ofDigitChars_replicate_zero]
    exact d.ofDigitChars_digitChars
  have hexponent : 0 - ((List.replicate d.point.natAbs '0' ++ d.digitChars).length : Int) =
      d.exponent := by
    rw [List.length_append, List.length_replicate]
    rw [point] at h ⊢
    omega
  refine ⟨⟨hzero.isDigit, by simpa using hfraction, by simp⟩, Numeral.stops_nil _, by simp, ?_⟩
  rw [Numeral.decimal, Option.getD_some, leadingPower, hdigits, hexponent]

/-- The point is behind all digits, and behind some zeros perhaps. -/
theorem isSpelled_whole
    (h : d.digitChars.length ≤ d.point.toNat) :
    IsSpelled d (d.digitChars ++ List.replicate (d.point.toNat - d.digitChars.length) '0')
      none [] := by
  have hwhole := d.isDigits_digitChars.pad 0 (d.point.toNat - d.digitChars.length)
  rw [List.replicate_zero, List.nil_append] at hwhole
  have hlength := List.length_pos_of_ne_nil d.isDigits_digitChars.ne_nil
  have hexponent : d.exponent = (d.point.toNat - d.digitChars.length : Nat) := by
    rw [point] at h ⊢
    omega
  refine ⟨⟨hwhole.isDigit, by simp, fun _ => hwhole.ne_nil⟩, Numeral.stops_nil _, by simp, ?_⟩
  rw [Numeral.decimal, Option.getD_none, List.append_nil, Nat.ofDigitChars_append,
    ofDigitChars_digitChars, Nat.ofDigitChars_replicate_zero, leadingPower, toRat, toRat,
    hexponent, zpow_natCast]
  push_cast
  simp [mul_comm]

/-- A decimal in positional notation. -/
theorem exists_isSpelled_positional
    (d : Decimal) :
    ∃ whole fraction?, d.positional [] = Token.numeralText whole fraction? ∧
      IsSpelled d whole fraction? [] := by
  simp only [positional]
  split
  · rename_i hpoint
    exact ⟨_, _, rfl, isSpelled_fraction hpoint⟩
  · rename_i hpoint
    split
    · rename_i hlength
      refine ⟨_, none, ?_, isSpelled_whole hlength⟩
      rw [List.append_nil]
      rfl
    · rename_i hlength
      have hne : d.digitChars.drop d.point.toNat ≠ [] := by
        simpa [List.drop_eq_nil_iff] using hlength
      have happend := List.take_append_drop d.point.toNat d.digitChars
      refine ⟨_, some _, rfl, isSpelled_of_append (complete_of_append happend hne)
        (Numeral.stops_nil _) (by simp) happend ?_⟩
      rw [leadingPower, Option.getD_some, List.length_drop]
      rw [point] at hpoint hlength ⊢
      omega

end Positional

section Scientific

/-- The power of ten behind a numeral. -/
def powerText (power : Int) : List Char :=
  'e' :: ((if power < 0 then ['-'] else ['+']) ++ Nat.toDigits 10 power.natAbs)

theorem leadingPower_powerText
    (power : Int) :
    leadingPower (powerText power) = power := by
  have hvalue : Nat.ofDigitChars 10 (Numeral.digits (Nat.toDigits 10 power.natAbs)).1 0 =
      power.natAbs := by
    have hdigits := Grammar.digits_append (isDigits_toDigits power.natAbs).isDigit
      (Numeral.stops_nil none).digit
    rw [List.append_nil] at hdigits
    rw [hdigits, Nat.ofDigitChars_ten_toDigits]
  rw [powerText]
  split
  · rename_i hneg
    change -((Nat.ofDigitChars 10 (Numeral.digits (Nat.toDigits 10 power.natAbs)).1 0 : Nat) : Int) =
      power
    rw [hvalue]
    omega
  · rename_i hpos
    change ((Nat.ofDigitChars 10 (Numeral.digits (Nat.toDigits 10 power.natAbs)).1 0 : Nat) : Int) =
      power
    rw [hvalue]
    omega

theorem stops_powerText
    (fraction? : Option (List Char))
    (power : Int) :
    Stops fraction? (powerText power) := by
  refine ⟨?_, ?_⟩
  · simp [powerText]
  · simp [powerText]

theorem not_isBlank_of_mem_powerText
    {power : Int} {c : Char}
    (hc : c ∈ powerText power) :
    Text.isBlank c = false := by
  rw [powerText, List.mem_cons, List.mem_append] at hc
  rcases hc with rfl | hc | hc
  · decide
  · split at hc
    · obtain rfl := List.mem_singleton.mp hc
      decide
    · obtain rfl := List.mem_singleton.mp hc
      decide
  · exact Grammar.isBlank_of_isDigit ((isDigits_toDigits _).isDigit c hc)

/-- A decimal with a power of ten. -/
theorem exists_isSpelled_scientific
    (d : Decimal) :
    ∃ whole fraction?,
      d.scientific ['+'] = Token.numeralText whole fraction? ++ powerText (d.point - 1) ∧
      IsSpelled d whole fraction? (powerText (d.point - 1)) := by
  -- with one digit in front of the point, the power is one less than the place of the point
  have hspelled : ∀ whole fraction?, Complete whole fraction? → whole.length = 1 →
      whole ++ fraction?.getD [] = d.digitChars →
      IsSpelled d whole fraction? (powerText (d.point - 1)) := by
    intro whole fraction? hcomplete hlength happend
    refine isSpelled_of_append hcomplete (stops_powerText _ _)
      (fun _ => not_isBlank_of_mem_powerText) happend ?_
    have htotal := congrArg List.length happend
    rw [List.length_append, hlength] at htotal
    rw [leadingPower_powerText, point]
    omega
  have hdigits := d.isDigits_digitChars
  rw [scientific]
  split
  · rename_i hnil
    exact absurd hnil hdigits.ne_nil
  · rename_i digit hdigit
    rw [hdigit] at hdigits
    exact ⟨[digit], none, rfl, hspelled _ _ ⟨hdigits.isDigit, by simp, by simp⟩ rfl hdigit.symm⟩
  · rename_i digit digits hne hcons
    have hsome : digits ≠ [] := fun hnil => hne (by rw [hnil])
    exact ⟨[digit], some digits, rfl,
      hspelled _ _ (complete_of_append hcons.symm hsome) rfl hcons.symm⟩

end Scientific

end Decimal
end LiveForms
