import LiveForms.Proofs.Decimal.Ranks
import Mathlib.Algebra.Field.Rat
import Mathlib.Tactic.NormNum

/-!
# Live forms: decimals that are read as the double they were written for

Whether a decimal rounds to a rank depends on its value only, so it does not matter where the
point stands or how many zeros are at the end. The grid of the finest place has every double on
it, so the search for the shortest decimal ends with a hit, and a hit rounds to the rank it was
searched for. This is why the written form of a double is read as the same double.

Main definition:

* `Decimal.toRat`: the value of a decimal.

Main statements:

* `Decimal.nearestRank_of_roundsTo`: the rank that a decimal is read as.
* `Decimal.roundsTo_shortest`: the shortest decimal of a rank rounds to it.
* `Decimal.nearestRank_of_toRat_eq`: a decimal with the value of the shortest one is read as
  the same rank.
-/

namespace LiveForms
namespace Decimal

variable {d d' : Decimal} {rank : Nat}

section Values

/-- The value of a decimal. -/
def toRat (d : Decimal) : ℚ :=
  d.digits * (10 : ℚ) ^ d.exponent

theorem ratio_of_neg
    (digits : Nat)
    {exponent : Int}
    (h : exponent < 0) :
    ratio ⟨digits, exponent⟩ = (digits, 10 ^ exponent.natAbs) :=
  if_neg (Int.not_le.mpr h)

theorem ratio_snd_pos
    (d : Decimal) :
    0 < d.ratio.2 := by
  rw [ratio]
  split
  · exact Nat.one_pos
  · exact Nat.pow_pos (by decide)

theorem div_ratio
    (d : Decimal) :
    (d.ratio.1 : ℚ) / d.ratio.2 = d.toRat := by
  rw [ratio, toRat]
  split
  · rename_i hexponent
    rw [Nat.pow_eq, Nat.cast_mul, Nat.cast_pow, Nat.cast_one, div_one, ← zpow_natCast,
      Int.toNat_of_nonneg hexponent]
    rfl
  · rename_i hexponent
    have hneg : d.exponent = -(d.exponent.natAbs : Int) := by omega
    conv_rhs => rw [hneg, zpow_neg, zpow_natCast]
    rw [Nat.pow_eq, Nat.cast_pow, div_eq_mul_inv]
    rfl

/-- Decimals with one value round alike. -/
theorem roundsTo_congr
    (h : d.toRat = d'.toRat)
    (rank : Nat) :
    d.roundsTo rank = d'.roundsTo rank := by
  refine Binary64.rounds_congr d.ratio_snd_pos d'.ratio_snd_pos ?_ rank
  have hden : (d.ratio.2 : ℚ) ≠ 0 := Nat.cast_ne_zero.mpr (Nat.ne_of_gt d.ratio_snd_pos)
  have hden' : (d'.ratio.2 : ℚ) ≠ 0 := Nat.cast_ne_zero.mpr (Nat.ne_of_gt d'.ratio_snd_pos)
  rw [← div_ratio, ← div_ratio, div_eq_div_iff hden hden'] at h
  exact_mod_cast h

end Values

section Reading

theorem digits_ne_zero_of_roundsTo
    (hpos : 0 < rank)
    (h : d.roundsTo rank = true) :
    d.digits ≠ 0 := by
  intro hzero
  have hnum : d.ratio.1 = 0 := by
    rw [ratio]
    split
    · rw [hzero, Nat.zero_mul]
    · exact hzero
  have hle := Binary64.den_le_of_rounds hpos h
  rw [hnum, Nat.zero_mul, Nat.mul_zero] at hle
  exact Nat.not_lt_of_le hle d.ratio_snd_pos

theorem two_pow_le_ten_pow
    (n : Nat) :
    2 ^ (3 * n) ≤ 10 ^ n := by
  rw [Nat.pow_mul]
  exact Nat.pow_le_pow_left (by decide) n

/-- A power of ten above all doubles is not among the numbers that round to one. -/
theorem exponent_le_of_roundsTo
    (hpos : 0 < rank)
    (hlt : rank < Binary64.infinityRank)
    (h : d.roundsTo rank = true) :
    d.exponent ≤ 400 := by
  by_contra hexponent
  have hle := Binary64.num_le_of_rounds hlt h
  rw [ratio, if_pos (by omega), Nat.mul_one] at hle
  have hdigits : 0 < d.digits := Nat.pos_of_ne_zero (digits_ne_zero_of_roundsTo hpos h)
  have hbits : 1024 < 3 * d.exponent.toNat := by omega
  generalize 1024 = bits at hle hbits
  have hlarge : 2 ^ bits < 10 ^ d.exponent.toNat :=
    Nat.lt_of_lt_of_le (Nat.pow_lt_pow_right (by decide) hbits) (two_pow_le_ten_pow _)
  have hnum : 10 ^ d.exponent.toNat ≤ d.digits * 10 ^ d.exponent.toNat :=
    Nat.le_mul_of_pos_left _ hdigits
  exact Nat.not_lt_of_le (Nat.le_trans hnum hle) hlarge

/-- A number that is below all doubles but zero does not round to another one. -/
theorem natAbs_exponent_le_of_roundsTo
    (hpos : 0 < rank)
    (hneg : d.exponent < 0)
    (h : d.roundsTo rank = true) :
    3 * d.exponent.natAbs ≤ d.digits.log2 + 1100 := by
  by_contra hexponent
  have hle := Binary64.den_le_of_rounds hpos h
  rw [ratio_of_neg _ hneg] at hle
  have hdigits : d.digits < 2 ^ (d.digits.log2 + 1) := Nat.lt_log2_self
  have hten := two_pow_le_ten_pow d.exponent.natAbs
  have htwo : 2 ^ (d.digits.log2 + 1 + 1075) ≤ 2 ^ (3 * d.exponent.natAbs) :=
    Nat.pow_le_pow_right (by decide) (by omega)
  have htwice : 2 * (d.digits * 2 ^ 1074) < 2 ^ (d.digits.log2 + 1 + 1075) := by
    have hsucc : 1075 = 1074 + 1 := rfl
    rw [hsucc]
    generalize 1074 = place
    rw [Nat.pow_add, Nat.pow_succ 2 place, Nat.mul_comm 2, Nat.mul_assoc]
    exact Nat.mul_lt_mul_of_pos_right hdigits (by simp)
  exact Nat.not_lt_of_le (Nat.le_trans htwo (Nat.le_trans hten hle)) htwice

/-- A decimal that rounds to a rank is read as that rank. -/
theorem nearestRank_of_roundsTo
    (hpos : 0 < rank)
    (hlt : rank < Binary64.infinityRank)
    (h : d.roundsTo rank = true) :
    d.nearestRank = rank := by
  have hexponent := exponent_le_of_roundsTo hpos hlt h
  have hnearest := Binary64.nearestRank_of_rounds d.ratio_snd_pos hpos hlt h
  rw [nearestRank, if_neg (digits_ne_zero_of_roundsTo hpos h), if_neg (by omega)]
  rw [ratio] at hnearest
  split
  · rename_i hsign
    rwa [if_pos hsign] at hnearest
  · rename_i hsign
    have hsmall := natAbs_exponent_le_of_roundsTo hpos (by omega) h
    rw [if_neg hsign] at hnearest
    rwa [if_neg (by omega)]

end Reading

section TrailingZeros

theorem toRat_stripFrom
    (fuel : Nat)
    (d : Decimal) :
    (d.stripFrom fuel).toRat = d.toRat := by
  induction fuel generalizing d with
  | zero => rfl
  | succ fuel ih =>
      rw [stripFrom]
      split
      · rename_i hzero
        have hdigits : d.digits = d.digits / 10 * 10 := by omega
        rw [ih, toRat, toRat, zpow_add_one₀ (by norm_num)]
        conv_rhs => rw [hdigits, Nat.cast_mul]
        push_cast
        ring
      · rfl

end TrailingZeros

section Grids

/-- A hit on a grid rounds to the rank that was searched for. -/
theorem roundsTo_of_atPlace
    {place : Int}
    (h : atPlace rank place = some d) :
    d.roundsTo rank = true := by
  simp only [atPlace] at h
  split at h
  · rename_i hbelow habove
    obtain rfl := Option.some.inj h
    split
    · exact habove
    · exact hbelow
  · rename_i hbelow _
    obtain rfl := Option.some.inj h
    exact hbelow
  · rename_i _ habove
    obtain rfl := Option.some.inj h
    exact habove
  · cases h

/-- The double of every rank is on the grid of the finest place. -/
theorem roundsTo_finest
    (hpos : 0 < rank) :
    roundsTo ⟨Binary64.magnitude rank * 10 ^ 1074 / 2 ^ 1074, -1074⟩ rank = true := by
  have hexact := Binary64.rounds_magnitude hpos
  have hplace : Int.natAbs (-1074) = 1074 := rfl
  rw [roundsTo, ratio_of_neg _ (by decide), hplace]
  generalize 1074 = place at hexact ⊢
  -- so the quotient on the grid is exact
  have hdvd : 2 ^ place ∣ 10 ^ place := pow_dvd_pow_of_dvd (by decide) place
  have hvalue := Nat.div_mul_cancel (hdvd.mul_left (Binary64.magnitude rank))
  exact (Binary64.rounds_congr (Nat.pow_pos (by decide)) (Nat.two_pow_pos place) hvalue rank).trans
    hexact

theorem isSome_atPlace_finest
    (hpos : 0 < rank) :
    (atPlace rank (-1074)).isSome = true := by
  have hplace : Int.natAbs (-1074) = 1074 := rfl
  have hnum : placeRatio rank (-1074) = (Binary64.magnitude rank * 10 ^ 1074, 2 ^ 1074) := by
    rw [placeRatio, if_neg (by decide), hplace]
    generalize 1074 = place
    rfl
  simp only [atPlace, hnum, roundsTo_finest hpos]
  split
  · rfl
  · rfl
  · rename_i hbelow _
    cases hbelow
  · rename_i hbelow _
    cases hbelow

/-- A search that gets down to the finest place has a hit. -/
theorem exists_shortestFrom
    (hpos : 0 < rank)
    (steps : Nat)
    {place : Int}
    (hplace : -1074 ≤ place)
    (hsteps : place + 1074 < steps) :
    ∃ d, shortestFrom rank place steps = some d ∧ d.roundsTo rank = true := by
  induction steps generalizing place with
  | zero => omega
  | succ steps ih =>
      rw [shortestFrom]
      cases hat : atPlace rank place with
      | some d => exact ⟨d, rfl, roundsTo_of_atPlace hat⟩
      | none =>
          -- there are as many steps left as places down to the finest one, and that one hits
          have hne : place ≠ -1074 := by
            rintro rfl
            have hsome := isSome_atPlace_finest hpos
            rw [hat] at hsome
            cases hsome
          exact ih (by omega) (by omega)

theorem le_topPlace
    (rank : Nat) :
    -1074 ≤ topPlace rank := by
  rw [topPlace]
  omega

/-- The shortest decimal of a rank rounds to it. -/
theorem roundsTo_shortest
    (hpos : 0 < rank) :
    (shortest rank).roundsTo rank = true := by
  have hplace := le_topPlace rank
  obtain ⟨d, hd, hrounds⟩ := exists_shortestFrom hpos ((topPlace rank + 1074).toNat + 1) hplace
    (by omega)
  simp only [shortest, hd]
  rw [strip, roundsTo_congr (toRat_stripFrom _ d)]
  exact hrounds

/-- What has the value of the shortest decimal of a rank is read as this rank. -/
theorem nearestRank_of_toRat_eq
    (hpos : 0 < rank)
    (hlt : rank < Binary64.infinityRank)
    (h : d.toRat = (shortest rank).toRat) :
    d.nearestRank = rank := by
  refine nearestRank_of_roundsTo hpos hlt ?_
  rw [roundsTo_congr h]
  exact roundsTo_shortest hpos

end Grids

end Decimal
end LiveForms
