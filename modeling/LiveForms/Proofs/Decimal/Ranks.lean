import LiveForms.Decimal.Shortest
import Mathlib.Order.Monotone.Basic
import Mathlib.Tactic.Ring

/-!
# Live forms: ranks and the numbers that round to them

The magnitudes of the ranks increase, and the distance to the next one is a power of two
that depends on the exponent field. A quotient is read by looking for the last magnitude that
is not above it, and asks then which of this one and the next one is nearer. The same rank is
found by asking of each rank whether the quotient lies between the midpoints on both sides of
it. So the two ways to round agree, and the second one depends on the value of the quotient
only, and not on how it is written.

Main statements:

* `Binary64.magnitude_succ`, `Binary64.strictMono_magnitude`: the magnitudes of ranks.
* `Binary64.magnitude_floorRank`: the rank below a number, and the next one.
* `Binary64.rounds_magnitude`, `Binary64.den_le_of_rounds`, `Binary64.num_le_of_rounds`: what
  rounds to a rank.
* `Binary64.nearestRank_of_rounds`: the nearest rank is the one that a number rounds to.
-/

namespace LiveForms
namespace Binary64

section Magnitudes

theorem magnitude_subnormal
    {rank : Nat}
    (h : rank < 2 ^ 52) :
    magnitude rank = rank := by
  simp only [magnitude, Nat.pow_eq]
  rw [Nat.div_eq_of_lt h, if_pos rfl, Nat.mod_eq_of_lt h]

/-- A rank with a significand of 53 bits. -/
theorem magnitude_normal
    {significand : Nat}
    (hlow : 2 ^ 52 ≤ significand)
    (hhigh : significand < 2 ^ 53)
    (shift : Nat) :
    magnitude (shift * 2 ^ 52 + significand) = significand * 2 ^ shift := by
  have hexponent : (shift * 2 ^ 52 + significand) / 2 ^ 52 = shift + 1 := by omega
  have hfraction : (shift * 2 ^ 52 + significand) % 2 ^ 52 = significand - 2 ^ 52 := by omega
  simp only [magnitude, Nat.pow_eq]
  rw [hexponent, hfraction, if_neg (Nat.succ_ne_zero shift), Nat.add_sub_cancel,
    Nat.add_sub_cancel' hlow]

/-- A rank is the rank of a subnormal number, or it has a significand. -/
theorem lt_or_exists_significand
    (rank : Nat) :
    rank < 2 ^ 52 ∨ ∃ shift significand, 2 ^ 52 ≤ significand ∧ significand < 2 ^ 53 ∧
      rank = shift * 2 ^ 52 + significand := by
  rcases Nat.lt_or_ge rank (2 ^ 52) with hlt | hle
  · exact .inl hlt
  · exact .inr ⟨rank / 2 ^ 52 - 1, 2 ^ 52 + rank % 2 ^ 52, by omega, by omega, by omega⟩

/-- The distance to the next rank depends on the exponent field. -/
theorem magnitude_succ
    (rank : Nat) :
    magnitude (rank + 1) = magnitude rank + 2 ^ (rank / 2 ^ 52 - 1) := by
  rcases lt_or_exists_significand rank with hlt | ⟨shift, significand, hlow, hhigh, rfl⟩
  · rw [magnitude_subnormal hlt, Nat.div_eq_of_lt hlt]
    rcases Nat.lt_or_ge (rank + 1) (2 ^ 52) with hnext | hnext
    · rw [magnitude_subnormal hnext]
      rfl
    · obtain rfl : rank = 2 ^ 52 - 1 := by omega
      rfl
  · have hexponent : (shift * 2 ^ 52 + significand) / 2 ^ 52 - 1 = shift := by omega
    rw [magnitude_normal hlow hhigh, hexponent]
    rcases Nat.lt_or_ge (significand + 1) (2 ^ 53) with hnext | hnext
    · rw [Nat.add_assoc, magnitude_normal (by omega) hnext, Nat.succ_mul]
    · -- the significand overflows into the exponent field
      obtain rfl : significand = 2 ^ 53 - 1 := by omega
      have hcarry : shift * 2 ^ 52 + (2 ^ 53 - 1) + 1 = (shift + 1) * 2 ^ 52 + 2 ^ 52 := by omega
      rw [hcarry, magnitude_normal (by omega) (by omega), Nat.pow_succ]
      omega

theorem strictMono_magnitude : StrictMono magnitude := by
  refine strictMono_nat_of_lt_succ fun rank => ?_
  rw [magnitude_succ]
  exact Nat.lt_add_of_pos_right (Nat.two_pow_pos _)

end Magnitudes

section Floor

/-- A number that is large enough has 53 leading bits. -/
theorem leading_bits
    {units : Nat}
    (h : 2 ^ 52 ≤ units) :
    2 ^ 52 ≤ units / 2 ^ (units.log2 - 52) ∧ units / 2 ^ (units.log2 - 52) < 2 ^ 53 := by
  have hne : units ≠ 0 := Nat.ne_of_gt (Nat.lt_of_lt_of_le (Nat.two_pow_pos 52) h)
  have hlog : 52 ≤ units.log2 := (Nat.le_log2 hne).mpr h
  constructor
  · rw [Nat.le_div_iff_mul_le (Nat.two_pow_pos _), ← Nat.pow_add, Nat.add_sub_cancel' hlog]
    exact Nat.log2_self_le hne
  · have hexponent : 53 + (units.log2 - 52) = units.log2 + 1 := by omega
    rw [Nat.div_lt_iff_lt_mul (Nat.two_pow_pos _), ← Nat.pow_add, hexponent]
    exact Nat.lt_log2_self

/-- The leading bits of a number are the magnitude of the rank below it, and the next rank is
one of their last place above. -/
theorem magnitude_floorRank
    (units : Nat) :
    magnitude (floorRank units) =
        units / 2 ^ (units.log2 - 52) * 2 ^ (units.log2 - 52) ∧
      magnitude (floorRank units + 1) =
        (units / 2 ^ (units.log2 - 52) + 1) * 2 ^ (units.log2 - 52) := by
  have hfloor : floorRank units =
      (units.log2 - 52) * 2 ^ 52 + units / 2 ^ (units.log2 - 52) := rfl
  rcases Nat.lt_or_ge units (2 ^ 52) with hlt | hle
  · have hshift : units.log2 - 52 = 0 := by
      by_cases hne : units = 0
      · rw [hne]
        rfl
      · exact Nat.sub_eq_zero_of_le (Nat.le_of_lt ((Nat.log2_lt hne).mpr hlt))
    rw [hfloor, hshift, Nat.zero_mul, Nat.zero_add, Nat.pow_zero, Nat.div_one, Nat.mul_one,
      Nat.mul_one, magnitude_succ, magnitude_subnormal hlt, Nat.div_eq_of_lt hlt]
    exact ⟨rfl, rfl⟩
  · obtain ⟨hlow, hhigh⟩ := leading_bits hle
    rw [hfloor, magnitude_succ]
    generalize units / 2 ^ (units.log2 - 52) = significand at hlow hhigh
    generalize units.log2 - 52 = shift
    have hexponent : (shift * 2 ^ 52 + significand) / 2 ^ 52 - 1 = shift := by omega
    rw [magnitude_normal hlow hhigh, hexponent, Nat.succ_mul]
    exact ⟨rfl, rfl⟩

end Floor

section Midpoints

/-- What it means that a quotient rounds to a rank. -/
theorem rounds_iff
    {rank num den : Nat} :
    rounds rank num den = true ↔
      if rank % 2 = 0 then
        (magnitude (rank - 1) + magnitude rank) * den ≤ 2 * (num * 2 ^ 1074) ∧
          2 * (num * 2 ^ 1074) ≤ (magnitude rank + magnitude (rank + 1)) * den
      else
        (magnitude (rank - 1) + magnitude rank) * den < 2 * (num * 2 ^ 1074) ∧
          2 * (num * 2 ^ 1074) < (magnitude rank + magnitude (rank + 1)) * den := by
  have hexponent : 1075 = 1074 + 1 := rfl
  rw [rounds, hexponent]
  -- no power this large has to be computed
  generalize 1074 = exponent
  have htwice : num * Nat.pow 2 (exponent + 1) = 2 * (num * 2 ^ exponent) := by
    rw [Nat.pow_eq, Nat.pow_succ]
    ring
  rw [htwice]
  split
  · rw [Bool.and_eq_true, decide_eq_true_eq, decide_eq_true_eq]
  · rw [Bool.and_eq_true, decide_eq_true_eq, decide_eq_true_eq]

/-- The quotient is not outside the midpoints. -/
theorem le_of_rounds
    {rank num den : Nat}
    (h : rounds rank num den = true) :
    (magnitude (rank - 1) + magnitude rank) * den ≤ 2 * (num * 2 ^ 1074) ∧
      2 * (num * 2 ^ 1074) ≤ (magnitude rank + magnitude (rank + 1)) * den := by
  rw [rounds_iff] at h
  split at h
  · exact h
  · exact ⟨Nat.le_of_lt h.1, Nat.le_of_lt h.2⟩

/-- A bound on a quotient is one on the same quotient in other terms. -/
theorem bound_iff
    {num den num' den' : Nat}
    (hden : 0 < den)
    (hden' : 0 < den')
    (heq : num * den' = num' * den)
    (bound scale : Nat) :
    (bound * den ≤ 2 * (num * scale) ↔ bound * den' ≤ 2 * (num' * scale)) ∧
      (bound * den < 2 * (num * scale) ↔ bound * den' < 2 * (num' * scale)) := by
  have hbound : bound * den * den' = bound * den' * den := Nat.mul_right_comm _ _ _
  have hvalue : 2 * (num * scale) * den' = 2 * (num' * scale) * den := by
    calc 2 * (num * scale) * den'
        = 2 * scale * (num * den') := by ring
      _ = 2 * scale * (num' * den) := by rw [heq]
      _ = 2 * (num' * scale) * den := by ring
  rw [← Nat.mul_le_mul_right_iff hden', ← Nat.mul_lt_mul_right hden', hbound, hvalue,
    Nat.mul_le_mul_right_iff hden, Nat.mul_lt_mul_right hden]
  exact ⟨.rfl, .rfl⟩

/-- Rounding depends on the value of a quotient only. -/
theorem rounds_congr
    {num den num' den' : Nat}
    (hden : 0 < den)
    (hden' : 0 < den')
    (heq : num * den' = num' * den)
    (rank : Nat) :
    rounds rank num den = rounds rank num' den' := by
  rw [Bool.eq_iff_iff, rounds_iff, rounds_iff]
  generalize 2 ^ 1074 = scale
  have hbound := fun bound => bound_iff hden hden' heq bound scale
  have habove : ∀ bound, 2 * (num * scale) ≤ bound * den ↔ 2 * (num' * scale) ≤ bound * den' := by
    intro bound
    rw [← Nat.not_lt, (hbound bound).2, Nat.not_lt]
  have habove' : ∀ bound, 2 * (num * scale) < bound * den ↔ 2 * (num' * scale) < bound * den' := by
    intro bound
    rw [← Nat.not_le, (hbound bound).1, Nat.not_le]
  rw [(hbound _).1, (hbound _).2, habove, habove']

end Midpoints

section Limits

theorem magnitude_pos
    {rank : Nat}
    (hpos : 0 < rank) :
    0 < magnitude rank :=
  Nat.zero_lt_of_lt (strictMono_magnitude hpos)

theorem magnitude_infinityRank :
    magnitude infinityRank = 2 ^ 1024 * 2 ^ 1074 := by
  have hrank : infinityRank = 2046 * 2 ^ 52 + 2 ^ 52 := rfl
  have hexponent : 52 + 2046 = 1024 + 1074 := rfl
  rw [hrank, magnitude_normal (by decide) (by decide)]
  generalize 1024 = bits, 1074 = place, 2046 = shift at hexponent
  rw [← Nat.pow_add, hexponent, Nat.pow_add]

/-- The magnitude of a rank rounds to it. -/
theorem rounds_magnitude
    {rank : Nat}
    (hpos : 0 < rank) :
    rounds rank (magnitude rank) (2 ^ 1074) = true := by
  have hprevious := strictMono_magnitude (Nat.sub_one_lt_of_lt hpos)
  have hnext : magnitude rank < magnitude (rank + 1) :=
    strictMono_magnitude (Nat.lt_succ_self rank)
  rw [rounds_iff]
  generalize 1074 = place
  have hscale : 0 < 2 ^ place := Nat.two_pow_pos place
  generalize 2 ^ place = scale at hscale
  rw [← Nat.mul_assoc]
  have hlow : (magnitude (rank - 1) + magnitude rank) * scale < 2 * magnitude rank * scale :=
    Nat.mul_lt_mul_of_pos_right (by omega) hscale
  have hhigh : 2 * magnitude rank * scale < (magnitude rank + magnitude (rank + 1)) * scale :=
    Nat.mul_lt_mul_of_pos_right (by omega) hscale
  split
  · exact ⟨Nat.le_of_lt hlow, Nat.le_of_lt hhigh⟩
  · exact ⟨hlow, hhigh⟩

/-- What rounds to a rank above zero is not too small. -/
theorem den_le_of_rounds
    {rank num den : Nat}
    (hpos : 0 < rank)
    (h : rounds rank num den = true) :
    den ≤ 2 * (num * 2 ^ 1074) := by
  refine Nat.le_trans ?_ (le_of_rounds h).1
  exact Nat.le_mul_of_pos_left _ (Nat.add_pos_right _ (magnitude_pos hpos))

/-- What rounds to a finite rank is not too large. -/
theorem num_le_of_rounds
    {rank num den : Nat}
    (hlt : rank < infinityRank)
    (h : rounds rank num den = true) :
    num ≤ 2 ^ 1024 * den := by
  have hself := strictMono_magnitude.monotone (Nat.le_of_lt hlt)
  have hnext : magnitude (rank + 1) ≤ magnitude infinityRank :=
    strictMono_magnitude.monotone hlt
  have hbound := (le_of_rounds h).2
  rw [magnitude_infinityRank] at hself hnext
  generalize 1024 = bits, 1074 = place at hself hnext hbound ⊢
  have hscale : 0 < 2 ^ place := Nat.two_pow_pos place
  generalize 2 ^ bits = bound at hself hnext ⊢
  generalize 2 ^ place = scale at hself hnext hbound hscale
  refine Nat.le_of_mul_le_mul_right ?_ hscale
  have hsum : magnitude rank + magnitude (rank + 1) ≤ 2 * (bound * scale) := by omega
  have htwice : 2 * (num * scale) ≤ 2 * (bound * scale) * den :=
    Nat.le_trans hbound (Nat.mul_le_mul_right _ hsum)
  calc num * scale
      ≤ bound * scale * den := by
        rw [Nat.mul_assoc] at htwice
        exact Nat.le_of_mul_le_mul_left htwice (by decide)
    _ = bound * den * scale := Nat.mul_right_comm _ _ _

end Limits

section Nearest

/-- The rank below a quotient and the next one enclose it. -/
theorem enclosed
    (scaled : Nat)
    {den : Nat}
    (hden : 0 < den) :
    magnitude (floorRank (scaled / den)) * den ≤ scaled ∧
      scaled < magnitude (floorRank (scaled / den) + 1) * den := by
  obtain ⟨hlow, hnext⟩ := magnitude_floorRank (scaled / den)
  have hgap : 0 < 2 ^ ((scaled / den).log2 - 52) := Nat.two_pow_pos _
  rw [hlow, hnext]
  generalize 2 ^ ((scaled / den).log2 - 52) = gap at hgap
  constructor
  · calc scaled / den / gap * gap * den
        ≤ scaled / den * den := Nat.mul_le_mul_right _ (Nat.div_mul_le_self _ _)
      _ ≤ scaled := Nat.div_mul_le_self _ _
  · have hunits : scaled / den < (scaled / den / gap + 1) * gap := by
      rw [Nat.mul_comm]
      exact Nat.lt_mul_div_succ _ hgap
    exact (Nat.div_lt_iff_lt_mul hden).mp hunits

/-- Of the rank below a quotient and the next one, the nearest is told by their midpoint. -/
theorem nearestRank_eq
    {num den low : Nat}
    (hden : 0 < den)
    (hlow : low = floorRank (num * 2 ^ 1074 / den)) :
    nearestRank num den =
      min (if (magnitude low + magnitude (low + 1)) * den < 2 * (num * 2 ^ 1074) ∨
          2 * (num * 2 ^ 1074) = (magnitude low + magnitude (low + 1)) * den ∧ low % 2 = 1
        then low + 1 else low) infinityRank := by
  rw [nearestRank, hlow]
  generalize 1074 = exponent
  simp only [Nat.pow_eq]
  generalize num * 2 ^ exponent = scaled
  obtain ⟨hbelow, _⟩ := enclosed scaled hden
  obtain ⟨hmagnitude, hnext⟩ := magnitude_floorRank (scaled / den)
  refine congrArg (min · infinityRank) (if_congr ?_ rfl rfl)
  rw [Bool.or_eq_true, Bool.and_eq_true, decide_eq_true_eq, decide_eq_true_eq,
    decide_eq_true_eq, hnext]
  rw [hmagnitude] at hbelow ⊢
  generalize 2 ^ ((scaled / den).log2 - 52) = gap at hbelow
  generalize scaled / den / gap = bits at hbelow
  have hmid : (bits * gap + (bits + 1) * gap) * den = 2 * (bits * gap * den) + den * gap := by
    ring
  rw [hmid]
  omega

/-- A quotient between two neighbouring ranks rounds to one of them. -/
theorem eq_or_eq_succ_of_rounds
    {rank num den low : Nat}
    (hden : 0 < den)
    (hpos : 0 < rank)
    (h : rounds rank num den = true)
    (hbelow : magnitude low * den ≤ num * 2 ^ 1074)
    (habove : num * 2 ^ 1074 < magnitude (low + 1) * den) :
    rank = low ∨ rank = low + 1 := by
  obtain ⟨hleft, hright⟩ := le_of_rounds h
  rw [Nat.add_mul] at hleft hright
  have hmono : ∀ a b, a < b → magnitude a * den < magnitude b * den :=
    fun a b hab => Nat.mul_lt_mul_of_pos_right (strictMono_magnitude hab) hden
  have hle : ∀ a b, a ≤ b → magnitude a * den ≤ magnitude b * den :=
    fun a b hab => Nat.mul_le_mul_right den (strictMono_magnitude.monotone hab)
  rcases Nat.lt_trichotomy rank low with hrank | hrank | hrank
  · -- the midpoint behind the rank is below the quotient
    have hnext := hle (rank + 1) low hrank
    have hself := hmono rank (rank + 1) (Nat.lt_succ_self rank)
    omega
  · exact .inl hrank
  · rcases Nat.lt_or_eq_of_le (Nat.succ_le_of_lt hrank) with hfar | hnear
    · -- the midpoint in front of the rank is above the quotient
      have hprevious := hle (low + 1) (rank - 1) (Nat.le_sub_one_of_lt hfar)
      have hself := hmono (rank - 1) rank (Nat.sub_one_lt_of_lt hpos)
      omega
    · exact .inr hnear.symm

/-- The nearest rank is the one that the quotient rounds to. -/
theorem nearestRank_of_rounds
    {rank num den : Nat}
    (hden : 0 < den)
    (hpos : 0 < rank)
    (hlt : rank < infinityRank)
    (h : rounds rank num den = true) :
    nearestRank num den = rank := by
  obtain ⟨hbelow, habove⟩ := enclosed (num * 2 ^ 1074) hden
  have hcases := eq_or_eq_succ_of_rounds hden hpos h hbelow habove
  rw [nearestRank_eq hden rfl]
  rw [rounds_iff] at h
  generalize floorRank (num * 2 ^ 1074 / den) = low at hcases
  generalize 2 * (num * 2 ^ 1074) = twice at h
  rcases hcases with rfl | rfl
  · have hdown : ¬ ((magnitude rank + magnitude (rank + 1)) * den < twice ∨
        twice = (magnitude rank + magnitude (rank + 1)) * den ∧ rank % 2 = 1) := by
      split at h <;> omega
    rw [if_neg hdown, Nat.min_eq_left (Nat.le_of_lt hlt)]
  · have hup : (magnitude low + magnitude (low + 1)) * den < twice ∨
        twice = (magnitude low + magnitude (low + 1)) * den ∧ low % 2 = 1 := by
      rw [Nat.add_sub_cancel] at h
      split at h <;> omega
    rw [if_pos hup, Nat.min_eq_left (Nat.le_of_lt hlt)]

end Nearest

end Binary64
end LiveForms
