import LiveForms.Decimal.Numeral
import LiveForms.Proofs.Decimal.Doubles

/-!
# Live forms: the bits of a double

The rank of a double is the number of its bits without the sign, and the double of a rank is
made from these bits again. Nothing gets lost: every double is the one of its rank, with its
sign in front. The rank is zero for the two zeros only, and below that of infinity for all
finite doubles.

Main definitions:

* `Binary64.bits`: the bits of a double.
* `Binary64.dropSign`: the same bits with the sign cleared.

Main statements:

* `Binary64.ofRank_rank`: the double of the rank of a double is its absolute value.
* `Binary64.signed_ofRank_rank`: a double from its sign and its rank.
* `Binary64.rank_lt_infinityRank`, `Binary64.rank_eq_zero_iff`: the ranks of finite doubles
  and of zeros.
-/

namespace LiveForms
namespace Binary64

open Float.Model (UnpackedFloat Format)
open Float.Model.UnpackedFloat

section Fields

variable (b : BitVec Format.binary64.numBits)

theorem toNat_unpackMantissa :
    (unpackMantissa b).toNat = b.toNat % 2 ^ 52 := by
  simp [unpackMantissa, BitVec.extractLsb_toNat]

theorem toNat_unpackExponent :
    (unpackExponent b).toNat = b.toNat / 2 ^ 52 % 2 ^ 11 := by
  simp [unpackExponent, BitVec.extractLsb_toNat, Nat.shiftRight_eq_div_pow]

theorem toNat_unpackSign :
    (unpackSign b).toNat = b.toNat / 2 ^ 63 % 2 := by
  simp [unpackSign, BitVec.extractLsb_toNat, Nat.shiftRight_eq_div_pow]

theorem ofBitVec_unpackSign :
    Sign.ofBitVec (unpackSign b) = if 2 ^ 63 ≤ b.toNat then .negative else .positive := by
  have hlt : b.toNat < 2 ^ 64 := b.isLt
  have hsign : unpackSign b = 0#1 ↔ ¬ 2 ^ 63 ≤ b.toNat := by
    rw [← BitVec.toNat_inj, toNat_unpackSign]
    change _ = 0 ↔ _
    omega
  rw [Sign.ofBitVec]
  split
  · rename_i hzero
    rw [if_neg (hsign.mp hzero)]
  · rename_i hone
    rw [if_pos (by rwa [hsign, Decidable.not_not] at hone)]

/-- The bits without the sign. -/
def dropSign : BitVec Format.binary64.numBits :=
  BitVec.ofNat 64 (b.toNat % 2 ^ 63)

theorem toNat_dropSign :
    (dropSign b).toNat = b.toNat % 2 ^ 63 := by
  have hlt : b.toNat % 2 ^ 63 < 2 ^ 64 := by omega
  rw [dropSign]
  exact (BitVec.toNat_ofNat _ _).trans (Nat.mod_eq_of_lt hlt)

theorem unpackMantissa_dropSign :
    unpackMantissa (dropSign b) = unpackMantissa b := by
  apply BitVec.eq_of_toNat_eq
  rw [toNat_unpackMantissa, toNat_unpackMantissa, toNat_dropSign]
  omega

theorem unpackExponent_dropSign :
    unpackExponent (dropSign b) = unpackExponent b := by
  apply BitVec.eq_of_toNat_eq
  rw [toNat_unpackExponent, toNat_unpackExponent, toNat_dropSign]
  omega

/-- Without its sign a double is unpacked as an absolute value. -/
theorem unpack_dropSign :
    unpack Format.binary64 (dropSign b) = (unpack Format.binary64 b).abs := by
  have hpositive : ¬ 2 ^ 63 ≤ (dropSign b).toNat := by
    rw [toNat_dropSign]
    omega
  simp only [unpack, unpackMantissa_dropSign, unpackExponent_dropSign, ofBitVec_unpackSign,
    if_neg hpositive]
  split
  · split <;> rfl
  · split
    · split <;> rfl
    · rfl

theorem unpack_eq_signed :
    unpack Format.binary64 b =
      if 2 ^ 63 ≤ b.toNat then (unpack Format.binary64 b).abs.neg
      else (unpack Format.binary64 b).abs := by
  simp only [unpack, ofBitVec_unpackSign]
  split_ifs <;> rfl

variable {b} in
theorem valid_dropSign
    (h : Format.binary64.Valid b) :
    Format.binary64.Valid (dropSign b) := by
  refine ⟨fun hexponent hmantissa => ?_⟩
  rw [unpackExponent_dropSign] at hexponent
  rw [unpackMantissa_dropSign] at hmantissa
  obtain rfl := h.eq_packedNaN hexponent hmantissa
  decide

end Fields

section Doubles

/-- The bits of a double. -/
def bits (x : Float) : BitVec Format.binary64.numBits :=
  x.toModel.toBits.toBitVec

variable (x : Float)

/-- The double of the rank of a double is its absolute value. -/
theorem ofRank_rank :
    ofRank (rank x) = x.abs := by
  change Float.ofModel (Float.Model.pack
    (unpack Format.binary64 (dropSign (bits x)))) = _
  rw [unpack_dropSign]
  rfl

theorem unpack_abs :
    x.abs.toModel.unpack = x.toModel.unpack.abs := by
  have hvalid : Format.binary64.Valid (dropSign (bits x)) := valid_dropSign x.toModel.valid
  change unpack Format.binary64 (pack Format.binary64
    (unpack Format.binary64 (bits x)).abs) = (unpack Format.binary64 (bits x)).abs
  rw [← unpack_dropSign, pack_unpack_of_valid hvalid]

/-- A double is the one of its rank, with its sign in front. -/
theorem signed_ofRank_rank :
    Numeral.signed (signBit x) (ofRank (rank x)) = x := by
  have hsigned : x.toModel.unpack =
      if signBit x then x.toModel.unpack.abs.neg else x.toModel.unpack.abs := by
    rw [signBit]
    simp only [decide_eq_true_eq]
    exact unpack_eq_signed _
  rw [ofRank_rank, Numeral.signed]
  split
  · rename_i hsign
    change Float.ofModel (Float.Model.pack x.abs.toModel.unpack.neg) = x
    rw [if_pos hsign, ← unpack_abs] at hsigned
    rw [← hsigned, Doubles.ofModel_pack_unpack]
  · rename_i hsign
    change Float.ofModel (Float.Model.pack x.toModel.unpack.abs) = x
    rw [if_neg hsign] at hsigned
    rw [← hsigned, Doubles.ofModel_pack_unpack]

variable {x}

theorem rank_lt_infinityRank
    (hx : x.isFinite = true) :
    rank x < infinityRank := by
  have hexponent : unpackExponent (bits x) ≠ -1#11 := by
    intro h
    change (unpack Format.binary64 (bits x)).isFinite = true at hx
    simp only [unpack] at hx
    rw [if_pos h] at hx
    split at hx <;> cases hx
  have hfield : (unpackExponent (bits x)).toNat ≠ 2047 :=
    fun h => hexponent (BitVec.eq_of_toNat_eq h)
  rw [toNat_unpackExponent] at hfield
  change (bits x).toNat % 2 ^ 63 < 0x7FF0000000000000
  omega

/-- The rank of a double is zero for the two zeros only. -/
theorem rank_eq_zero_iff :
    rank x = 0 ↔ (x == 0.0) = true := by
  have hfields : rank x = 0 ↔
      unpackExponent (bits x) = 0#11 ∧
        unpackMantissa (bits x) = 0#52 := by
    rw [← BitVec.toNat_inj, ← BitVec.toNat_inj, toNat_unpackExponent, toNat_unpackMantissa]
    change (bits x).toNat % 2 ^ 63 = 0 ↔ _ = 0 ∧ _ = 0
    omega
  rw [hfields, Doubles.beq_zero_iff]
  change _ ↔ ∃ s, unpack Format.binary64 (bits x) = .zero s
  simp only [unpack]
  constructor
  · rintro ⟨hexponent, hmantissa⟩
    rw [if_neg (by rw [hexponent]; decide), if_pos hexponent, dif_pos hmantissa]
    exact ⟨_, rfl⟩
  · rintro ⟨s, hs⟩
    split at hs
    · split at hs <;> cases hs
    · split at hs
      · split at hs
        · exact ⟨‹_›, ‹_›⟩
        · cases hs
      · cases hs

end Doubles

end Binary64
end LiveForms
