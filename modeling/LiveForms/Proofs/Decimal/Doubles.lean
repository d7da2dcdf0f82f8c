import Mathlib

/-!
# Live forms: adding and multiplying doubles that are not negative

A double is a zero, a positive or negative number, an infinity or not a number. Sums and
products are rounded and then stored, and a number that is too large for that becomes an
infinity. Which kind of double comes out depends on the kinds that went in, apart from one
question: whether a number is lost on the way. A product may be rounded to zero. A sum is
not, since two doubles are multiples of the smallest one.

How a double is packed into bits and unpacked again is the library's matter. Its lemmas on this
(`unpackSign_packComponents`, `pack_unpack_of_valid`) come only with Mathlib as a whole, no
single module of it imports them.

Main definitions:

* `Doubles.Fits`: what a double can hold, if its size is left aside.
* `Doubles.Stored`: what becomes of a number that is stored.
* `Doubles.Nonneg`, `Doubles.Rising`, `Doubles.Null`: the kinds that sums are made of.

Main statements:

* `Doubles.rising_sum`, `Doubles.null_sum`, `Doubles.nonneg_product`, `Doubles.null_product`:
  the kinds of sums and products.
* `Doubles.sum_zero`: a sum of nonnegative numbers keeps its value under a zero.
* `Doubles.beq_zero_of_sum`: only zeros have the sum zero.
* `Doubles.isFinite_quotient`, `Doubles.quotient_infinity`: quotients with an infinity.
-/

namespace LiveForms
namespace Doubles

open Float.Model (UnpackedFloat Format)
open Float.Model.UnpackedFloat

/-- What a double can hold: the mantissa has 53 bits, the last one not below the smallest double. -/
inductive Fits : UnpackedFloat → Prop
  | notANumber : Fits .notANumber
  | infinity
      (s : Sign) :
      Fits (.infinity s)
  | zero
      (s : Sign) :
      Fits (.zero s)
  | finite
      {s : Sign} {m : Nat} {e : Int} {hpos : 0 < m}
      (hm : m < 2 ^ 53)
      (he : -1074 ≤ e) :
      Fits (.finite s m e hpos)

/-- `v` is what becomes of `u` when it is stored: the same, or an infinity of its sign. -/
inductive Stored : UnpackedFloat → UnpackedFloat → Prop
  | notANumber : Stored .notANumber .notANumber
  | infinity
      (s : Sign) :
      Stored (.infinity s) (.infinity s)
  | zero
      (s : Sign) :
      Stored (.zero s) (.zero s)
  | finite
      {s : Sign} {m m' : Nat} {e e' : Int} {hpos : 0 < m} {hpos' : 0 < m'} :
      Stored (.finite s m e hpos) (.finite s m' e' hpos')
  | overflow
      {s : Sign} {m : Nat} {e : Int} {hpos : 0 < m} :
      Stored (.finite s m e hpos) (.infinity s)

/-- A number that has been rounded keeps its sign, also as a zero. -/
inductive Rounded (s : Sign) : UnpackedFloat → Prop
  | zero : Rounded s (.zero s)
  | finite
      {m : Nat} {e : Int} {hpos : 0 < m}
      (hm : m < 2 ^ 53)
      (he : -1074 ≤ e) :
      Rounded s (.finite s m e hpos)

/-- A double that is not below zero. -/
inductive Nonneg : UnpackedFloat → Prop
  | notANumber : Nonneg .notANumber
  | zero
      (s : Sign) :
      Nonneg (.zero s)
  | finite
      {m : Nat} {e : Int} {hpos : 0 < m} :
      Nonneg (.finite .positive m e hpos)
  | infinity : Nonneg (.infinity .positive)

/-- The sum of doubles that are not below zero, started at zero. -/
inductive Rising : UnpackedFloat → Prop
  | notANumber : Rising .notANumber
  | zero : Rising (.zero .positive)
  | finite
      {m : Nat} {e : Int} {hpos : 0 < m} :
      Rising (.finite .positive m e hpos)
  | infinity : Rising (.infinity .positive)

/-- A product with zero. -/
inductive Null : UnpackedFloat → Prop
  | notANumber : Null .notANumber
  | zero
      (s : Sign) :
      Null (.zero s)

variable {u v : UnpackedFloat} {s : Sign}

theorem Rising.nonneg
    (h : Rising u) :
    Nonneg u := by
  cases h with
  | notANumber => exact .notANumber
  | zero => exact .zero _
  | finite => exact .finite
  | infinity => exact .infinity

section Storing

/-- A double holds what fits. -/
theorem fits_unpack
    (b : BitVec Format.binary64.numBits) :
    Fits (unpack Format.binary64 b) := by
  have hbias : Format.binary64.exponentBias = 1023 := by rfl
  simp only [unpack, hbias]
  split
  · split
    · exact .infinity _
    · exact .notANumber
  · split
    · split
      · exact .zero _
      · exact .finite (Nat.lt_trans (unpackMantissa b).isLt (by decide)) (by omega)
    · rename_i hexponent
      refine .finite (1#1 ++ unpackMantissa b).isLt ?_
      have hpos : (unpackExponent b).toNat ≠ 0 := by
        intro h
        exact hexponent (BitVec.eq_of_toNat_eq h)
      change (-1074 : Int) ≤ _ - ((1023 : Nat) + (52 : Nat))
      omega

/-- Bits that are neither those of an infinity or of no number nor those of a zero. -/
theorem stored_packComponents
    {m : Nat} {e : Int} {hpos : 0 < m} {exponent : BitVec 11} {mantissa : BitVec 52}
    (hexponent : exponent ≠ -1#11)
    (hnonzero : exponent = 0#11 → mantissa ≠ 0#52) :
    Stored (.finite s m e hpos)
      (unpack Format.binary64 (packComponents Format.binary64 s exponent mantissa)) := by
  simp only [unpack, unpackMantissa_packComponents, unpackExponent_packComponents,
    unpackSign_packComponents, Sign.ofBitVec_toBitVec]
  rw [if_neg hexponent]
  split
  · rename_i hzero
    rw [dif_neg (hnonzero hzero)]
    exact .finite
  · exact .finite

theorem stored_pack_finite
    {m : Nat} {e : Int} {hpos : 0 < m}
    (hm : m < 2 ^ 53)
    (he : -1074 ≤ e) :
    Stored (.finite s m e hpos)
      (unpack Format.binary64 (pack Format.binary64 (.finite s m e hpos))) := by
  have hbias : Format.binary64.exponentBias = 1023 := by rfl
  simp only [pack, hbias]
  split
  · cases s
    · exact .overflow
    · exact .overflow
  · rename_i hsmall
    have hexponent : (BitVec.ofNat 11 (e + (1023 : Nat) + (52 : Nat)).toNat).toNat =
        (e + (1023 : Nat) + (52 : Nat)).toNat := by
      rw [BitVec.toNat_ofNat]
      omega
    split
    · apply stored_packComponents
      · intro h
        have hnat := congrArg BitVec.toNat h
        rw [hexponent] at hnat
        change _ = 2047 at hnat
        omega
      · intro h
        have hnat := congrArg BitVec.toNat h
        rw [hexponent] at hnat
        change _ = 0 at hnat
        omega
    · rename_i hlog
      change ¬ m.log2 + 1 = 53 at hlog
      have hne := Nat.ne_of_gt hpos
      have hlt : m < 2 ^ 52 := by
        have hlog' := (Nat.log2_lt hne).mpr hm
        exact (Nat.log2_lt hne).mp (by omega)
      apply stored_packComponents
      · decide
      · intro _ h
        have hnat := congrArg BitVec.toNat h
        rw [BitVec.toNat_ofNat, Nat.mod_eq_of_lt hlt] at hnat
        exact hne hnat

theorem stored_pack
    (h : Fits u) :
    Stored u (Float.Model.pack u).unpack := by
  cases h with
  | notANumber => exact .notANumber
  | infinity s =>
      cases s
      · exact .infinity _
      · exact .infinity _
  | zero s =>
      cases s
      · exact .zero _
      · exact .zero _
  | finite hm he => exact stored_pack_finite hm he

namespace Stored

variable (h : Stored u v)
include h

theorem zero_of_zero
    (hv : v = .zero s) :
    u = .zero s := by
  cases h with
  | zero => exact hv
  | _ => cases hv

theorem rising
    (hu : Rising u) :
    Rising v := by
  cases h with
  | finite => cases hu; exact .finite
  | overflow => cases hu; exact .infinity
  | _ => exact hu

theorem nonneg
    (hu : Nonneg u) :
    Nonneg v := by
  cases h with
  | finite => cases hu; exact .finite
  | overflow => cases hu; exact .infinity
  | _ => exact hu

theorem null
    (hu : Null u) :
    Null v := by
  cases h with
  | finite => cases hu
  | overflow => cases hu
  | _ => exact hu

theorem not_finite
    (hu : u.isFinite = false) :
    v.isFinite = false := by
  cases h with
  | finite => cases hu
  | overflow => rfl
  | _ => exact hu

end Stored

theorem fits_of_not_finite
    (h : u.isFinite = false) :
    Fits u := by
  cases u with
  | notANumber => exact .notANumber
  | infinity s => exact .infinity s
  | _ => cases h

end Storing

section Rounding

/-- How many bits of a mantissa are dropped so that it fits. -/
def dropped (m : Nat) (e : Int) : Nat :=
  (max ((m.log2 : Int) + 1 + e - 53) (-1074) - e).toNat

theorem div_dropped_lt
    (m : Nat)
    (e : Int) :
    m / 2 ^ dropped m e < 2 ^ 53 := by
  have hbits : m.log2 + 1 ≤ 53 + dropped m e := by
    rw [dropped]
    omega
  rw [Nat.div_lt_iff_lt_mul (Nat.two_pow_pos _), ← Nat.pow_add]
  exact Nat.lt_of_lt_of_le Nat.lt_log2_self (Nat.pow_le_pow_right (by decide) hbits)

theorem le_add_dropped
    (m : Nat)
    (e : Int) :
    -1074 ≤ e + dropped m e := by
  rw [dropped]
  omega

/-- A number that is a multiple of the smallest double does not lose all its bits. -/
theorem div_dropped_pos
    {m : Nat} {e : Int}
    (hm : 0 < m)
    (he : -1074 ≤ e) :
    0 < m / 2 ^ dropped m e := by
  have hbits : dropped m e ≤ m.log2 := by
    rw [dropped]
    omega
  have hle : 2 ^ dropped m e ≤ m :=
    Nat.le_trans (Nat.pow_le_pow_right (by decide) hbits) (Nat.log2_self_le (Nat.ne_of_gt hm))
  exact Nat.div_pos hle (Nat.two_pow_pos _)

theorem mantissa_shiftRight
    (em : ExtendedMantissa)
    (n : Nat) :
    (em >>> n).mantissa = em.mantissa / 2 ^ n := by
  induction n with
  | zero =>
      rw [Nat.pow_zero, Nat.div_one]
      rfl
  | succ n ih =>
      change (em >>> n).shiftRightOne.mantissa = _
      rw [ExtendedMantissa.shiftRightOne, ih, Nat.div_div_eq_div_mul, Nat.pow_succ]

theorem mantissa_ofMantissaAndAccuracy
    (m : Nat)
    (accuracy : Accuracy) :
    (ExtendedMantissa.ofMantissaAndAccuracy m accuracy).mantissa = m := by
  cases accuracy with
  | exact => rfl
  | inexact position => cases position <;> rfl

theorem le_roundedMantissa
    (em : ExtendedMantissa) :
    em.mantissa ≤ em.roundedMantissa := by
  rw [ExtendedMantissa.roundedMantissa]
  cases em.accuracy with
  | exact => exact Nat.le_refl _
  | inexact position =>
      cases position with
      | lt => exact Nat.le_refl _
      | eq => exact Nat.le_add_right _ _
      | gt => exact Nat.le_add_right _ _

theorem mantissa_shiftToTargetExponent
    (m : Nat)
    (e : Int)
    (accuracy : Accuracy) :
    (shiftToTargetExponent Format.binary64 m e accuracy).1.mantissa = m / 2 ^ dropped m e :=
  (mantissa_shiftRight _ _).trans (by rw [mantissa_ofMantissaAndAccuracy]; rfl)

theorem le_exponent_shiftToTargetExponent
    (m : Nat)
    (e : Int)
    (accuracy : Accuracy) :
    -1074 ≤ (shiftToTargetExponent Format.binary64 m e accuracy).2 :=
  le_add_dropped m e

theorem rounded_roundWithAccuracy
    (s : Sign)
    (m : Nat)
    (e : Int)
    (accuracy : Accuracy) :
    Rounded s (roundWithAccuracy Format.binary64 s m e accuracy) := by
  simp only [roundWithAccuracy]
  split
  · exact .zero
  · refine .finite ?_ (le_exponent_shiftToTargetExponent _ _ _)
    rw [mantissa_shiftToTargetExponent]
    exact div_dropped_lt _ _

/-- A multiple of the smallest double is not rounded to zero. -/
theorem roundWithAccuracy_ne_zero
    {m : Nat} {e : Int}
    (s s' : Sign)
    (hm : 0 < m)
    (he : -1074 ≤ e)
    (accuracy : Accuracy) :
    roundWithAccuracy Format.binary64 s m e accuracy ≠ .zero s' := by
  have hfirst : 0 < (shiftToTargetExponent Format.binary64 m e accuracy).1.roundedMantissa := by
    refine Nat.lt_of_lt_of_le ?_ (le_roundedMantissa _)
    rw [mantissa_shiftToTargetExponent]
    exact div_dropped_pos hm he
  simp only [roundWithAccuracy]
  rw [dif_neg]
  · exact UnpackedFloat.noConfusion
  · rw [mantissa_shiftToTargetExponent]
    exact Nat.ne_of_gt (div_dropped_pos hfirst (le_exponent_shiftToTargetExponent _ _ _))

theorem rounded_round
    (s : Sign)
    (m : Nat)
    (e : Int) :
    Rounded s (UnpackedFloat.round Format.binary64 s m e) :=
  rounded_roundWithAccuracy s _ _ _

theorem round_ne_zero
    {m : Nat} {e : Int}
    (s s' : Sign)
    (hm : 0 < m)
    (he : -1074 ≤ e) :
    UnpackedFloat.round Format.binary64 s m e ≠ .zero s' := by
  simp only [UnpackedFloat.round, decreaseExponent]
  apply roundWithAccuracy_ne_zero
  · rw [Nat.shiftLeft_eq]
    exact Nat.mul_pos hm (Nat.two_pow_pos _)
  · have htarget : -1074 ≤ Format.binary64.targetExponent (Float.Model.totalExponent m e) :=
      Int.le_max_right _ _
    omega

namespace Rounded

variable (h : Rounded s u)
include h

theorem fits : Fits u := by
  cases h with
  | zero => exact .zero s
  | finite hm he => exact .finite hm he

theorem rising
    (hs : s = .positive) :
    Rising u := by
  subst hs
  cases h with
  | zero => exact .zero
  | finite => exact .finite

end Rounded

end Rounding

variable {a b : UnpackedFloat}

section Sums

theorem fits_normalize
    (m e : Int)
    (s : Sign) :
    Fits (UnpackedFloat.normalize Format.binary64 m e s) := by
  rw [UnpackedFloat.normalize]
  split
  · exact (rounded_round _ _ _).fits
  · exact .zero s
  · exact (rounded_round _ _ _).fits

theorem fits_add
    (ha : Fits a)
    (hb : Fits b) :
    Fits (add Format.binary64 a b) := by
  rw [add.eq_def]
  split
  · exact .notANumber
  · exact .notANumber
  · split
    · exact .infinity _
    · exact .notANumber
  · exact .infinity _
  · exact .infinity _
  · split
    · exact .zero _
    · exact .zero _
  · exact hb
  · exact ha
  · exact fits_normalize _ _ _

/-- The sum of positive numbers is a positive multiple of the finer of their units, rounded. -/
theorem add_positive
    {m₁ m₂ : Nat}
    (e₁ e₂ : Int)
    (h₁ : 0 < m₁)
    (h₂ : 0 < m₂) :
    ∃ m, 0 < m ∧
      add Format.binary64 (.finite .positive m₁ e₁ h₁) (.finite .positive m₂ e₂ h₂) =
        UnpackedFloat.round Format.binary64 .positive m (min e₁ e₂) := by
  have hm : 0 < m₁ <<< (e₁ - min e₁ e₂).toNat := by
    rw [Nat.shiftLeft_eq]
    exact Nat.mul_pos h₁ (Nat.two_pow_pos _)
  have hsum : 0 < m₁ <<< (e₁ - min e₁ e₂).toNat + m₂ <<< (e₂ - min e₁ e₂).toNat :=
    Nat.add_pos_left hm _
  refine ⟨_, hsum, ?_⟩
  simp only [add, decreaseExponent, Sign.apply, ← Int.natCast_add]
  rw [UnpackedFloat.normalize, Int.compare_eq_gt.mpr (Int.natCast_pos.mpr hsum)]
  rfl

theorem rising_add
    (ha : Rising a)
    (hb : Nonneg b) :
    Rising (add Format.binary64 a b) := by
  cases ha with
  | notANumber => exact .notANumber
  | zero =>
      cases hb with
      | notANumber => exact .notANumber
      | zero s => cases s <;> exact .zero
      | finite => exact .finite
      | infinity => exact .infinity
  | @finite m₁ e₁ h₁ =>
      cases hb with
      | notANumber => exact .notANumber
      | zero => exact .finite
      | @finite m₂ e₂ h₂ =>
          obtain ⟨m, _, hadd⟩ := add_positive e₁ e₂ h₁ h₂
          rw [hadd]
          exact (rounded_round _ _ _).rising rfl
      | infinity => exact .infinity
  | infinity =>
      cases hb with
      | notANumber => exact .notANumber
      | _ => exact .infinity

/-- A zero that is added to such a sum does not change it. A negative zero would become a
positive one. -/
theorem add_zero_of_rising
    (h : Rising u) :
    add Format.binary64 u (.zero .positive) = u := by
  cases h <;> rfl

/-- Numbers that are not below zero and have the sum zero are zeros. -/
theorem zero_of_add
    (ha : Fits a)
    (hb : Fits b)
    (hna : Nonneg a)
    (hnb : Nonneg b)
    (hzero : add Format.binary64 a b = .zero s) :
    (∃ s, a = .zero s) ∧ ∃ s, b = .zero s := by
  cases hna with
  | notANumber => cases hzero
  | zero =>
      cases hnb with
      | zero => exact ⟨⟨_, rfl⟩, ⟨_, rfl⟩⟩
      | _ => cases hzero
  | @finite m₁ e₁ h₁ =>
      cases hnb with
      | @finite m₂ e₂ h₂ =>
          cases ha with
          | finite _ he₁ =>
              cases hb with
              | finite _ he₂ =>
                  obtain ⟨m, hm, hadd⟩ := add_positive e₁ e₂ h₁ h₂
                  rw [hadd] at hzero
                  exact absurd hzero (round_ne_zero _ _ hm (Int.le_min.mpr ⟨he₁, he₂⟩))
      | _ => cases hzero
  | infinity => cases hnb <;> cases hzero

theorem null_add
    (ha : Null a)
    (hb : Null b) :
    Null (add Format.binary64 a b) := by
  cases ha with
  | notANumber => exact .notANumber
  | zero s =>
      cases hb with
      | notANumber => exact .notANumber
      | zero s' =>
          rw [add]
          split
          · exact .zero _
          · exact .zero _

end Sums

section Products

theorem fits_mul : Fits (mul Format.binary64 a b) := by
  rw [mul.eq_def]
  split
  · exact .notANumber
  · exact .notANumber
  · exact .infinity _
  · exact .infinity _
  · exact .infinity _
  · exact .notANumber
  · exact .notANumber
  · exact .zero _
  · exact .zero _
  · exact .zero _
  · exact (rounded_roundWithAccuracy _ _ _ _).fits

theorem nonneg_mul
    (ha : Nonneg a)
    (hb : Nonneg b) :
    Nonneg (mul Format.binary64 a b) := by
  cases ha with
  | notANumber => exact .notANumber
  | zero =>
      cases hb with
      | notANumber => exact .notANumber
      | infinity => exact .notANumber
      | _ => exact .zero _
  | finite =>
      cases hb with
      | notANumber => exact .notANumber
      | zero => exact .zero _
      | finite => exact ((rounded_roundWithAccuracy _ _ _ _).rising rfl).nonneg
      | infinity => exact .infinity
  | infinity =>
      cases hb with
      | notANumber => exact .notANumber
      | zero => exact .notANumber
      | _ => exact .infinity

theorem null_mul
    (a : UnpackedFloat)
    (s : Sign) :
    Null (mul Format.binary64 a (.zero s)) := by
  cases a with
  | notANumber => exact .notANumber
  | infinity => exact .notANumber
  | _ => exact .zero _

end Products

section Quotients

theorem not_finite_div
    (ha : a.isFinite = false) :
    (div Format.binary64 a b).isFinite = false := by
  cases a with
  | notANumber => rfl
  | infinity => cases b <;> rfl
  | zero => cases ha
  | finite => cases ha

theorem div_infinity
    (ha : Rising a)
    (hfinite : a.isFinite = true) :
    div Format.binary64 a (.infinity .positive) = .zero .positive := by
  cases ha with
  | notANumber => cases hfinite
  | zero => rfl
  | finite => rfl
  | infinity => cases hfinite

end Quotients

section Operations

variable {x y : Float}

theorem fits
    (x : Float) :
    Fits x.toModel.unpack :=
  fits_unpack _

theorem stored_sum
    (x y : Float) :
    Stored (add Format.binary64 x.toModel.unpack y.toModel.unpack) (x + y).toModel.unpack :=
  stored_pack (fits_add (fits x) (fits y))

theorem stored_product
    (x y : Float) :
    Stored (mul Format.binary64 x.toModel.unpack y.toModel.unpack) (x * y).toModel.unpack :=
  stored_pack fits_mul

/-- A double that is unpacked and stored again is the same. -/
theorem ofModel_pack_unpack
    (x : Float) :
    Float.ofModel (Float.Model.pack x.toModel.unpack) = x := by
  obtain ⟨bits, hvalid⟩ := x
  have hbits := pack_unpack_of_valid hvalid
  rw [Float.Model.unpack, Float.Model.pack]
  simp only [hbits, UInt64.ofBitVec_toBitVec]

theorem beq_zero_iff :
    (x == 0.0) = true ↔ ∃ s, x.toModel.unpack = .zero s := by
  change (x.toModel.unpack.compare (.zero .positive) == some .eq) = true ↔ _
  cases x.toModel.unpack with
  | notANumber => simp [UnpackedFloat.compare]
  | infinity s => cases s <;> simp [UnpackedFloat.compare]
  | zero s => simp [UnpackedFloat.compare]
  | finite s => cases s <;> simp [UnpackedFloat.compare]

theorem nonneg_of_not_lt
    (h : ¬ x < 0.0) :
    Nonneg x.toModel.unpack := by
  have hlt : ¬ x.toModel.unpack.lt (.zero .positive) = true :=
    fun hlt => h (decide_eq_true hlt)
  cases hx : x.toModel.unpack with
  | notANumber => exact .notANumber
  | infinity s =>
      cases s with
      | positive => exact .infinity
      | negative => exact absurd (by rw [hx]; rfl) hlt
  | zero s => exact .zero s
  | finite s =>
      cases s with
      | positive => exact .finite
      | negative => exact absurd (by rw [hx]; rfl) hlt

theorem rising_zero : Rising (0.0 : Float).toModel.unpack :=
  .zero

theorem null_zero : Null (0.0 : Float).toModel.unpack :=
  .zero .positive

theorem Null.isInf
    (h : Null u) :
    u.isInf = false := by
  cases h <;> rfl

theorem rising_sum
    (hx : Rising x.toModel.unpack)
    (hy : Nonneg y.toModel.unpack) :
    Rising (x + y).toModel.unpack :=
  (stored_sum x y).rising (rising_add hx hy)

theorem sum_zero
    (hx : Rising x.toModel.unpack) :
    x + 0.0 = x := by
  change Float.ofModel (Float.Model.pack
    (add Format.binary64 x.toModel.unpack (.zero .positive))) = x
  rw [add_zero_of_rising hx, ofModel_pack_unpack]

theorem product_zero : (0.0 : Float) * 0.0 = 0.0 := by
  decide +kernel

theorem null_sum
    (hx : Null x.toModel.unpack)
    (hy : Null y.toModel.unpack) :
    Null (x + y).toModel.unpack :=
  (stored_sum x y).null (null_add hx hy)

/-- Only zeros have the sum zero. -/
theorem beq_zero_of_sum
    (hx : Nonneg x.toModel.unpack)
    (hy : Nonneg y.toModel.unpack)
    (hzero : (x + y == 0.0) = true) :
    (x == 0.0) = true ∧ (y == 0.0) = true := by
  obtain ⟨s, hs⟩ := beq_zero_iff.mp hzero
  rw [beq_zero_iff, beq_zero_iff]
  exact zero_of_add (fits x) (fits y) hx hy ((stored_sum x y).zero_of_zero hs)

theorem nonneg_product
    (hx : Nonneg x.toModel.unpack)
    (hy : Nonneg y.toModel.unpack) :
    Nonneg (x * y).toModel.unpack :=
  (stored_product x y).nonneg (nonneg_mul hx hy)

theorem null_product
    (x : Float)
    (hy : (y == 0.0) = true) :
    Null (x * y).toModel.unpack := by
  obtain ⟨s, hs⟩ := beq_zero_iff.mp hy
  apply (stored_product x y).null
  rw [hs]
  exact null_mul _ s

theorem null_of_beq_zero
    (hx : (x == 0.0) = true) :
    Null x.toModel.unpack := by
  obtain ⟨s, hs⟩ := beq_zero_iff.mp hx
  rw [hs]
  exact .zero s

theorem isInf_of_null
    (hx : Null x.toModel.unpack) :
    x.isInf = false := by
  rw [Float.isInf, Float.Model.isInf]
  exact hx.isInf

/-- An infinity and what is not a number stay so under every divisor. -/
theorem isFinite_quotient
    (y : Float)
    (hx : x.isFinite = false) :
    (x / y).isFinite = false := by
  have hdiv := not_finite_div (b := y.toModel.unpack) hx
  exact (stored_pack (fits_of_not_finite hdiv)).not_finite hdiv

/-- A number divided by an infinity is zero. -/
theorem quotient_infinity
    (hx : Rising x.toModel.unpack)
    (hfinite : x.isFinite = true)
    (hy : Rising y.toModel.unpack)
    (hinf : y.isInf = true) :
    x / y = 0.0 := by
  rw [Float.isInf, Float.Model.isInf] at hinf
  change Float.ofModel (Float.Model.pack
    (div Format.binary64 x.toModel.unpack y.toModel.unpack)) = 0.0
  cases hunpack : y.toModel.unpack with
  | infinity s =>
      rw [hunpack] at hy
      cases hy
      rw [div_infinity hx hfinite]
      rfl
  | _ =>
      rw [hunpack] at hinf
      cases hinf

end Operations

end Doubles
end LiveForms
