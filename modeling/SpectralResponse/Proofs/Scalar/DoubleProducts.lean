import SpectralResponse.Scalar.Double
import Mathlib

/-!
# Doubles times one

A product of doubles is rounded, but one times a double is that double: the product of the mantissas has the
digits of the one factor with zeros after them, so rounding moves them back to where they were and drops nothing.
It takes three steps: a double is what it is packed from (`pack_unpack`), what is unpacked is in normal form
(`normal_of_unpack`), and a mantissa in normal form comes back out of rounding (`Normal.round`).

Edges that are in keV already are multiplied by one when a grid is made of them, so this is why they stay.
-/

namespace SpectralResponse.Double

open Float.Model (UnpackedFloat Format totalExponent)
open Float.Model.UnpackedFloat

/-! ### Packing -/

theorem toNat_one_append (m : BitVec 52) : (1#1 ++ m).toNat = 2 ^ 52 + m.toNat := by
  rw [BitVec.toNat_append, ← Nat.shiftLeft_add_eq_or_of_lt m.isLt]
  rfl

variable {b : BitVec Format.binary64.numBits}

/-- Sign, exponent and mantissa are all there is in a double. -/
theorem packComponents_unpack (b : BitVec Format.binary64.numBits) :
    packComponents .binary64 (Sign.ofBitVec (unpackSign b)) (unpackExponent b) (unpackMantissa b) = b := by
  have hsign : (Sign.ofBitVec (unpackSign b)).toBitVec = unpackSign b := by
    generalize unpackSign b = s
    revert s
    decide
  rw [packComponents, hsign, unpackSign, unpackExponent, unpackMantissa]
  ext i hi
  grind

/-- A double is packed back into the same bits. -/
theorem pack_unpack (hvalid : Format.binary64.Valid b) :
    UnpackedFloat.pack .binary64 (UnpackedFloat.unpack .binary64 b) = b := by
  have hsame := packComponents_unpack b
  have hlt : (unpackMantissa b).toNat < 2 ^ 52 := (unpackMantissa b).isLt
  simp only [UnpackedFloat.unpack]
  split
  · rename_i htop
    split
    · rename_i hzero
      rw [htop, hzero] at hsame
      exact hsame
    · rename_i hne
      exact (hvalid.eq_packedNaN htop hne).symm
  · split
    · rename_i hbottom
      rw [hbottom] at hsame ⊢
      split
      · rename_i hzero
        rw [hzero] at hsame
        exact hsame
      · rename_i hne
        have hlog : (unpackMantissa b).toNat.log2 < 52 :=
          (Nat.log2_lt fun h => hne (BitVec.eq_of_toNat_eq h)).2 hlt
        simp only [UnpackedFloat.pack]
        have hshort : (unpackMantissa b).toNat.log2 + 1 ≠ Format.binary64.mantissaBits := by
          show _ ≠ 53
          omega
        rw [if_neg (by decide), if_neg hshort, BitVec.ofNat_toNat, BitVec.setWidth_eq]
        exact hsame
    · rename_i htop _
      have hone : (1#1 ++ unpackMantissa b).toNat = 2 ^ 52 + (unpackMantissa b).toNat := toNat_one_append _
      have hlog : (1#1 ++ unpackMantissa b).toNat.log2 = 52 := by
        rw [Nat.log2_eq_iff (by omega)]
        omega
      have hmantissa : BitVec.ofNat 52 (1#1 ++ unpackMantissa b).toNat = unpackMantissa b := by
        refine BitVec.eq_of_toNat_eq ?_
        rw [BitVec.toNat_ofNat, hone, Nat.add_mod_left, Nat.mod_eq_of_lt hlt]
      have hexponent : (((unpackExponent b).toNat : Int) - (Format.binary64.exponentBias + (52 : Nat)) +
          Format.binary64.exponentBias + (52 : Nat)).toNat = (unpackExponent b).toNat := by omega
      have hfits : ¬ 2 ^ 11 ≤ (unpackExponent b).toNat + 1 := by
        intro h
        refine htop (BitVec.eq_of_toNat_eq ?_)
        show _ = 2047
        have hlt : (unpackExponent b).toNat < 2 ^ 11 := (unpackExponent b).isLt
        omega
      simp only [UnpackedFloat.pack]
      rw [hexponent, if_neg hfits, if_pos (by rw [hlog]; rfl), hmantissa, BitVec.ofNat_toNat, BitVec.setWidth_eq]
      exact hsame

/-- A double is what is packed of it. -/
theorem pack_unpack_toModel (x : Float) : (⟨Float.Model.pack x.toModel.unpack⟩ : Float) = x := by
  obtain ⟨⟨⟨b⟩, hvalid⟩⟩ := x
  have hbits : UnpackedFloat.pack .binary64 (UnpackedFloat.unpack .binary64 b) = b := pack_unpack hvalid
  simp only [Float.Model.pack, Float.Model.unpack, hbits]

/-! ### Rounding -/

/-- A mantissa has all its bits, unless the exponent is the least there is. -/
structure Normal (m : Nat) (e : Int) : Prop where
  bounded : m < 2 ^ 53
  least : -1074 ≤ e
  full : 2 ^ 52 ≤ m ∨ e = -1074

theorem normal_of_unpack {s : Sign} {m : Nat} {e : Int} {hm : 0 < m}
    (h : UnpackedFloat.unpack .binary64 b = .finite s m e hm) : Normal m e := by
  have hlt : (unpackMantissa b).toNat < 2 ^ 52 := (unpackMantissa b).isLt
  have hbias : Format.binary64.exponentBias = 1023 := rfl
  simp only [UnpackedFloat.unpack] at h
  split at h
  · split at h <;> cases h
  · split at h
    · rename_i hbottom
      split at h
      · cases h
      · cases h
        rw [hbottom, hbias]
        exact ⟨by omega, by decide, .inr (by decide)⟩
    · rename_i hbottom
      cases h
      have hone : (1#1 ++ unpackMantissa b).toNat = 2 ^ 52 + (unpackMantissa b).toNat := toNat_one_append _
      have hpos : (unpackExponent b).toNat ≠ 0 := fun h => hbottom (BitVec.eq_of_toNat_eq h)
      rw [hbias]
      exact ⟨by omega, by omega, .inl (by omega)⟩

/-- Zeros at the end are shifted out. -/
theorem shiftRight_mul (m k : Nat) :
    (⟨m * 2 ^ k, false, false⟩ : ExtendedMantissa) >>> k = ⟨m, false, false⟩ := by
  show Nat.repeat ExtendedMantissa.shiftRightOne k _ = _
  induction k generalizing m with
  | zero => rw [Nat.repeat, Nat.pow_zero, Nat.mul_one]
  | succ k ih =>
    have heven : (m * 2 % 2 != 0) = false := by simp
    rw [Nat.repeat, Nat.pow_succ', ← Nat.mul_assoc, ih, ExtendedMantissa.shiftRightOne, heven,
      Nat.mul_div_cancel m Nat.two_pos]
    rfl

theorem log2_mul_two_pow {m : Nat} (hm : m ≠ 0) (k : Nat) : (m * 2 ^ k).log2 = m.log2 + k := by
  have hpos : 0 < 2 ^ k := Nat.two_pow_pos k
  rw [Nat.log2_eq_iff (Nat.mul_ne_zero hm hpos.ne'), Nat.pow_add, Nat.add_right_comm, Nat.pow_add]
  exact ⟨Nat.mul_le_mul_right _ (Nat.log2_self_le hm), Nat.mul_lt_mul_of_pos_right Nat.lt_log2_self hpos⟩

namespace Normal

variable {m : Nat} {e : Int}

/-- A mantissa in normal form with zeros after it is shifted back to its place. -/
theorem shift (h : Normal m e) (hm : 0 < m) (k : Nat) :
    shiftToTargetExponent .binary64 (m * 2 ^ k) (e - k) .exact = (⟨m, false, false⟩, e) := by
  have htarget : Format.binary64.targetExponent (totalExponent (m * 2 ^ k) (e - k)) = e := by
    have hlt := (Nat.log2_lt hm.ne').2 h.bounded
    have hfull := h.full.imp_left (Nat.le_log2 hm.ne').2
    have hleast := h.least
    rw [totalExponent, log2_mul_two_pow hm.ne']
    show max (_ - (53 : Int)) (-1074) = e
    omega
  have hshift : (e - (e - k)).toNat = k := by omega
  rw [shiftToTargetExponent, shiftToExponent, htarget, hshift, Int.sub_add_cancel]
  exact congrArg (·, e) (shiftRight_mul m k)

/-- A mantissa in normal form with zeros after it is rounded to itself. -/
theorem round (h : Normal m e) (hm : 0 < m) (s : Sign) (k : Nat) :
    roundWithAccuracy .binary64 s (m * 2 ^ k) (e - k) .exact = .finite s m e hm := by
  have hagain : shiftToTargetExponent .binary64 m e .exact = (⟨m, false, false⟩, e) := by
    simpa using h.shift hm 0
  have hrounded : ExtendedMantissa.roundedMantissa ⟨m, false, false⟩ = m := rfl
  simp only [roundWithAccuracy, h.shift hm k, hrounded, hagain, dif_neg hm.ne']

end Normal

/-! ### Products -/

theorem mul_one_unpacked (b : BitVec Format.binary64.numBits) :
    UnpackedFloat.mul .binary64 (UnpackedFloat.unpack .binary64 b) (.finite .positive (2 ^ 52) (-52) (by decide)) =
      UnpackedFloat.unpack .binary64 b := by
  have hsign (s : Sign) : s * .positive = s := by cases s <;> rfl
  cases hunpack : UnpackedFloat.unpack .binary64 b with
  | notANumber => rfl
  | infinity s => exact congrArg UnpackedFloat.infinity (hsign s)
  | zero s => exact congrArg UnpackedFloat.zero (hsign s)
  | finite s m e hm =>
    show roundWithAccuracy .binary64 (s * .positive) (m * 2 ^ 52) (e - (52 : Nat)) .exact = _
    rw [hsign, (normal_of_unpack hunpack).round]

/-- A double times one is that double, whatever it is. -/
theorem mul_one (x : Float) : x * 1.0 = x := by
  have hone : (1.0 : Float).toModel.unpack = .finite .positive (2 ^ 52) (-52) (by decide) := rfl
  show (⟨Float.Model.pack (UnpackedFloat.mul .binary64 x.toModel.unpack (1.0 : Float).toModel.unpack)⟩ : Float) = x
  rw [hone, Float.Model.unpack, mul_one_unpacked]
  exact pack_unpack_toModel x

/-- One is the identity of products of doubles on the right. -/
instance lawfulRightIdentity_mul : Std.LawfulRightIdentity (α := Float) (· * ·) (1 : Float) where
  right_id := mul_one

end SpectralResponse.Double
