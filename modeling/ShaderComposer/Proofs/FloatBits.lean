import Mathlib
import ShaderComposer.Decimal.Binary

/-!
# The bits of single floats

A float that is made from bits and taken apart again has the same bits, and the negated
float has the sign bit besides, as long as the bits are those of a finite number.  Both
are read off the three fields: the bits are packed from them, and negation changes the
sign alone.  Whether a float is a finite number shows in its exponent.
-/

namespace ShaderComposer

open Float.Model (Format UnpackedFloat)
open Float.Model.UnpackedFloat

namespace SingleBits

theorem toNat_packComponents (sign : Sign) (exponent : BitVec 8) (mantissa : BitVec 23) :
    (packComponents Format.binary32 sign exponent mantissa).toNat =
      (sign.toBitVec.toNat * 256 + exponent.toNat) * 8388608 + mantissa.toNat := by
  change (sign.toBitVec ++ exponent ++ mantissa).toNat = _
  rw [BitVec.toNat_append, BitVec.toNat_append, ← Nat.shiftLeft_add_eq_or_of_lt mantissa.isLt,
    ← Nat.shiftLeft_add_eq_or_of_lt exponent.isLt, Nat.shiftLeft_eq, Nat.shiftLeft_eq]

/-- Below the bits of infinity not all bits of the exponent are set. -/
theorem not_isNaNBits {bits : BitVec 32} (hfinite : bits.toNat % 2147483648 < 2139095040) :
    ¬ @isNaNBits Format.binary32 bits = true := by
  intro hnan
  have hones : @unpackExponent Format.binary32 bits = -1#8 := (of_decide_eq_true hnan).1
  have hfields :=
    congrArg BitVec.toNat
      (@packComponents_unpackSign_unpackExponent_unpackMantissa Format.binary32 bits)
  rw [toNat_packComponents, hones] at hfields
  have hall : (-1#8).toNat = 255 := rfl
  rw [hall] at hfields
  omega

/-- Negation changes the sign of what is packed and nothing else. -/
theorem exists_pack_neg {value : UnpackedFloat} (hvalue : value ≠ .notANumber) :
    ∃ sign exponent mantissa,
      pack Format.binary32 value = packComponents Format.binary32 sign exponent mantissa ∧
      pack Format.binary32 value.neg =
        packComponents Format.binary32 (-sign) exponent mantissa := by
  cases value with
  | notANumber =>
      contradiction
  | infinity sign =>
      exact ⟨sign, -1#8, 0#23, rfl, rfl⟩
  | zero sign =>
      exact ⟨sign, 0#8, 0#23, rfl, rfl⟩
  | finite sign mantissa exponent hpos =>
      simp only [UnpackedFloat.neg, pack]
      split
      · exact ⟨sign, -1#8, 0#23, rfl, rfl⟩
      · split
        · exact ⟨sign, _, _, rfl, rfl⟩
        · exact ⟨sign, _, _, rfl, rfl⟩

theorem toNat_unpackExponent (bits : BitVec 32) :
    (@unpackExponent Format.binary32 bits).toNat = bits.toNat / 8388608 % 256 := by
  simp [unpackExponent, BitVec.extractLsb, BitVec.extractLsb', Nat.shiftRight_eq_div_pow]

theorem isFinite_unpack_iff (bits : BitVec 32) :
    (UnpackedFloat.unpack Format.binary32 bits).isFinite = true ↔
      @unpackExponent Format.binary32 bits ≠ -1#8 := by
  unfold UnpackedFloat.unpack
  dsimp only
  by_cases hones : @unpackExponent Format.binary32 bits = -1#8
  · rw [if_pos hones]
    split <;> exact iff_of_false Bool.false_ne_true (not_not.mpr hones)
  · rw [if_neg hones]
    split
    · split <;> exact iff_of_true rfl hones
    · exact iff_of_true rfl hones

end SingleBits

open SingleBits in
/-- All bits of the exponent are set in a float that is no finite number, and in no other. -/
theorem isFinite_iff {x : Float32} :
    x.isFinite = true ↔ x.toBits.toNat / 8388608 % 256 ≠ 255 := by
  have hall : (-1#8).toNat = 255 := rfl
  have hexponent := toNat_unpackExponent x.toBits.toBitVec
  change (UnpackedFloat.unpack Format.binary32 x.toBits.toBitVec).isFinite = true ↔ _
  rw [isFinite_unpack_iff, Ne, ← BitVec.toNat_inj, hall, hexponent]
  rfl

theorem Binary.ofFloat32_ne_finite {x : Float32} (hx : x.isFinite = false) (exact : Exact) :
    ofFloat32 x ≠ .finite exact := by
  have hexponent : x.toBits.toNat / 8388608 % 256 = 255 :=
    not_ne_iff.mp fun hother => Bool.eq_false_iff.mp hx (isFinite_iff.mpr hother)
  have hmagnitude : Format.single.infinityBits ≤ x.toBits.toNat % Format.single.signBit := by
    change 2139095040 ≤ x.toBits.toNat % 2147483648
    omega
  unfold ofFloat32 decode
  dsimp only
  by_cases hinfinite : x.toBits.toNat % Format.single.signBit = Format.single.infinityBits
  · rw [if_neg (Nat.not_lt.mpr hinfinite.le), if_pos hinfinite]
    exact Datum.noConfusion
  · rw [if_pos (Nat.lt_of_le_of_ne hmagnitude (Ne.symm hinfinite))]
    exact Datum.noConfusion

open SingleBits in
theorem toBits_ofBits {bits : UInt32} (hfinite : bits.toNat % 2147483648 < 2139095040) :
    (Float32.ofBits bits).toBits = bits := by
  have hpacked :
      UnpackedFloat.pack Format.binary32
          (UnpackedFloat.unpack Format.binary32 bits.toBitVec) = bits.toBitVec := by
    rw [pack_unpack, if_neg (not_isNaNBits hfinite)]
  exact congrArg UInt32.ofBitVec hpacked

open SingleBits in
theorem toNat_toBits_neg {x : Float32} (hfinite : x.toBits.toNat < 2139095040) :
    (-x).toBits.toNat = x.toBits.toNat + 2147483648 := by
  have hvalid : Format.binary32.Valid x.toBits.toBitVec := x.toModel.valid
  have hnumber : UnpackedFloat.unpack Format.binary32 x.toBits.toBitVec ≠ .notANumber := by
    intro hnan
    rw [unpack_eq_notANumber_iff_of_valid hvalid] at hnan
    have hbits : x.toBits.toNat = 2143289344 := congrArg BitVec.toNat hnan
    omega
  obtain ⟨sign, exponent, mantissa, hpack, hneg⟩ := exists_pack_neg hnumber
  rw [pack_unpack_of_valid hvalid] at hpack
  have hbits : x.toBits.toNat = _ := congrArg BitVec.toNat hpack
  have hnegated : (-x).toBits.toNat = _ := congrArg BitVec.toNat hneg
  rw [toNat_packComponents] at hbits hnegated
  cases sign with
  | positive =>
      have hclear : Sign.positive.toBitVec.toNat = 0 := rfl
      have hset : (-Sign.positive).toBitVec.toNat = 1 := rfl
      rw [hnegated, hbits, hclear, hset]
      omega
  | negative =>
      have hset : Sign.negative.toBitVec.toNat = 1 := rfl
      rw [hbits, hset] at hfinite
      exact absurd hfinite (by omega)

end ShaderComposer
