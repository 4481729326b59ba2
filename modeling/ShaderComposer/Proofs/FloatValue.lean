import ShaderComposer.Proofs.FloatBits

/-!
# The numbers that floats stand for

The bits of a finite float stand for a rational number: with the least exponent the
fraction is taken as it is, with every other one there is a hidden one in front of it.
Taking a float apart into a whole number of units keeps this number.
-/

namespace ShaderComposer

namespace Binary

/-- The number that the bits of a finite single float stand for. -/
def singleValue (bits : Nat) : ℚ :=
  let fraction : ℚ := (bits % 2 ^ 23 : Nat) / 2 ^ 23
  let exponent : Nat := bits / 2 ^ 23 % 2 ^ 8
  (-1) ^ (bits / 2 ^ 31) *
    if exponent = 0 then fraction * 2 ^ (-126 : ℤ)
    else (1 + fraction) * 2 ^ ((exponent : ℤ) - 127)

namespace Exact

def sign (exact : Exact) : ℚ :=
  if exact.negative then -1 else 1

def magnitude (exact : Exact) : ℚ :=
  exact.significand * 2 ^ exact.exponent

def value (exact : Exact) : ℚ :=
  exact.sign * exact.magnitude

theorem abs_sign (exact : Exact) : |exact.sign| = 1 := by
  unfold sign
  split <;> norm_num

theorem magnitude_nonneg (exact : Exact) : 0 ≤ exact.magnitude := by
  unfold magnitude
  positivity

theorem abs_value (exact : Exact) : |exact.value| = exact.magnitude := by
  rw [value, abs_mul, abs_sign, one_mul, abs_of_nonneg exact.magnitude_nonneg]

end Exact

theorem zpow_eq_div (exponent : ℤ) :
    (2 : ℚ) ^ exponent = 2 ^ exponent.toNat / 2 ^ (-exponent).toNat := by
  conv_lhs => rw [← Int.toNat_sub_toNat_neg exponent]
  rw [zpow_sub₀ two_ne_zero, zpow_natCast, zpow_natCast]

/-- The unit of a significand of 24 bits lies 23 places below its leading bit. -/
theorem zpow_unit (exponent : ℤ) : (2 : ℚ) ^ (exponent - 23) = 2 ^ exponent / 2 ^ 23 := by
  rw [zpow_sub₀ two_ne_zero]
  rfl

theorem sign_eq_neg_one_pow {bits : Nat} (hbits : bits < 2 ^ 32) :
    (if decide (2147483648 ≤ bits) = true then -1 else 1 : ℚ) = (-1) ^ (bits / 2 ^ 31) := by
  by_cases hnegative : 2147483648 ≤ bits
  · have hone : bits / 2 ^ 31 = 1 := by omega
    rw [hone, if_pos (decide_eq_true hnegative), pow_one]
  · have hzero : bits / 2 ^ 31 = 0 := by omega
    rw [hzero, if_neg (by simpa using hnegative), pow_zero]

theorem exists_decode_single
    {bits : Nat} (hbits : bits < 2 ^ 32) (hfinite : bits / 2 ^ 23 % 2 ^ 8 ≠ 255) :
    ∃ exact, decode .single bits = .finite exact ∧ exact.value = singleValue bits := by
  have hsign : Format.single.signBit = 2147483648 := rfl
  have hunits : Nat.pow 2 Format.single.storedBits = 8388608 := rfl
  have hinfinity : Format.single.infinityBits = 2139095040 := rfl
  have hleast : (Format.single.leastUnit : Int) = 149 := rfl
  have hstored : bits % 2147483648 % 8388608 = bits % 2 ^ 23 := by omega
  have hbiased : bits % 2147483648 / 8388608 = bits / 2 ^ 23 % 2 ^ 8 := by omega
  have hbelow : ¬ 2139095040 < bits % 2147483648 := by omega
  have hnumber : ¬ bits % 2147483648 = 2139095040 := by omega
  unfold decode
  simp only [hsign, hunits, hinfinity, hleast, hstored, hbiased, if_neg hbelow, if_neg hnumber]
  by_cases hleastExponent : bits / 2 ^ 23 % 2 ^ 8 = 0
  · rw [if_pos hleastExponent]
    refine ⟨_, rfl, ?_⟩
    have hexponent : (-149 : ℤ) = -126 - 23 := by omega
    simp only [Exact.value, Exact.sign, Exact.magnitude, singleValue, if_pos hleastExponent,
      sign_eq_neg_one_pow hbits, hexponent, zpow_unit]
    ring
  · rw [if_neg hleastExponent]
    refine ⟨_, rfl, ?_⟩
    have hexponent (biased : ℤ) : biased - 1 - 149 = biased - 127 - 23 := by omega
    simp only [Exact.value, Exact.sign, Exact.magnitude, singleValue, if_neg hleastExponent,
      sign_eq_neg_one_pow hbits, hexponent, zpow_unit]
    push_cast
    ring

theorem exists_ofFloat32_eq_finite {x : Float32} (hx : x.isFinite = true) :
    ∃ exact, ofFloat32 x = .finite exact ∧ exact.value = singleValue x.toBits.toNat :=
  exists_decode_single x.toBits.toNat_lt (isFinite_iff.mp hx)

end Binary

end ShaderComposer
