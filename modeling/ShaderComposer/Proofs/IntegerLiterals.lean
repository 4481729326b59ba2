import ShaderComposer.Decimal.Fixed
import ShaderComposer.Proofs.FloatBits

/-!
# Integers as floats and as literals

A single float holds every integer of at most 24 bits: scaled by a power of two it fills
the significand, and the power goes into the exponent.  Read back from the bits such a
float is a whole number of units of which one goes evenly into one, so rounding it to
decimal places has nothing to round, and its literal is the integer with one zero behind
the point.
-/

namespace ShaderComposer

namespace Binary

/-- An exact value is an integer: a whole number of units, one of which goes into one. -/
structure Exact.IsInteger (exact : Exact) (value : Int) : Prop where
  exponent : exact.exponent ≤ 0
  significand : exact.significand = value.natAbs * 2 ^ (-exact.exponent).toNat
  negative : exact.negative = decide (value < 0)

theorem log2_lt_of_lt {n : Nat} (hpos : n ≠ 0) (hn : n < 16777216) : n.log2 < 24 :=
  (Nat.log2_lt hpos).mpr hn

/-- A natural number of at most 24 bits fills the significand when it is scaled. -/
theorem scaled_bounds {n : Nat} (hpos : n ≠ 0) (hn : n < 16777216) :
    8388608 ≤ n * 2 ^ (23 - n.log2) ∧ n * 2 ^ (23 - n.log2) < 16777216 := by
  have hlog := log2_lt_of_lt hpos hn
  have hlow := Nat.mul_le_mul_right (2 ^ (23 - n.log2)) (Nat.log2_self_le hpos)
  have hhigh :=
    Nat.mul_lt_mul_of_pos_right (Nat.lt_log2_self (n := n)) (Nat.two_pow_pos (23 - n.log2))
  rw [← Nat.pow_add] at hlow hhigh
  have hfull : n.log2 + (23 - n.log2) = 23 := by omega
  have hnext : n.log2 + 1 + (23 - n.log2) = 24 := by omega
  rw [hfull] at hlow
  rw [hnext] at hhigh
  exact ⟨hlow, hhigh⟩

theorem encode_single_nat {n : Nat} (hpos : n ≠ 0) (hn : n < 16777216) :
    encode .single n 0 =
      (n.log2 + 127) * 8388608 + (n * 2 ^ (23 - n.log2) - 8388608) := by
  have hlog := log2_lt_of_lt hpos hn
  obtain ⟨hlow, hhigh⟩ := scaled_bounds hpos hn
  have hunit :
      max ((0 : Int) + (n.log2 + 1 : Nat) - Format.single.precision)
        (-(Format.single.leastUnit : Int)) = (n.log2 : Int) - 23 := by
    change max ((0 : Int) + (n.log2 + 1 : Nat) - 24) (-149) = _
    omega
  have hup : ((0 : Int) - ((n.log2 : Int) - 23)).toNat = 23 - n.log2 := by omega
  have hdown : ((n.log2 : Int) - 23 - 0).toNat = 0 := by omega
  have hbiased :
      ((n.log2 : Int) - 23 + (Format.single.leastUnit : Int) + 1).toNat = n.log2 + 127 := by
    change ((n.log2 : Int) - 23 + 149 + 1).toNat = _
    omega
  have hstored : Nat.pow 2 Format.single.storedBits = 8388608 := rfl
  have hinfinity : Format.single.infinityBits = 2139095040 := rfl
  unfold encode
  rw [if_neg hpos]
  simp only [hunit, hup, hdown, hbiased, hstored, hinfinity, Nat.pow_eq, Nat.pow_zero,
    Decimal.roundDiv_one]
  generalize n * 2 ^ (23 - n.log2) = units at *
  have hfilled : ¬ units < 8388608 := by omega
  have hbound : (n.log2 + 127) * 8388608 + (units - 8388608) ≤ 2139095040 := by omega
  rw [if_neg hfilled, Nat.min_eq_left hbound]

/-- What the fields of a positive normal number stand for. -/
theorem decode_single_normal
    {biased stored : Nat} (hpos : 0 < biased) (hbiased : biased < 255)
    (hstored : stored < 8388608) :
    ∃ narrow,
      decode .single (biased * 8388608 + stored) =
        .finite ⟨false, 8388608 + stored, (biased : Int) - 150, narrow⟩ := by
  have hmagnitude : (biased * 8388608 + stored) % 2147483648 = biased * 8388608 + stored := by
    omega
  have hlow : (biased * 8388608 + stored) % 8388608 = stored := by omega
  have hhigh : (biased * 8388608 + stored) / 8388608 = biased := by omega
  have hsign : Format.single.signBit = 2147483648 := rfl
  have hunits : Nat.pow 2 Format.single.storedBits = 8388608 := rfl
  have hinfinity : Format.single.infinityBits = 2139095040 := rfl
  have hleast : (Format.single.leastUnit : Int) = 149 := rfl
  have hpositive : ¬ 2147483648 ≤ biased * 8388608 + stored := by omega
  have hbelow : ¬ 2139095040 ≤ biased * 8388608 + stored := by omega
  have hexponent : (biased : Int) - 1 - 149 = biased - 150 := by omega
  refine ⟨stored = 0 && 1 < biased, ?_⟩
  unfold decode
  simp only [hsign, hunits, hinfinity, hleast, hmagnitude, hlow, hhigh, hexponent, hpositive]
  rw [if_neg (by omega), if_neg (by omega), if_neg (by omega)]
  rfl

theorem decode_single_nat {n : Nat} (hpos : n ≠ 0) (hn : n < 16777216) :
    ∃ narrow,
      decode .single (encode .single n 0) =
        .finite ⟨false, n * 2 ^ (23 - n.log2), (n.log2 : Int) - 23, narrow⟩ := by
  have hlog := log2_lt_of_lt hpos hn
  obtain ⟨hlow, hhigh⟩ := scaled_bounds hpos hn
  rw [encode_single_nat hpos hn]
  generalize n * 2 ^ (23 - n.log2) = units at *
  have hbiased : 0 < n.log2 + 127 ∧ n.log2 + 127 < 255 := by omega
  have hstored : units - 8388608 < 8388608 := by omega
  obtain ⟨narrow, hdecode⟩ := decode_single_normal hbiased.1 hbiased.2 hstored
  have hunits : 8388608 + (units - 8388608) = units := by omega
  have hexponent : ((n.log2 + 127 : Nat) : Int) - 150 = n.log2 - 23 := by omega
  rw [hunits, hexponent] at hdecode
  exact ⟨narrow, hdecode⟩

/-- Setting the sign bit of a finite number changes nothing but its sign. -/
theorem decode_add_signBit
    {format : Format} {bits : Nat} (hbits : bits < format.signBit) {exact : Exact}
    (hdecode : decode format bits = .finite exact) :
    decode format (bits + format.signBit) = .finite { exact with negative := true } := by
  have hmagnitude : bits % format.signBit = bits := Nat.mod_eq_of_lt hbits
  have hnegative : decide (format.signBit ≤ bits + format.signBit) = true := by
    simp
  unfold decode at hdecode ⊢
  simp only [Nat.add_mod_right, hmagnitude, hnegative] at hdecode ⊢
  split at hdecode
  · contradiction
  · next hnumber =>
    rw [if_neg hnumber]
    split at hdecode
    · contradiction
    · next hfinite =>
      rw [if_neg hfinite]
      split at hdecode
      · next hsubnormal =>
        rw [if_pos hsubnormal, ← Datum.finite.inj hdecode]
      · next hnormal =>
        rw [if_neg hnormal, ← Datum.finite.inj hdecode]

theorem encode_single_nat_lt {n : Nat} (hn : n < 16777216) : encode .single n 0 < 2139095040 := by
  by_cases hpos : n = 0
  · subst hpos
    decide
  · have hlog := log2_lt_of_lt hpos hn
    obtain ⟨hlow, hhigh⟩ := scaled_bounds hpos hn
    rw [encode_single_nat hpos hn]
    generalize n * 2 ^ (23 - n.log2) = units at *
    omega

theorem toNat_toBits_singleOfNat {n : Nat} (hn : n < 16777216) :
    (singleOfNat n).toBits.toNat = encode .single n 0 := by
  have hlt := encode_single_nat_lt hn
  have hword : (UInt32.ofNat (encode .single n 0)).toNat = encode .single n 0 :=
    UInt32.toNat_ofNat_of_lt' (Nat.lt_trans hlt (by decide))
  change (Float32.ofBits (UInt32.ofNat (encode .single n 0))).toBits.toNat = _
  rw [toBits_ofBits, hword]
  rw [hword, Nat.mod_eq_of_lt (Nat.lt_trans hlt (by decide))]
  exact hlt

theorem ofFloat32_singleOfNat {n : Nat} (hn : n < 16777216) :
    ∃ exact, ofFloat32 (singleOfNat n) = .finite exact ∧ exact.IsInteger n := by
  unfold ofFloat32
  rw [toNat_toBits_singleOfNat hn]
  by_cases hpos : n = 0
  · subst hpos
    exact ⟨⟨false, 0, -149, false⟩, rfl, by decide, rfl, rfl⟩
  · obtain ⟨narrow, hdecode⟩ := decode_single_nat hpos hn
    have hlog := log2_lt_of_lt hpos hn
    refine ⟨_, hdecode, ?_, ?_, ?_⟩
    · change (n.log2 : Int) - 23 ≤ 0
      omega
    · change n * 2 ^ (23 - n.log2) = n * 2 ^ (-((n.log2 : Int) - 23)).toNat
      congr 2
      omega
    · simp

theorem ofFloat32_neg_singleOfNat {n : Nat} (hpos : n ≠ 0) (hn : n < 16777216) :
    ∃ exact, ofFloat32 (-singleOfNat n) = .finite exact ∧ exact.IsInteger (-n) := by
  obtain ⟨exact, hexact, hinteger⟩ := ofFloat32_singleOfNat hn
  have hbits := toNat_toBits_singleOfNat hn
  have hfinite : (singleOfNat n).toBits.toNat < 2139095040 := by
    rw [hbits]
    exact encode_single_nat_lt hn
  refine ⟨{ exact with negative := true }, ?_, hinteger.exponent, ?_, ?_⟩
  · unfold ofFloat32 at hexact ⊢
    rw [toNat_toBits_neg hfinite]
    exact decode_add_signBit (Nat.lt_trans hfinite (by decide)) hexact
  · rw [Int.natAbs_neg]
    exact hinteger.significand
  · simp
    omega

end Binary

namespace Decimal

/-- A value that is a whole number of units of the last place is not rounded. -/
theorem inUnits_of_exact
    {places significand units : Nat} {exponent : Int}
    (hexact :
      significand * 10 ^ places * 2 ^ exponent.toNat = units * 2 ^ (-exponent).toNat) :
    inUnits places significand exponent = units := by
  have hpos : 0 < 2 ^ (-exponent).toNat := Nat.two_pow_pos _
  simp only [inUnits, Nat.pow_eq, hexact, roundDiv, Nat.mul_mod_left, Nat.mul_div_cancel _ hpos,
    Nat.mul_zero, if_pos hpos]

theorem inUnits_of_isInteger
    (places : Nat) {exact : Binary.Exact} {value : Int} (hinteger : exact.IsInteger value) :
    inUnits places exact.significand exact.exponent = value.natAbs * 10 ^ places := by
  apply inUnits_of_exact
  have hzero : exact.exponent.toNat = 0 := Int.toNat_of_nonpos hinteger.exponent
  rw [hinteger.significand, hzero, Nat.pow_zero, Nat.mul_one, Nat.mul_right_comm]

theorem toList_toString_int (value : Int) :
    (toString value).toList =
      (if decide (value < 0) then ['-'] else []) ++ Nat.toDigits 10 value.natAbs := by
  cases value with
  | ofNat n =>
      simp [toString, Int.repr, Nat.repr]
  | negSucc n =>
      have hnegative : Int.negSucc n < 0 := Int.negSucc_lt_zero n
      simp [hnegative, toString, Int.repr, Nat.repr]

theorem fixed_of_isInteger {exact : Binary.Exact} {value : Int} (hinteger : exact.IsInteger value) :
    String.ofList (fixed literalPlaces exact) = toString value ++ ".0" := by
  have hplaces : writtenPlaces (padded literalPlaces 0) = ['0'] := by decide
  have hpos : 0 < 10 ^ literalPlaces := Nat.pow_pos (by decide)
  rw [← String.toList_inj, String.toList_ofList, String.toList_append, toList_toString_int]
  simp only [fixed, inUnits_of_isInteger _ hinteger, Nat.pow_eq, Nat.mul_div_cancel _ hpos,
    Nat.mul_mod_left, hplaces, hinteger.negative]
  rfl

/-- The literal of a float that is an integer. -/
theorem literal_of_isInteger
    {x : Float32} {exact : Binary.Exact} (hx : Binary.ofFloat32 x = .finite exact)
    {value : Int} (hinteger : exact.IsInteger value) :
    literal x = toString value ++ ".0" := by
  simp only [literal, hx]
  exact fixed_of_isInteger hinteger

end Decimal

end ShaderComposer
