import ShaderComposer.Proofs.FloatValue
import ShaderComposer.Proofs.LiteralForm

/-!
# The numbers that literals denote

A literal is read back as a decimal: its sign, its digits in front of the point and its
digits behind it.  The number of units of the last place is rounded once, and the two rows
of digits are its quotient and its remainder, so the decimal denotes exactly this number of
units.  Cutting zeros off at the end changes how many digits there are and not the number,
and one zero that is put back changes nothing either.  What a literal denotes is then off
by what the rounding was, which is nothing if there was nothing to round.
-/

namespace ShaderComposer

namespace Decimal

/-! ## Decimals as they are written -/

/-- A decimal without exponent: its sign, its digits in front of the point and its digits
behind it. -/
structure Written where
  negative : Bool
  whole : List Char
  places : List Char

/-- The number for which digits behind a point stand. -/
def fraction (places : List Char) : ℚ :=
  Nat.ofDigitChars 10 places 0 / 10 ^ places.length

namespace Written

def text (decimal : Written) : List Char :=
  (if decimal.negative then ['-'] else []) ++ decimal.whole ++ '.' :: decimal.places

/-- There are digits on both sides of the point, behind it `most` at the most.  None of them
is a zero that could be left out: of several digits in front of the point the first is no
zero, and of several behind it the last. -/
structure Canonical (most : Nat) (decimal : Written) : Prop where
  whole_digits : ∀ c ∈ decimal.whole, c.isDigit = true
  whole_nonempty : decimal.whole ≠ []
  no_leading_zero : decimal.whole.head? = some '0' → decimal.whole = ['0']
  places_digits : ∀ c ∈ decimal.places, c.isDigit = true
  places_nonempty : decimal.places ≠ []
  places_length : decimal.places.length ≤ most
  no_trailing_zero : decimal.places.getLast? = some '0' → decimal.places = ['0']

def value (decimal : Written) : ℚ :=
  (if decimal.negative then -1 else 1) *
    (Nat.ofDigitChars 10 decimal.whole 0 + fraction decimal.places)

def ofDigits (negative : Bool) (digits : List Char) : Written where
  negative
  whole := digits.takeWhile (· != '.')
  places := (digits.dropWhile (· != '.')).tail

/-- The decimal that a text writes, if it writes one. -/
def ofText : List Char → Written
  | '-' :: digits => ofDigits true digits
  | digits => ofDigits false digits

theorem ofDigits_append_point
    {whole : List Char} (hwhole : ∀ c ∈ whole, c.isDigit = true)
    (negative : Bool) (places : List Char) :
    ofDigits negative (whole ++ '.' :: places) = ⟨negative, whole, places⟩ := by
  have hpoint : ∀ c ∈ whole, (c != '.') = true := by
    intro c hc
    have hdigit := hwhole c hc
    rw [bne_iff_ne]
    rintro rfl
    exact absurd hdigit (by decide)
  rw [ofDigits, List.takeWhile_append_of_pos hpoint, List.dropWhile_append_of_pos hpoint]
  simp

theorem ofText_text {most : Nat} {decimal : Written} (hcanonical : decimal.Canonical most) :
    ofText decimal.text = decimal := by
  obtain ⟨negative, whole, places⟩ := decimal
  have hdigits : ∀ c ∈ whole, c.isDigit = true := hcanonical.whole_digits
  cases negative with
  | true =>
      exact ofDigits_append_point hdigits true places
  | false =>
      obtain ⟨c, rest, rfl⟩ := List.exists_cons_of_ne_nil hcanonical.whole_nonempty
      have hsign : c ≠ '-' := by
        rintro rfl
        exact absurd (hdigits '-' List.mem_cons_self) (by decide)
      change ofText (c :: (rest ++ '.' :: places)) = _
      unfold ofText
      split
      · next heq =>
        exact absurd (List.cons.inj heq).1 hsign
      · exact ofDigits_append_point hdigits false places

end Written

/-- The number that a text denotes as a decimal. -/
def denoted (text : List Char) : ℚ :=
  (Written.ofText text).value

/-! ## Digits -/

theorem length_padded {width n : Nat} (hwidth : 0 < width) (hn : n < 10 ^ width) :
    (padded width n).length = width := by
  have hdigits : (Nat.toDigits 10 n).length ≤ width :=
    (Nat.length_toDigits_le_iff (by decide) hwidth).mpr hn
  rw [padded, List.length_append, List.length_replicate]
  omega

theorem ofDigitChars_padded (width n : Nat) : Nat.ofDigitChars 10 (padded width n) 0 = n := by
  rw [padded, Nat.ofDigitChars_append, Nat.ofDigitChars_replicate_zero, Nat.mul_zero,
    Nat.ofDigitChars_ten_toDigits]

theorem fraction_append_zeros (places : List Char) (count : Nat) :
    fraction (places ++ List.replicate count '0') = fraction places := by
  have hpow : (10 : ℚ) ^ count ≠ 0 := by positivity
  rw [fraction, fraction, Nat.ofDigitChars_append, Nat.ofDigitChars_replicate_zero,
    List.length_append, List.length_replicate, pow_add]
  push_cast
  rw [mul_comm, mul_div_mul_right _ _ hpow]

theorem exists_eq_append_zeros (places : List Char) :
    ∃ count, places = dropTrailingZeros places ++ List.replicate count '0' := by
  have hzeros : ∀ c ∈ places.rtakeWhile (· == '0'), c = '0' := by
    intro c hc
    have hzero : (c == '0') = true := List.mem_rtakeWhile_imp (p := (· == '0')) hc
    exact eq_of_beq hzero
  refine ⟨(places.rtakeWhile (· == '0')).length, ?_⟩
  rw [dropTrailingZeros_eq_rdropWhile, ← List.eq_replicate_of_mem hzeros,
    List.rdropWhile_append_rtakeWhile]

theorem fraction_dropTrailingZeros (places : List Char) :
    fraction (dropTrailingZeros places) = fraction places := by
  obtain ⟨count, hcount⟩ := exists_eq_append_zeros places
  conv_rhs => rw [hcount]
  exact (fraction_append_zeros _ count).symm

theorem writtenPlaces_cases (places : List Char) :
    (dropTrailingZeros places = [] ∧ writtenPlaces places = ['0']) ∨
      (dropTrailingZeros places ≠ [] ∧ writtenPlaces places = dropTrailingZeros places) := by
  unfold writtenPlaces
  split
  · next hnone =>
    exact .inl ⟨hnone, rfl⟩
  · next hkept =>
    exact .inr ⟨hkept, rfl⟩

theorem fraction_writtenPlaces (places : List Char) :
    fraction (writtenPlaces places) = fraction places := by
  rw [← fraction_dropTrailingZeros places]
  rcases writtenPlaces_cases places with ⟨hnone, hwritten⟩ | ⟨-, hwritten⟩
  · rw [hnone, hwritten]
    exact fraction_append_zeros [] 1
  · rw [hwritten]

theorem writtenPlaces_ne_nil (places : List Char) : writtenPlaces places ≠ [] := by
  rcases writtenPlaces_cases places with ⟨-, hwritten⟩ | ⟨hkept, hwritten⟩
  · rw [hwritten]
    exact List.cons_ne_nil '0' []
  · rwa [hwritten]

theorem length_writtenPlaces_le {places : List Char} (hplaces : places ≠ []) :
    (writtenPlaces places).length ≤ places.length := by
  rcases writtenPlaces_cases places with ⟨-, hwritten⟩ | ⟨-, hwritten⟩
  · rw [hwritten]
    exact List.length_pos_of_ne_nil hplaces
  · rw [hwritten, dropTrailingZeros_eq_rdropWhile]
    exact (List.rdropWhile_prefix _ places).length_le

theorem getLast?_writtenPlaces {places : List Char}
    (hlast : (writtenPlaces places).getLast? = some '0') : writtenPlaces places = ['0'] := by
  rcases writtenPlaces_cases places with ⟨-, hwritten⟩ | ⟨hkept, hwritten⟩
  · exact hwritten
  · rw [dropTrailingZeros_eq_rdropWhile] at hkept hwritten
    have hother := List.rdropWhile_last_not _ places hkept
    rw [hwritten, List.getLast?_eq_some_getLast hkept, Option.some.injEq] at hlast
    rw [hlast] at hother
    exact absurd rfl hother

theorem head?_toDigits {n : Nat} (hhead : (Nat.toDigits 10 n).head? = some '0') :
    Nat.toDigits 10 n = ['0'] := by
  by_cases hn : 0 < n
  · exact absurd hhead (head?_toDigits_ne_zero hn)
  · obtain rfl : n = 0 := by omega
    rfl

/-! ## The decimal of an exact value -/

def writtenOf (places : Nat) (exact : Binary.Exact) : Written :=
  let units := inUnits places exact.significand exact.exponent
  { negative := exact.negative
    whole := Nat.toDigits 10 (units / Nat.pow 10 places)
    places := writtenPlaces (padded places (units % Nat.pow 10 places)) }

theorem fixed_eq_text (places : Nat) (exact : Binary.Exact) :
    fixed places exact = (writtenOf places exact).text :=
  rfl

theorem canonical_writtenOf {places : Nat} (hplaces : 0 < places) (exact : Binary.Exact) :
    (writtenOf places exact).Canonical places := by
  have hpow : 0 < 10 ^ places := Nat.pow_pos (by decide)
  have hlength :
      (padded places
        (inUnits places exact.significand exact.exponent % Nat.pow 10 places)).length = places :=
    length_padded hplaces (Nat.mod_lt _ hpow)
  constructor
  · intro c hc
    exact Nat.isDigit_of_mem_toDigits (by decide) (by decide) hc
  · exact Nat.toDigits_ne_nil
  · exact head?_toDigits
  · intro c hc
    exact isDigit_of_mem_writtenPlaces (fun _ => isDigit_of_mem_padded) hc
  · exact writtenPlaces_ne_nil _
  · refine (length_writtenPlaces_le ?_).trans hlength.le
    rw [← List.length_pos_iff, hlength]
    exact hplaces
  · exact getLast?_writtenPlaces

theorem value_writtenOf {places : Nat} (hplaces : 0 < places) (exact : Binary.Exact) :
    (writtenOf places exact).value =
      exact.sign * (inUnits places exact.significand exact.exponent / 10 ^ places) := by
  generalize hunits : inUnits places exact.significand exact.exponent = units
  have hpow : 0 < 10 ^ places := Nat.pow_pos (by decide)
  have hpowRat : (10 : ℚ) ^ places ≠ 0 := by positivity
  have hlength := length_padded hplaces (Nat.mod_lt units hpow)
  have hsplit : (units : ℚ) = 10 ^ places * (units / 10 ^ places : Nat) +
      (units % 10 ^ places : Nat) := by
    exact_mod_cast (Nat.div_add_mod units (10 ^ places)).symm
  have hwhole : Nat.ofDigitChars 10 (Nat.toDigits 10 (units / 10 ^ places)) 0 =
      units / 10 ^ places := Nat.ofDigitChars_ten_toDigits
  have hfraction : fraction (writtenPlaces (padded places (units % 10 ^ places))) =
      (units % 10 ^ places : Nat) / 10 ^ places := by
    rw [fraction_writtenPlaces, fraction, ofDigitChars_padded, hlength]
  simp only [Written.value, writtenOf, hunits, Nat.pow_eq, hwhole, hfraction, Binary.Exact.sign]
  congr 1
  rw [eq_div_iff hpowRat, add_mul, div_mul_cancel₀ _ hpowRat, hsplit]
  ring

/-! ## Rounding to units -/

theorem roundDiv_error (numerator denominator : Nat) (hdenominator : 0 < denominator) :
    |(roundDiv numerator denominator : ℚ) - numerator / denominator| ≤ 1 / 2 := by
  obtain ⟨hlow, hhigh⟩ := roundDiv_near numerator denominator hdenominator
  generalize roundDiv numerator denominator = rounded at *
  have hpos : (0 : ℚ) < denominator := by exact_mod_cast hdenominator
  have hlowRat : 2 * ((rounded : ℚ) * denominator) ≤ 2 * numerator + denominator := by
    exact_mod_cast hlow
  have hhighRat : 2 * (numerator : ℚ) ≤ 2 * (rounded * denominator) + denominator := by
    exact_mod_cast hhigh
  have hbelow : (rounded : ℚ) - 1 / 2 ≤ numerator / denominator := by
    rw [le_div_iff₀ hpos]
    linarith
  have habove : (numerator : ℚ) / denominator ≤ rounded + 1 / 2 := by
    rw [div_le_iff₀ hpos]
    linarith
  rw [abs_le]
  constructor <;> linarith

/-- Rounding to units of the last place is off by half a unit at the most. -/
theorem inUnits_error (places : Nat) (exact : Binary.Exact) :
    |(inUnits places exact.significand exact.exponent : ℚ) - exact.magnitude * 10 ^ places| ≤
      1 / 2 := by
  have hround :=
    roundDiv_error
      (exact.significand * Nat.pow 10 places * Nat.pow 2 exact.exponent.toNat)
      (Nat.pow 2 (-exact.exponent).toNat) (Nat.two_pow_pos _)
  have hquotient :
      exact.magnitude * 10 ^ places =
        (exact.significand * Nat.pow 10 places * Nat.pow 2 exact.exponent.toNat : Nat) /
          (Nat.pow 2 (-exact.exponent).toNat : Nat) := by
    rw [Binary.Exact.magnitude, Binary.zpow_eq_div]
    simp only [Nat.pow_eq]
    push_cast
    ring
  rw [hquotient]
  exact hround

/-- A whole number of units is kept. -/
theorem inUnits_eq_of_magnitude
    {places units : Nat} {exact : Binary.Exact}
    (hunits : exact.magnitude * 10 ^ places = units) :
    inUnits places exact.significand exact.exponent = units := by
  have herror := inUnits_error places exact
  rw [hunits] at herror
  generalize inUnits places exact.significand exact.exponent = rounded at *
  have hless : |((rounded : ℤ) - (units : ℤ) : ℤ)| < 1 := by
    have hrat : |((rounded : ℚ) - units)| < 1 := lt_of_le_of_lt herror (by norm_num)
    exact_mod_cast hrat
  have hzero := Int.abs_lt_one_iff.mp hless
  omega

/-! ## Literals -/

/-- `text` is a literal of `value`: a decimal of nine places without superfluous digits that
denotes `value` up to half a unit of the last place, and `value` itself when that is a
multiple of `2 ^ (-9)`, as every integer is. -/
structure IsLiteralOf (value : ℚ) (text : List Char) : Prop where
  canonical : ∃ decimal : Written, decimal.Canonical 9 ∧ text = decimal.text
  near : |denoted text - value| ≤ 1 / 2 * 10 ^ (-9 : ℤ)
  exact : ∀ multiple : ℤ, value = multiple * 2 ^ (-9 : ℤ) → denoted text = value

theorem denoted_fixed {places : Nat} (hplaces : 0 < places) (exact : Binary.Exact) :
    denoted (fixed places exact) =
      exact.sign * (inUnits places exact.significand exact.exponent / 10 ^ places) := by
  rw [denoted, fixed_eq_text, Written.ofText_text (canonical_writtenOf hplaces exact),
    value_writtenOf hplaces]

theorem denoted_fixed_near {places : Nat} (hplaces : 0 < places) (exact : Binary.Exact) :
    |denoted (fixed places exact) - exact.value| ≤ 1 / 2 * 10 ^ (-(places : ℤ)) := by
  have herror := inUnits_error places exact
  have hpow : (0 : ℚ) < 10 ^ places := by positivity
  rw [denoted_fixed hplaces, Binary.Exact.value, ← mul_sub, abs_mul, exact.abs_sign, one_mul]
  generalize (inUnits places exact.significand exact.exponent : ℚ) = units at *
  have hscaled :
      units / 10 ^ places - exact.magnitude =
        (units - exact.magnitude * 10 ^ places) / 10 ^ places := by
    field_simp
  rw [hscaled, abs_div, abs_of_pos hpow, zpow_neg, zpow_natCast, ← div_eq_mul_inv]
  exact div_le_div_of_nonneg_right herror hpow.le

theorem denoted_fixed_of_whole
    {places units : Nat} (hplaces : 0 < places) {exact : Binary.Exact}
    (hunits : exact.magnitude * 10 ^ places = units) :
    denoted (fixed places exact) = exact.value := by
  rw [denoted_fixed hplaces, inUnits_eq_of_magnitude hunits, ← hunits, Binary.Exact.value]
  field_simp

/-- Nine places hold every multiple of `2 ^ (-9)`, as two divides ten. -/
theorem magnitude_of_multiple {exact : Binary.Exact} {multiple : ℤ}
    (hvalue : exact.value = multiple * 2 ^ (-9 : ℤ)) :
    exact.magnitude * 10 ^ 9 = (multiple.natAbs * 5 ^ 9 : Nat) := by
  have hpos : (0 : ℚ) < 2 ^ (-9 : ℤ) := by positivity
  rw [← exact.abs_value, hvalue, abs_mul, abs_of_pos hpos]
  push_cast [Nat.cast_natAbs]
  norm_num
  ring

theorem isLiteralOf_fixed (exact : Binary.Exact) : IsLiteralOf exact.value (fixed 9 exact) := by
  constructor
  · exact ⟨writtenOf 9 exact, canonical_writtenOf (by decide) exact, fixed_eq_text 9 exact⟩
  · exact denoted_fixed_near (by decide) exact
  · intro multiple hvalue
    exact denoted_fixed_of_whole (by decide) (magnitude_of_multiple hvalue)

/-- What is written for a float is a literal of the number for which its bits stand, and
zero if they stand for none. -/
theorem literal_denotes_up_to_half_a_unit (x : Float32) :
    if x.isFinite then IsLiteralOf (Binary.singleValue x.toBits.toNat) (literal x).toList
    else literal x = "0.0" := by
  by_cases hfinite : x.isFinite = true
  · obtain ⟨exact, hexact, hvalue⟩ := Binary.exists_ofFloat32_eq_finite hfinite
    rw [if_pos hfinite, ← hvalue, literal, hexact, String.toList_ofList]
    exact isLiteralOf_fixed exact
  · rw [if_neg hfinite, literal]
    split
    · next exact hexact =>
      exact absurd hexact (Binary.ofFloat32_ne_finite (Bool.eq_false_iff.mpr hfinite) exact)
    · rfl

/-- The least positive float is written as zero, and a multiple of `2 ^ (-9)` as it is. -/
example :
    literal (Float32.ofBits 1) = "0.0" ∧
      literal (Float32.ofBits 0xC0002000) = "-2.001953125" := by
  decide

end Decimal

end ShaderComposer
