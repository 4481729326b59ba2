/-!
# Rounding a quotient

The nearest natural number to a quotient, an exact half going to the even
neighbour.  Decimal places and binary significands are both cut this way.
-/

namespace ShaderComposer

namespace Decimal

/-- The natural number nearest to `numerator / denominator`, ties to even. -/
def roundDiv (numerator denominator : Nat) : Nat :=
  let quotient := numerator / denominator
  let twice := 2 * (numerator % denominator)
  if twice < denominator then quotient
  else if denominator < twice then quotient + 1
  else if quotient % 2 = 0 then quotient
  else quotient + 1

theorem roundDiv_near (numerator denominator : Nat) (h : 0 < denominator) :
    2 * (roundDiv numerator denominator * denominator) ≤
        2 * numerator + denominator ∧
      2 * numerator ≤
        2 * (roundDiv numerator denominator * denominator) + denominator := by
  have hsplit : denominator * (numerator / denominator) + numerator % denominator =
      numerator := Nat.div_add_mod numerator denominator
  have hrest : numerator % denominator < denominator := Nat.mod_lt _ h
  have hsucc : (numerator / denominator + 1) * denominator =
      denominator * (numerator / denominator) + denominator := by
    rw [Nat.add_mul, Nat.mul_comm]; simp
  have hcomm : numerator / denominator * denominator =
      denominator * (numerator / denominator) := Nat.mul_comm ..
  simp only [roundDiv]
  generalize denominator * (numerator / denominator) = whole at *
  split
  · omega
  · split
    · omega
    · split <;> omega

@[simp] theorem roundDiv_one (numerator : Nat) : roundDiv numerator 1 = numerator := by
  simp [roundDiv, Nat.mod_one]

end Decimal

end ShaderComposer
