import ShaderComposer.Decimal.Rounding

/-!
# Binary numbers and their exact values

A finite float is a sign and a whole number of units, a unit being a power of
two.  This module takes the bits of a float apart into that exact value and puts
a value back together, rounding to the nearest float and an exact half to the
even one.  Changing precision is then one decoding and one encoding.
-/

namespace ShaderComposer

namespace Binary

/-- A binary interchange format: how many bits its significands have, the
hidden one included, and how many its exponents. -/
structure Format where
  precision : Nat
  exponentBits : Nat

def Format.single : Format where
  precision := 24
  exponentBits := 8

def Format.double : Format where
  precision := 53
  exponentBits := 11

namespace Format

variable (format : Format)

def storedBits : Nat :=
  format.precision - 1

/-- The exponent of the unit of the least finite numbers, negated. -/
def leastUnit : Nat :=
  Nat.pow 2 (format.exponentBits - 1) + format.storedBits - 2

def infinityBits : Nat :=
  (Nat.pow 2 format.exponentBits - 1) * Nat.pow 2 format.storedBits

def signBit : Nat :=
  Nat.pow 2 (format.exponentBits + format.storedBits)

end Format

/-- The number `± significand * 2 ^ exponent`.  `narrowBelow` marks the least
significand of a binade, whose neighbour below is only half a unit away. -/
structure Exact where
  negative : Bool
  significand : Nat
  exponent : Int
  narrowBelow : Bool
deriving DecidableEq

inductive Datum where
  | notANumber
  | infinite (negative : Bool)
  | finite (value : Exact)
deriving DecidableEq

def decode (format : Format) (bits : Nat) : Datum :=
  let negative := format.signBit ≤ bits
  let magnitude := bits % format.signBit
  let stored := magnitude % Nat.pow 2 format.storedBits
  let biased := magnitude / Nat.pow 2 format.storedBits
  if format.infinityBits < magnitude then .notANumber
  else if magnitude = format.infinityBits then .infinite negative
  else if biased = 0 then .finite ⟨negative, stored, -(format.leastUnit : Int), false⟩
  else
    .finite
      ⟨negative, Nat.pow 2 format.storedBits + stored,
        (biased : Int) - 1 - format.leastUnit,
        stored = 0 && 1 < biased⟩

/-- The bits, without the sign, of the float nearest to
`significand * 2 ^ exponent`. -/
def encode (format : Format) (significand : Nat) (exponent : Int) : Nat :=
  if significand = 0 then 0
  else
    -- the unit of the result: as fine as the format has at this magnitude
    let unit :=
      max (exponent + (significand.log2 + 1 : Nat) - format.precision)
        (-(format.leastUnit : Int))
    let units :=
      Decimal.roundDiv (significand * Nat.pow 2 (exponent - unit).toNat)
        (Nat.pow 2 (unit - exponent).toNat)
    let magnitude :=
      if units < Nat.pow 2 format.storedBits then units
      else (unit + format.leastUnit + 1).toNat * Nat.pow 2 format.storedBits +
        (units - Nat.pow 2 format.storedBits)
    min magnitude format.infinityBits

/-- The bits of the float nearest to an exact value. -/
def Exact.encode (value : Exact) (format : Format) : Nat :=
  Binary.encode format value.significand value.exponent +
    if value.negative then format.signBit else 0

def Format.quietBits (format : Format) : Nat :=
  format.infinityBits + Nat.pow 2 (format.storedBits - 1)

/-- The bits of a datum, rounded where the format is too coarse for it. -/
def Datum.encode (datum : Datum) (format : Format) : Nat :=
  match datum with
  | .notANumber => format.quietBits
  | .infinite negative =>
    format.infinityBits + if negative then format.signBit else 0
  | .finite value => value.encode format

def ofFloat32 (x : Float32) : Datum :=
  decode .single x.toBits.toNat

def ofFloat (x : Float) : Datum :=
  decode .double x.toBits.toNat

def Datum.toFloat32 (datum : Datum) : Float32 :=
  Float32.ofBits (UInt32.ofNat (datum.encode .single))

def Datum.toFloat (datum : Datum) : Float :=
  Float.ofBits (UInt64.ofNat (datum.encode .double))

/-- A 32-bit float in 64 bits, which changes no value. -/
def widen (x : Float32) : Float :=
  (ofFloat32 x).toFloat

def narrow (x : Float) : Float32 :=
  (ofFloat x).toFloat32

def Datum.ofNat (n : Nat) : Datum :=
  .finite ⟨false, n, 0, false⟩

def singleOfNat (n : Nat) : Float32 :=
  (Datum.ofNat n).toFloat32

def doubleOfNat (n : Nat) : Float :=
  (Datum.ofNat n).toFloat

end Binary

end ShaderComposer
