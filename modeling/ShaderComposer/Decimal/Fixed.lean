import ShaderComposer.Decimal.Binary

/-!
# Decimals with a bounded number of places

Shader languages tell a float from an integer by its decimal point, so a float
literal always has one.  It is the number rounded to nine places, written
without exponent, and without the zeros at its end save the one the point needs.
-/

namespace ShaderComposer

namespace Decimal

def literalPlaces : Nat := 9

/-- `digits` written out and filled up with zeros in front to `width`. -/
def padded (width n : Nat) : List Char :=
  let digits := Nat.toDigits 10 n
  List.replicate (width - digits.length) '0' ++ digits

def dropTrailingZeros : List Char → List Char
  | [] => []
  | c :: rest =>
    match dropTrailingZeros rest with
    | [] => if c = '0' then [] else [c]
    | kept => c :: kept

/-- The places behind the point, of which at least one is written. -/
def writtenPlaces (places : List Char) : List Char :=
  match dropTrailingZeros places with
  | [] => ['0']
  | kept => kept

/-- An exact value in units of the last place, rounded to the nearest. -/
def inUnits (places significand : Nat) (exponent : Int) : Nat :=
  roundDiv (significand * Nat.pow 10 places * Nat.pow 2 exponent.toNat)
    (Nat.pow 2 (-exponent).toNat)

def fixed (places : Nat) (value : Binary.Exact) : List Char :=
  let units := inUnits places value.significand value.exponent
  (if value.negative then ['-'] else []) ++
    Nat.toDigits 10 (units / Nat.pow 10 places) ++
    '.' :: writtenPlaces (padded places (units % Nat.pow 10 places))

/-- The literal of a 32-bit float; what is no finite number is written as zero. -/
def literal (x : Float32) : String :=
  match Binary.ofFloat32 x with
  | .finite value => String.ofList (fixed literalPlaces value)
  | _ => "0.0"

end Decimal

end ShaderComposer
