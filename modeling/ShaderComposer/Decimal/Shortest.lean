import ShaderComposer.Decimal.Binary

/-!
# Shortest decimals

The text of a float in a document is the shortest decimal that reads back as the
same float; of several that are equally short the nearest to the float, and of
two equally near the one whose last digit is even.  A grid is the set of
multiples of one power of ten.  Only the two neighbours of the value on a grid
can be the nearest points, so the search walks from a coarse grid to finer ones
and looks at two candidates on each.
-/

namespace ShaderComposer

namespace Decimal

structure Digits where
  digits : Nat
  exponent : Int
deriving DecidableEq

/-- How `a * 10 ^ i` compares with `b * 2 ^ j`. -/
def compareScaled (a : Nat) (i : Int) (b : Nat) (j : Int) : Ordering :=
  compare (a * Nat.pow 10 i.toNat * Nat.pow 2 (-j).toNat)
    (b * Nat.pow 2 j.toNat * Nat.pow 10 (-i).toNat)

/-- Whether a decimal lies among the numbers that are rounded to `value`: they
reach half way to the neighbours, ends included when the significand is even. -/
def readsBack (value : Binary.Exact) (decimal : Digits) : Bool :=
  let below := if value.narrowBelow then 1 else 2
  let lower :=
    compareScaled decimal.digits decimal.exponent (4 * value.significand - below)
      (value.exponent - 2)
  let upper :=
    compareScaled decimal.digits decimal.exponent (4 * value.significand + 2)
      (value.exponent - 2)
  let closed := value.significand % 2 = 0
  (lower == .gt || (closed && lower == .eq)) && (upper == .lt || (closed && upper == .eq))

/-- The multiple of `10 ^ exponent` next below a value, as a count of units. -/
def floorOnGrid (value : Binary.Exact) (exponent : Int) : Nat :=
  (value.significand * Nat.pow 2 value.exponent.toNat * Nat.pow 10 (-exponent).toNat) /
    (Nat.pow 2 (-value.exponent).toNat * Nat.pow 10 exponent.toNat)

/-- Of the two neighbours of a value on a grid, the one that reads back; the
nearer one when both do. -/
def onGrid? (value : Binary.Exact) (exponent : Int) : Option Digits :=
  let low : Digits := ⟨floorOnGrid value exponent, exponent⟩
  let high : Digits := ⟨low.digits + 1, exponent⟩
  match readsBack value low, readsBack value high with
  | false, false => none
  | true, false => some low
  | false, true => some high
  | true, true =>
    -- twice the value against the sum of its neighbours
    match compareScaled (2 * low.digits + 1) exponent value.significand (value.exponent + 1) with
    | .gt => some low
    | .lt => some high
    | .eq => if low.digits % 2 = 0 then some low else some high

/-- The first hit on the grids from `10 ^ exponent` downwards. -/
def searchGrids (value : Binary.Exact) : Nat → Int → Option Digits
  | 0, _ => none
  | grids + 1, exponent =>
    match onGrid? value exponent with
    | some found => some found
    | none => searchGrids value grids (exponent - 1)

def exactDigits (value : Binary.Exact) : Digits :=
  ⟨value.significand * Nat.pow 2 value.exponent.toNat * Nat.pow 5 (-value.exponent).toNat,
    min value.exponent 0⟩

/-- A power of ten above a value: 1234 / 4096 is a little more than `log 2 / log 10`. -/
def topGrid (value : Binary.Exact) : Int :=
  (value.exponent + value.significand.log2 + 1) * 1234 / 4096 + 2

def shortest (value : Binary.Exact) : Digits :=
  (searchGrids value 24 (topGrid value)).getD (exactDigits value)

/-! ## Writing the digits -/

/-- How a document writes its numbers: the exponents of the leading digit for
which it does without a power of ten. -/
structure Layout where
  plainFrom : Int
  plainTo : Int

def plain (digits : List Char) (exponent : Int) : List Char :=
  if 0 ≤ exponent then digits ++ List.replicate exponent.toNat '0' ++ ['.', '0']
  else
    let places := (-exponent).toNat
    if places < digits.length then
      digits.take (digits.length - places) ++ '.' :: digits.drop (digits.length - places)
    else '0' :: '.' :: List.replicate (places - digits.length) '0' ++ digits

/-- A decimal with one digit before the point, and a power of ten whose sign is
always written. -/
def scientific (digits : List Char) (leading : Int) : List Char :=
  let mantissa :=
    match digits with
    | first :: second :: rest => first :: '.' :: second :: rest
    | short => short
  mantissa ++ 'e' :: (if leading < 0 then '-' else '+') :: Nat.toDigits 10 leading.natAbs

def Layout.write (style : Layout) (value : Binary.Exact) : List Char :=
  let sign := if value.negative then ['-'] else []
  if value.significand = 0 then sign ++ ['0', '.', '0']
  else
    let decimal := shortest value
    let digits := Nat.toDigits 10 decimal.digits
    let leading := decimal.exponent + digits.length - 1
    if style.plainFrom ≤ leading && leading ≤ style.plainTo then
      sign ++ plain digits decimal.exponent
    else sign ++ scientific digits leading

end Decimal

end ShaderComposer
