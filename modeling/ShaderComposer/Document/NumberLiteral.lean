import ShaderComposer.Document.TextLiteral

/-!
# Number literals

A number is read in two steps: its digits, and then their value.  A whole number
keeps its value if it fits into 64 bits.  Any other becomes a float in a way that
is cheap rather than exact: as many leading digits as 64 bits hold make the
significand, and one multiplication or division by a power of ten puts the point
where it belongs.  Numbers beyond the range of floats are rejected; numbers that
are passed over have no value to check.
-/

namespace ShaderComposer

structure Numeral where
  negative : Bool
  whole : List Nat
  /-- The digits behind the point, if there is a point. -/
  fraction : Option (List Nat)
  /-- The sign of the power of ten, and its digits. -/
  power : Option (Bool × List Nat)
deriving DecidableEq

namespace Numeral

/-- The significand that the digits extend, and the digits that no longer fit
into 64 bits. -/
def extend : Nat → List Nat → Nat × List Nat
  | significand, [] => (significand, [])
  | significand, digit :: rest =>
    let next := significand * 10 + digit
    if next < UInt64.size then extend next rest else (significand, digit :: rest)

def ofDigits (digits : List Nat) : Nat :=
  digits.foldl (fun sum digit => sum * 10 + digit) 0

def tenTo (exponent : Nat) : Float :=
  Float.ofScientific 1 false exponent

/-- The largest power of ten among the floats is `10 ^ 308`. -/
def greatestPower : Nat := 308

/-- `x` divided by the greatest power again and again, until nothing is left. -/
def shrink : Nat → Float → Float
  | 0, x => x
  | rounds + 1, x => if x == 0.0 then x else shrink rounds (x / tenTo greatestPower)

/-- `significand * 10 ^ exponent`, if it is within range. -/
def scale? (significand : Nat) (exponent : Int) : Option Float :=
  let start := Binary.doubleOfNat significand
  if 0 ≤ exponent then
    if exponent ≤ greatestPower then
      let scaled := start * tenTo exponent.toNat
      if scaled.isFinite then some scaled else none
    else if start == 0.0 then some start
    else none
  else
    let places := (-exponent).toNat
    let rounds := (places - 1) / greatestPower
    some (shrink rounds start / tenTo (places - rounds * greatestPower))

/-- The value of a literal with point or power, or too long for 64 bits. -/
def float? (numeral : Numeral) : Option Float :=
  let (start, dropped) := extend 0 numeral.whole
  let fraction := numeral.fraction.getD []
  -- once digits were dropped, a later one may still fit
  let (significand, ignored) := extend start fraction
  let power : Int :=
    match numeral.power with
    | none => 0
    | some (negative, digits) =>
      if negative then -(ofDigits digits : Int) else (ofDigits digits : Int)
  let exponent := (dropped.length : Int) - ((fraction.length - ignored.length : Nat) : Int) + power
  (scale? significand exponent).map fun x => if numeral.negative then -x else x

def value? (numeral : Numeral) : Option Number :=
  let whole := ofDigits numeral.whole
  if numeral.fraction.isSome || numeral.power.isSome || UInt64.size ≤ whole then
    numeral.float?.map .double
  else if !numeral.negative then some (.natural whole)
  else if whole = 0 || UInt64.size / 2 < whole then some (.double (-Binary.doubleOfNat whole))
  else some (.negative whole)

end Numeral

namespace Scan

def decimalDigit? (c : Char) : Option Nat :=
  if '0' ≤ c && c ≤ '9' then some (c.toNat - '0'.toNat) else none

def digits : Nat → Scan (List Nat)
  | 0 => return []
  | fuel + 1 => do
    match (← peek).bind decimalDigit? with
    | none => return []
    | some digit =>
      advance
      return digit :: (← digits fuel)

/-- The digits that stand next, of which there has to be one.  A number that is
cut off is no sign of a cut text where it is only passed over. -/
def someDigits (purpose : Purpose) : Scan (List Nat) := do
  match ← peek, purpose with
  | none, .value => fail .truncated
  | none, .skip => fail .malformed
  | some c, _ =>
    if (decimalDigit? c).isNone then fail .malformed
    else digits (← fuel)

def wholeDigits (purpose : Purpose) : Scan (List Nat) := do
  let first ← peek
  if first = some '0' then
    advance
    if ((← peek).bind decimalDigit?).isSome then fail .malformed else return [0]
  else someDigits purpose

def fractionDigits? (purpose : Purpose) : Scan (Option (List Nat)) := do
  if (← peek) = some '.' then
    advance
    return some (← someDigits purpose)
  else return none

def power? (purpose : Purpose) : Scan (Option (Bool × List Nat)) := do
  let mark ← peek
  if mark = some 'e' || mark = some 'E' then
    advance
    let sign ← peek
    if sign = some '+' || sign = some '-' then advance
    return some (sign = some '-', ← someDigits purpose)
  else return none

/-- A number literal, from its sign or first digit on. -/
def numeral (purpose : Purpose) : Scan Numeral := do
  let negative := (← peek) = some '-'
  if negative then advance
  let whole ← wholeDigits purpose
  let fraction ← fractionDigits? purpose
  let power ← power? purpose
  return ⟨negative, whole, fraction, power⟩

def numberLiteral : Scan Number := do
  match (← numeral .value).value? with
  | some number => return number
  | none => fail .malformed

end Scan

end ShaderComposer
