import ShaderComposer.Document.Scan

/-!
# Text literals

A text stands between double quotes.  Characters beyond the first plane may be
escaped as a pair of surrogates; a surrogate without its partner is no character.
In a text that is passed over nobody asks for the characters, so there only the
form of the escapes matters.
-/

namespace ShaderComposer

namespace Scan

inductive Purpose where
  | value
  | skip
deriving DecidableEq

def hexDigit? (c : Char) : Option Nat :=
  if '0' ≤ c && c ≤ '9' then some (c.toNat - '0'.toNat)
  else if 'a' ≤ c && c ≤ 'f' then some (c.toNat - 'a'.toNat + 10)
  else if 'A' ≤ c && c ≤ 'F' then some (c.toNat - 'A'.toNat + 10)
  else none

def hexValue? : List Char → Option Nat :=
  List.foldl (fun sum c => do return (← sum) * 16 + (← hexDigit? c)) (some 0)

/-- Whether a text has at least `n` bytes in UTF-8. -/
def hasBytes : Nat → List Char → Bool
  | 0, _ => true
  | _ + 1, [] => false
  | n + 1, c :: rest => hasBytes (n + 1 - c.utf8Size) rest

/-- The four hexadecimal digits of an escape.  The text is taken to stop inside
them when it has fewer than four bytes left. -/
def codeUnit : Scan Nat := fun rest =>
  if !hasBytes 4 rest then .error .truncated
  else
    match rest with
    | a :: b :: c :: d :: rest =>
      match hexValue? [a, b, c, d] with
      | some unit => .ok (unit, rest)
      | none => .error .malformed
    | _ => .error .malformed

def isLeading (unit : Nat) : Bool :=
  0xD800 ≤ unit && unit ≤ 0xDBFF

def isTrailing (unit : Nat) : Bool :=
  0xDC00 ≤ unit && unit ≤ 0xDFFF

def pairedChar (leading trailing : Nat) : Char :=
  Char.ofNat ((leading - 0xD800) * 0x400 + (trailing - 0xDC00) + 0x10000)

def require (expected : Char) : Scan Unit :=
  keyword [expected]

def numericEscape (purpose : Purpose) : Scan Char := do
  let unit ← codeUnit
  match purpose with
  | .skip => return Char.ofNat unit
  | .value =>
    if isTrailing unit then fail .malformed
    else if isLeading unit then do
      require '\\'
      require 'u'
      let trailing ← codeUnit
      if isTrailing trailing then return pairedChar unit trailing else fail .malformed
    else return Char.ofNat unit

def escape (purpose : Purpose) : Scan Char := do
  match ← peek with
  | none => fail .truncated
  | some c =>
    advance
    if c = 'u' then numericEscape purpose
    else if c = '"' || c = '\\' || c = '/' then return c
    else if c = 'b' then return '\x08'
    else if c = 'f' then return '\x0c'
    else if c = 'n' then return '\n'
    else if c = 'r' then return '\r'
    else if c = 't' then return '\t'
    else fail .malformed

def textChars (purpose : Purpose) : Nat → Scan (List Char)
  | 0 => fail .truncated
  | fuel + 1 => do
    match ← peek with
    | none => fail .truncated
    | some c =>
      advance
      if c = '"' then return []
      else if c = '\\' then
        let c ← escape purpose
        return c :: (← textChars purpose fuel)
      else if c.toNat < 0x20 then fail .malformed
      else return c :: (← textChars purpose fuel)

def textLiteral (purpose : Purpose) : Scan String := do
  advance
  return String.ofList (← textChars purpose (← fuel))

end Scan

end ShaderComposer
