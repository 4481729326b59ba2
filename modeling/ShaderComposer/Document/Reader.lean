import ShaderComposer.Document.NumberLiteral

/-!
# Reading documents

Readers for values of a wanted shape.  A reader that meets another shape reads
the token in front of it, so that a fault of the token comes before the mismatch.
Arrays and objects that are read open a level each, and there is only so much
room for levels; what is passed over needs no room.
-/

namespace ShaderComposer

namespace Scan

/-- How many arrays and objects may be open at a time. -/
def maxRoom : Nat := 127

/-! ## Mismatches -/

/-- Refuses the value that stands next, of which another shape was expected. -/
def refuse (expected : String) : Scan α := do
  match ← peekToken with
  | none => fail .truncated
  | some c =>
    if c = 'n' then
      advance; keyword ['u', 'l', 'l']
      mismatch (.invalidType .null expected)
    else if c = 't' then
      advance; keyword ['r', 'u', 'e']
      mismatch (.invalidType (.bool true) expected)
    else if c = 'f' then
      advance; keyword ['a', 'l', 's', 'e']
      mismatch (.invalidType (.bool false) expected)
    else if c = '-' || (decimalDigit? c).isSome then
      let number ← numberLiteral
      mismatch (.invalidType (.number number) expected)
    else if c = '"' then
      let text ← textLiteral .value
      mismatch (.invalidType (.string text) expected)
    else if c = '[' then mismatch (.invalidType .sequence expected)
    else if c = '\x7b' then mismatch (.invalidType .map expected)
    else fail .malformed

def text (expected : String) : Scan String := do
  if (← peekToken) = some '"' then textLiteral .value else refuse expected

def unit : Scan Unit := do
  if (← peekToken) = some 'n' then
    advance; keyword ['u', 'l', 'l']
  else refuse "unit"

def nullable (scan : Scan α) : Scan (Option α) := do
  if (← peekToken) = some 'n' then
    advance; keyword ['u', 'l', 'l']
    return none
  else return some (← scan)

def variant (variants : List (String × α)) (given : String) : Scan α :=
  match variants.lookup given with
  | some value => return value
  | none => mismatch (.unknownVariant given (variants.map Prod.fst))

/-! ## Arrays and objects -/

/-- Opens an array or object if there is room, and tells how much is left. -/
def openLevel : Nat → Scan Nat
  | 0 => fail .malformed
  | room + 1 => do
    advance
    return room

/-- Whether an item follows, the first one or one behind a comma. -/
def itemFollows (first : Bool) : Scan Bool := do
  match ← peekToken with
  | none => fail .truncated
  | some c =>
    if c = ']' then return false
    else if first then return true
    else if c = ',' then
      advance
      match ← peekToken with
      | none => fail .truncated
      | some c => if c = ']' then fail .malformed else return true
    else fail .malformed

/-- The next item of an array, if there is one. -/
def item? (first : Bool) (scan : Scan α) : Scan (Option α) := do
  if ← itemFollows first then return some (← scan) else return none

def items (scan : Scan α) : Nat → Bool → Scan (List α)
  | 0, _ => fail .truncated
  | fuel + 1, first => do
    match ← item? first scan with
    | none => return []
    | some value => return value :: (← items scan fuel false)

/-- The end of an array of which no more items are wanted. -/
def closeArray : Scan Unit := do
  match ← peekToken with
  | none => fail .truncated
  | some c => if c = ']' then advance else fail .malformed

def arrayOf (room : Nat) (scan : Nat → Scan α) : Scan (List α) := do
  let room ← openLevel room
  let values ← items (scan room) (← fuel) true
  closeArray
  return values

def keyLiteral (purpose : Purpose) : Scan String := do
  match ← peekToken with
  | none => fail .truncated
  | some c => if c = '"' then textLiteral purpose else fail .malformed

/-- The key of the next member, if there is one. -/
def key? (first : Bool) : Scan (Option String) := do
  match ← peekToken with
  | none => fail .truncated
  | some c =>
    if c = '\x7d' then return none
    else if first then return some (← keyLiteral .value)
    else if c = ',' then
      advance
      return some (← keyLiteral .value)
    else fail .malformed

/-- All members of an object, each one changing what is known so far. -/
def members (member : σ → String → Scan σ) : Nat → Bool → σ → Scan σ
  | 0, _, _ => fail .truncated
  | fuel + 1, first, known => do
    match ← key? first with
    | none => return known
    | some key =>
      let known ← member known key
      members member fuel false known

/-- What the members of an object tell, from its brace on. -/
def objectOf (room : Nat) (start : σ) (member : Nat → σ → String → Scan σ) : Scan σ := do
  let room ← openLevel room
  let known ← members (member room) (← fuel) true start
  advance
  return known

/-! ## Any value -/

/-- A value of whatever shape, an array or object being left to `nested`. -/
def scalarOr (nested : Char → Scan Document) : Scan Document := do
  match ← peekToken with
  | none => fail .truncated
  | some c =>
    if c = 'n' then
      advance; keyword ['u', 'l', 'l']
      return .null
    else if c = 't' then
      advance; keyword ['r', 'u', 'e']
      return .bool true
    else if c = 'f' then
      advance; keyword ['a', 'l', 's', 'e']
      return .bool false
    else if c = '-' || (decimalDigit? c).isSome then return .number (← numberLiteral)
    else if c = '"' then return .string (← textLiteral .value)
    else nested c

/-- A value of whatever shape, with room for so many levels. -/
def value : Nat → Scan Document
  | 0 => scalarOr fun _ => fail .malformed
  | room + 1 =>
    scalarOr fun c => do
      if c = '[' then
        advance
        let values ← items (value room) (← fuel) true
        closeArray
        return .array values
      else if c = '\x7b' then
        advance
        let entries ←
          members
            (fun entries key => do
              colon
              return entries ++ [(key, ← value room)])
            (← fuel) true []
        advance
        return .object entries
      else fail .malformed

/-! ## Values passed over -/

inductive Bracket where
  | square
  | curly
deriving DecidableEq

def Bracket.closing : Bracket → Char
  | square => ']'
  | curly => '\x7d'

def Bracket.lead : Bracket → Scan Unit
  | square => return
  | curly => do
    discard (keyLiteral .skip)
    colon

/-- Goes on behind a value: closes brackets up to the next comma.  Gives the
brackets around the value that follows, or none if all are closed. -/
def leave : List Bracket → Scan (Option (List Bracket))
  | [] => return none
  | bracket :: outer => do
    match ← peekToken with
    | none => fail .truncated
    | some c =>
      if c = ',' then
        advance
        bracket.lead
        return some (bracket :: outer)
      else if c = bracket.closing then
        advance
        leave outer
      else fail .malformed

/-- Opens a bracket.  Gives the brackets around the value that follows, or none
if all are closed again. -/
def enter (bracket : Bracket) (outer : List Bracket) : Scan (Option (List Bracket)) := do
  advance
  if (← peekToken) = some bracket.closing then
    advance
    leave outer
  else
    bracket.lead
    return some (bracket :: outer)

def skipOne (outer : List Bracket) : Scan (Option (List Bracket)) := do
  match ← peekToken with
  | none => fail .truncated
  | some c =>
    if c = 'n' then
      advance; keyword ['u', 'l', 'l']
      leave outer
    else if c = 't' then
      advance; keyword ['r', 'u', 'e']
      leave outer
    else if c = 'f' then
      advance; keyword ['a', 'l', 's', 'e']
      leave outer
    else if c = '-' || (decimalDigit? c).isSome then
      discard (numeral .skip)
      leave outer
    else if c = '"' then
      discard (textLiteral .skip)
      leave outer
    else if c = '[' then enter .square outer
    else if c = '\x7b' then enter .curly outer
    else fail .malformed

def skipFrom : Nat → List Bracket → Scan Unit
  | 0, _ => fail .truncated
  | fuel + 1, outer => do
    match ← skipOne outer with
    | none => return
    | some outer => skipFrom fuel outer

def skip : Scan Unit := do
  skipFrom (← fuel) []

end Scan

end ShaderComposer
