import ShaderComposer.Document.ReadError

/-!
# Scanning

A scanner reads from the front of the remaining characters.  It stops at the
first thing that is wrong, so of several problems in a text the first one in
reading order is reported.
-/

namespace ShaderComposer

abbrev Scan := StateT (List Char) (Except ReadError)

namespace Scan

def fail (error : ReadError) : Scan α :=
  fun _ => .error error

def mismatch (cause : Mismatch) : Scan α :=
  fail (.mismatch cause)

def peek : Scan (Option Char) :=
  fun rest => .ok (rest.head?, rest)

def advance : Scan Unit :=
  fun rest => .ok ((), rest.tail)

/-- The blanks that may stand between the tokens of a document. -/
def isSpace (c : Char) : Bool :=
  c == ' ' || c == '\n' || c == '\t' || c == '\r'

def peekToken : Scan (Option Char) :=
  fun rest =>
    let rest := rest.dropWhile isSpace
    .ok (rest.head?, rest)

/-- A bound for what is still to read: every round of a loop takes a character. -/
def fuel : Scan Nat :=
  fun rest => .ok (rest.length + 1, rest)

def keyword : List Char → Scan Unit
  | [] => return
  | expected :: more => do
    match ← peek with
    | none => fail .truncated
    | some c => if c = expected then advance; keyword more else fail .malformed

def finish : Scan Unit := do
  match ← peekToken with
  | none => return
  | some _ => fail .malformed

def run (scan : Scan α) (text : String) : Except ReadError α :=
  (scan text.toList).map Prod.fst

/-- The character after which the value of a member stands. -/
def colon : Scan Unit := do
  match ← peekToken with
  | none => fail .truncated
  | some c => if c = ':' then advance else fail .malformed

end Scan

end ShaderComposer
