import ShaderComposer.Document.Basic

/-!
# Printing documents

A document is printed on one line without blanks, or over several lines with two
blanks per level.  In texts only the quote, the backslash and the control
characters are escaped.
-/

namespace ShaderComposer

namespace Document

/-- A control character by its code, in four hexadecimal digits. -/
def controlEscape (c : Char) : List Char :=
  let digits := Nat.toDigits 16 c.toNat
  ['\\', 'u'] ++ List.replicate (4 - digits.length) '0' ++ digits

def escapeChar (c : Char) : List Char :=
  if c = '"' then ['\\', '"']
  else if c = '\\' then ['\\', '\\']
  else if c = '\x08' then ['\\', 'b']
  else if c = '\t' then ['\\', 't']
  else if c = '\n' then ['\\', 'n']
  else if c = '\x0c' then ['\\', 'f']
  else if c = '\r' then ['\\', 'r']
  else if c.toNat < 0x20 then controlEscape c
  else [c]

def textLiteral (text : String) : List Char :=
  '"' :: text.toList.flatMap escapeChar ++ ['"']

def boolLiteral : Bool → List Char
  | true => ['t', 'r', 'u', 'e']
  | false => ['f', 'a', 'l', 's', 'e']

def nullLiteral : List Char := ['n', 'u', 'l', 'l']

/-! ## On one line -/

mutual

def compact : Document → List Char
  | null => nullLiteral
  | bool value => boolLiteral value
  | number value => value.text
  | string value => textLiteral value
  | array [] => ['[', ']']
  | array (item :: rest) => '[' :: compact item ++ compactItems rest
  | object [] => ['\x7b', '\x7d']
  | object ((key, value) :: rest) =>
    '\x7b' :: textLiteral key ++ ':' :: compact value ++ compactMembers rest

/-- The items that follow the first one, and the end of their array. -/
def compactItems : List Document → List Char
  | [] => [']']
  | item :: rest => ',' :: compact item ++ compactItems rest

/-- The members that follow the first one, and the end of their object. -/
def compactMembers : List (String × Document) → List Char
  | [] => ['\x7d']
  | (key, value) :: rest =>
    ',' :: textLiteral key ++ ':' :: compact value ++ compactMembers rest

end

/-! ## Over several lines -/

def newLine (level : Nat) : List Char :=
  '\n' :: List.replicate (2 * level) ' '

mutual

/-- The document over several lines, itself on a line of the given level. -/
def pretty (level : Nat) : Document → List Char
  | null => nullLiteral
  | bool value => boolLiteral value
  | number value => value.text
  | string value => textLiteral value
  | array [] => ['[', ']']
  | array (item :: rest) =>
    '[' :: newLine (level + 1) ++ pretty (level + 1) item ++ prettyItems level rest
  | object [] => ['\x7b', '\x7d']
  | object ((key, value) :: rest) =>
    '\x7b' :: newLine (level + 1) ++ textLiteral key ++ [':', ' '] ++ pretty (level + 1) value ++
      prettyMembers level rest

/-- The items that follow the first one, and the end of their array. -/
def prettyItems (level : Nat) : List Document → List Char
  | [] => newLine level ++ [']']
  | item :: rest =>
    ',' :: newLine (level + 1) ++ pretty (level + 1) item ++ prettyItems level rest

/-- The members that follow the first one, and the end of their object. -/
def prettyMembers (level : Nat) : List (String × Document) → List Char
  | [] => newLine level ++ ['\x7d']
  | (key, value) :: rest =>
    ',' :: newLine (level + 1) ++ textLiteral key ++ [':', ' '] ++ pretty (level + 1) value ++
      prettyMembers level rest

end

def text (document : Document) : String :=
  String.ofList document.compact

def prettyText (document : Document) : String :=
  String.ofList (document.pretty 0)

end Document

end ShaderComposer
