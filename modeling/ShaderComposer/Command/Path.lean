import ShaderComposer.Text.Lines

/-!
# Paths

A path is a text of names with slashes between them.  Empty names and single dots
lead nowhere, but they stay in the text: a path is shown as it was given, and
paths derived from it keep its spelling.
-/

namespace ShaderComposer

namespace Path

def split : List Char → List (List Char)
  | [] => [[]]
  | c :: rest =>
    if c = '/' then [] :: split rest
    else
      match split rest with
      | [] => [[c]]
      | piece :: more => (c :: piece) :: more

def pieces (path : String) : List String :=
  (split path.toList).map String.ofList

def isIdle (piece : String) : Bool :=
  piece = "" || piece = "."

def isAbsolute (path : String) : Bool :=
  path.toList.head? = some '/'

/-- Whether a path ends with a slash, and so can only lead to a directory. -/
def endsWithSlash (path : String) : Bool :=
  path.toList.getLast? = some '/'

def join (directory name : String) : String :=
  if directory = "" || endsWithSlash directory then directory ++ name
  else directory ++ "/" ++ name

def ofReversed (pieces : List String) : String :=
  Text.joinWith "/" pieces.reverse

/-- What is left of pieces, the last one first, without the last that leads
somewhere and without the idle ones around it. -/
def dropLast (pieces : List String) : List String :=
  ((pieces.dropWhile isIdle).drop 1).dropWhile isIdle

def directory (path : String) : String :=
  match dropLast (pieces path).reverse with
  | [] =>
    -- only the beginning is left: the root, or a dot that stands for the
    -- directory all paths begin in
    if isAbsolute path then "/"
    else if (pieces path).head? = some "." then "."
    else ""
  | outer => ofReversed outer

/-- The paths that end at one of the pieces, the longest first. -/
def ending : List String → List String
  | [] => []
  | piece :: outer =>
    if isIdle piece then ending outer else ofReversed (piece :: outer) :: ending outer

/-- A path and the directories on the way to it, the innermost first. -/
def withAncestors (path : String) : List String :=
  path :: (ending (pieces path).reverse).drop 1

end Path

end ShaderComposer
