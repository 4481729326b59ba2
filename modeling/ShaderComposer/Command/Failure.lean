import ShaderComposer.Chain.Reader
import ShaderComposer.Command.FileAccess
import ShaderComposer.Command.Options

/-!
# Failed runs

Why a run fails, and how that is reported: what could not be done comes first,
and what stood behind it is listed below, one cause to a line.  Causes are
numbered if there are several, and a cause of several lines is set in as a whole.
-/

namespace ShaderComposer

inductive Failure where
  | badOptions (error : OptionsError)
  | noChain
  | unreadableFile (path : String) (error : FileError)
  | badChain (path : String) (error : ChainError)
  | badComposition (path : String) (error : CompositionError)
  | noDirectory (path : String) (error : FileError)
  | unwritableFile (path : String) (error : FileError)
deriving DecidableEq

/-- What is wrong with a chain, and what is behind that. -/
def ChainError.trail : ChainError → List String
  | unreadable error => ["failed to parse chain json", error.message]
  | invalid fault => [fault.message]

namespace Failure

def message : Failure → String
  | badOptions error => error.message
  | noChain => "--chain <chain.json> is required"
  | unreadableFile path _ => "failed to read chain json at " ++ path
  | badChain path _ => "invalid chain at " ++ path
  | badComposition path _ => "failed to stitch chain " ++ path
  | noDirectory path _ => "failed to create output dir " ++ path
  | unwritableFile path _ => "failed to write " ++ path

def causes : Failure → List String
  | badOptions _ | noChain => []
  | unreadableFile _ error | noDirectory _ error | unwritableFile _ error => [error.message]
  | badChain _ error => error.trail
  | badComposition _ error => error.trail

/-- A cause behind its lead, with `indentation` before its further lines. -/
def causeText (lead indentation cause : String) : String :=
  "\n" ++ lead ++
    String.ofList (cause.toList.flatMap fun c =>
      if c = '\n' then c :: indentation.toList else [c])

/-- A number at the right of a column of five. -/
def numberColumn (n : Nat) : String :=
  let digits := Nat.toDigits 10 n
  String.ofList (List.replicate (5 - digits.length) ' ' ++ digits)

/-- The causes of which the first has the given number. -/
def numberedCauses : Nat → List String → String
  | _, [] => ""
  | n, cause :: rest =>
    causeText (numberColumn n ++ ": ") "       " cause ++ numberedCauses (n + 1) rest

def causesText : List String → String
  | [] => ""
  | [cause] => "\n\nCaused by:" ++ causeText "    " "    " cause
  | causes => "\n\nCaused by:" ++ numberedCauses 0 causes

def report (failure : Failure) : String :=
  "Error: " ++ failure.message ++ causesText failure.causes

end Failure

end ShaderComposer
