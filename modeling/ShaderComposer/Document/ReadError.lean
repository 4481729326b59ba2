import ShaderComposer.Document.Basic
import ShaderComposer.Text.Lines
import ShaderComposer.Text.Quoted

/-!
# Why a document cannot be read

A text may be no document, it may stop before its document is complete, or it is
a document that does not have the shape that is wanted.  In the last case the
mismatch tells what was found and what was expected.
-/

namespace ShaderComposer

inductive Found where
  | null
  | bool (value : Bool)
  | number (value : Number)
  | string (value : String)
  | sequence
  | map
deriving DecidableEq

namespace Found

def describe : Found → String
  | null => "null"
  | bool value => "boolean `" ++ (if value then "true" else "false") ++ "`"
  | number value =>
    match value with
    | .natural _ | .negative _ => "integer `" ++ String.ofList value.text ++ "`"
    | .single _ | .double _ => "floating point `" ++ String.ofList value.text ++ "`"
  | string value => "string " ++ Text.quoted value
  | sequence => "sequence"
  | map => "map"

end Found

def Document.found : Document → Found
  | .null => .null
  | .bool value => .bool value
  | .number value => .number value
  | .string value => .string value
  | .array _ => .sequence
  | .object _ => .map

/-- How the shape of a document differs from the one that is wanted. -/
inductive Mismatch where
  | invalidType (found : Found) (expected : String)
  | invalidValue (found : Found) (expected : String)
  | invalidLength (length : Nat) (expected : String)
  | unknownVariant (given : String) (variants : List String)
  | duplicateField (name : String)
  | missingField (name : String)
deriving DecidableEq

namespace Mismatch

def inTicks (text : String) : String :=
  "`" ++ text ++ "`"

def choices : List String → String
  | [] => "there are no variants"
  | [one] => "expected " ++ inTicks one
  | [one, other] => "expected " ++ inTicks one ++ " or " ++ inTicks other
  | variants => "expected one of " ++ Text.joinWith ", " (variants.map inTicks)

def message : Mismatch → String
  | invalidType found expected =>
    "invalid type: " ++ found.describe ++ ", expected " ++ expected
  | invalidValue found expected =>
    "invalid value: " ++ found.describe ++ ", expected " ++ expected
  | invalidLength length expected =>
    "invalid length " ++ toString length ++ ", expected " ++ expected
  | unknownVariant given variants =>
    "unknown variant " ++ inTicks given ++ ", " ++ choices variants
  | duplicateField name => "duplicate field " ++ inTicks name
  | missingField name => "missing field " ++ inTicks name

end Mismatch

inductive ReadError where
  /-- The text is not a document. -/
  | malformed
  /-- The text ends inside its document. -/
  | truncated
  /-- The document has another shape. -/
  | mismatch (cause : Mismatch)
deriving DecidableEq

namespace ReadError

def message : ReadError → String
  | malformed => "malformed document"
  | truncated => "unexpected end of document"
  | mismatch cause => cause.message

end ReadError

end ShaderComposer
