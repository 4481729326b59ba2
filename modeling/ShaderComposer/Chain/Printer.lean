import ShaderComposer.Chain.Basic
import ShaderComposer.Document.Printer

/-!
# Chains as documents

How a chain is written: every field in a fixed order, those that hold nothing as
null, and each effect under the name of its type.
-/

namespace ShaderComposer

def Document.ofOption (item : α → Document) : Option α → Document
  | none => .null
  | some value => item value

def Document.ofFloat32 (x : Float32) : Document :=
  .number (.single x)

def Document.ofNat (n : Nat) : Document :=
  .number (.natural n)

def Adjustment.fieldName : Adjustment → String
  | brightness => "brightness"
  | contrast => "contrast"
  | saturation => "saturation"

def ChainEffect.document : ChainEffect → Document
  | blur radius linearFiltering threshold =>
    .object
      [("type", .string "BlurReference"),
        ("blurRadius", .ofNat radius),
        ("linearFiltering", .bool linearFiltering),
        ("luminanceThreshold", .ofOption .ofFloat32 threshold)]
  | adjust adjustment amount =>
    .object
      [("type", .string adjustment.name), (adjustment.fieldName, .ofFloat32 amount)]

def Metadata.document (metadata : Metadata) : Document :=
  .object
    [("name", .string metadata.name),
      ("created", .ofOption .string metadata.created),
      ("modified", .ofOption .string metadata.modified)]

def Dialect.document (dialect : Dialect) : Document :=
  .string dialect.name

def Chain.document (chain : Chain) : Document :=
  .object
    [("version", .string chain.version),
      ("metadata", .ofOption Metadata.document chain.metadata),
      ("dialect", chain.dialect.document),
      ("manglePrefix", .string chain.stem),
      ("effects", .array (chain.effects.map ChainEffect.document))]

def Chain.text (chain : Chain) : String :=
  chain.document.text

def StructDecl.document (struct : StructDecl) : Document :=
  .object [("name", .string struct.name), ("body", .string struct.body)]

/-- A parameter value with 32-bit floats as `number` writes them. -/
def Value.document (number : Float32 → Number) (value : Value) : Document :=
  .object
    [("type", .string value.kind),
      ("value",
        match value with
        | .float x => .number (number x)
        | _ => .array (value.components.map fun x => .number (number x)))]

end ShaderComposer
