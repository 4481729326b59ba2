import ShaderComposer.Chain.Printer

/-!
# The manifest

What a renderer has to know besides the sources: for every pass the arguments of
its two programs with their slots, the structs it declares and the values it
starts with.  Members stand in alphabetical order.  Values are widened to 64 bits
before they are written, so they show all the digits of their exact value that 64
bits need.
-/

namespace ShaderComposer

def Binding.document (binding : Binding) : Document :=
  .object
    [("name", .string binding.name),
      ("qualifier", .string binding.argument.qualifier.name),
      ("slot", .ofOption .ofNat binding.slot),
      ("type", .string binding.argument.type)]

/-- A 32-bit float with the digits that 64 bits need. -/
def Number.widened (x : Float32) : Number :=
  .double (Binary.widen x)

def BoundParameter.document (parameter : BoundParameter) : Document :=
  .object
    [("localName", .string parameter.localName),
      ("name", .string parameter.name),
      ("shaderIndex", .ofNat parameter.shaderIndex),
      ("value", parameter.value.document Number.widened)]

/-- What the manifest says of the pass at an index. -/
def Shader.manifestEntry (index : Nat) (shader : Shader) : Document :=
  .object
    [("fragmentBindings", .array (shader.fragment.bindings.map Binding.document)),
      ("parameters", .array (shader.parameters.map BoundParameter.document)),
      ("pass", .ofNat index),
      ("structs", .array (shader.structs.map fun struct => .string struct.name)),
      ("vertexBindings", .array (shader.vertex.bindings.map Binding.document))]

/-- The manifest of passes of which the first has the given index. -/
def manifestFrom : Nat → List Shader → List Document
  | _, [] => []
  | index, shader :: rest => shader.manifestEntry index :: manifestFrom (index + 1) rest

/-- The manifest of all passes, as it is written to its file. -/
def manifest (shaders : List Shader) : String :=
  (Document.array (manifestFrom 0 shaders)).prettyText

end ShaderComposer
