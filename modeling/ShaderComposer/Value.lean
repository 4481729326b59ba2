/-!
# Parameter values

What an effect supplies at draw time for one of its arguments: one, two or four
32-bit floats.
-/

namespace ShaderComposer

inductive Value where
  | float (x : Float32)
  | vec2 (x y : Float32)
  | vec4 (x y z w : Float32)
deriving DecidableEq

namespace Value

def kind : Value → String
  | float _ => "float"
  | vec2 .. => "vec2"
  | vec4 .. => "vec4"

def components : Value → List Float32
  | float x => [x]
  | vec2 x y => [x, y]
  | vec4 x y z w => [x, y, z, w]

/-- The four bytes of a word, the least significant first. -/
def littleEndian (word : UInt32) : List UInt8 :=
  [word.toUInt8, (word >>> 8).toUInt8, (word >>> 16).toUInt8, (word >>> 24).toUInt8]

def bytes (value : Value) : List UInt8 :=
  value.components.flatMap fun x => littleEndian x.toBits

theorem length_bytes (value : Value) : value.bytes.length = 4 * value.components.length := by
  cases value <;> rfl

end Value

end ShaderComposer
