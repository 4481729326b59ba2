import ShaderComposer.Dialect

/-!
# Temporaries and where they start

A temporary is a variable at the top of a shader's main body.  It starts from
one of a few sources, and a source is available in one stage only.  Promotion
replaces a fragment source by the one that later render passes read: there the
color is already applied and both textures are the output of the pass before.
-/

namespace ShaderComposer

inductive Initializer where
  | vertexAttributes
  | fragColor
  | mainTexture
  | previousPass
  | reserved0
  | reserved1
  | reserved2
deriving DecidableEq

namespace Initializer

def all : List Initializer :=
  [vertexAttributes, fragColor, mainTexture, previousPass, reserved0, reserved1, reserved2]

def name : Initializer → String
  | vertexAttributes => "VertexAttributes"
  | fragColor => "FragColor"
  | mainTexture => "MainTexture"
  | previousPass => "PreviousPass"
  | reserved0 => "Reserved0"
  | reserved1 => "Reserved1"
  | reserved2 => "Reserved2"

/-- How far a reserved source's code lies above that of its base. -/
def reserveOffset : Nat := 8

def code : Initializer → Nat
  | vertexAttributes => 0
  | fragColor => 1
  | mainTexture => 2
  | previousPass => 3
  | reserved0 => 1 + reserveOffset
  | reserved1 => 2 + reserveOffset
  | reserved2 => 3 + reserveOffset

def ofCode? (code : Nat) : Option Initializer :=
  all.find? fun initializer => initializer.code = code

@[simp] theorem ofCode?_code (initializer : Initializer) :
    ofCode? initializer.code = some initializer := by
  cases initializer <;> decide

/-- The source that stands in for this one in a later pass. -/
def promote : Initializer → Initializer
  | fragColor => reserved0
  | mainTexture => reserved1
  | previousPass => reserved2
  | other => other

def isReserved : Initializer → Bool
  | reserved0 | reserved1 | reserved2 => true
  | _ => false

@[simp] theorem promote_promote (initializer : Initializer) :
    initializer.promote.promote = initializer.promote := by
  cases initializer <;> rfl

def stage : Initializer → Stage
  | vertexAttributes => .vertex
  | _ => .fragment

def availableIn (initializer : Initializer) (stage : Stage) : Bool :=
  initializer.stage = stage

@[simp] theorem stage_promote (initializer : Initializer) :
    initializer.promote.stage = initializer.stage := by
  cases initializer <;> rfl

/-- The source through which a stage's input enters a chain of effects. -/
def chainInput : Stage → Initializer
  | .vertex => vertexAttributes
  | .fragment => previousPass

def expression : Dialect → Initializer → String
  | .gl, vertexAttributes => "cc_Position"
  | .gl, fragColor => "cc_FragColor"
  | .gl, mainTexture => "texture2D(cc_MainTexture, cc_FragTexCoord1)"
  | .gl, reserved0 => "vec4(1.0)"
  | .gl, _ => "texture2D(cc_PreviousPassTexture, cc_FragTexCoord1)"
  | .metal, vertexAttributes => "cc_VertexAttributes[cc_VertexId].position"
  | .metal, fragColor => "cc_FragIn.color"
  | .metal, mainTexture => "cc_MainTexture.sample(cc_MainTextureSampler, cc_FragIn.texCoord1)"
  | .metal, reserved0 => "half4(1.0)"
  | .metal, _ =>
    "cc_PreviousPassTexture.sample(cc_PreviousPassTextureSampler, cc_FragIn.texCoord1)"

end Initializer

/-- A typed variable declared at the top of the main body. -/
structure Temporary where
  type : String
  name : String
  initializer : Initializer
deriving DecidableEq

namespace Temporary

def availableIn (temporary : Temporary) (stage : Stage) : Bool :=
  temporary.initializer.availableIn stage

def declaration (temporary : Temporary) (dialect : Dialect) : String :=
  temporary.type ++ " " ++ temporary.name ++ " = " ++
    temporary.initializer.expression dialect ++ ";"

end Temporary

end ShaderComposer
