import ShaderComposer.Dialect
import ShaderComposer.Text.Lines

/-!
# Arguments and structs

An argument is something the renderer binds from outside.  Buffers, textures and
samplers each have a numbering of slots of their own; stage input and the vertex
index have none.  GL declares as uniforms what has a slot except samplers, which
it reaches through their textures; Metal declares every argument.
-/

namespace ShaderComposer

inductive Qualifier where
  | buffer
  | texture
  | sampler
  | stageIn
  | vertexId
deriving DecidableEq

namespace Qualifier

def name : Qualifier → String
  | buffer => "buffer"
  | texture => "texture"
  | sampler => "sampler"
  | stageIn => "stage_in"
  | vertexId => "vertex_id"

def hasSlot : Qualifier → Bool
  | buffer | texture | sampler => true
  | stageIn | vertexId => false

/-- The attribute that places an argument among an entry point's parameters. -/
def placement (location : Nat) : Qualifier → String
  | buffer => "buffer(" ++ toString location ++ ")"
  | texture => "texture(" ++ toString location ++ ")"
  | sampler => "sampler(" ++ toString location ++ ")"
  | stageIn => "stage_in"
  | vertexId => "vertex_id"

end Qualifier

structure Argument where
  type : String
  name : String
  qualifier : Qualifier
deriving DecidableEq

namespace Argument

/-- The declaration at a location, where the dialect has one. -/
def declaration? (argument : Argument) : Dialect → Nat → Option String
  | .gl, _ =>
    match argument.qualifier with
    | .buffer | .texture => some ("uniform " ++ argument.type ++ " " ++ argument.name ++ ";")
    | .sampler | .stageIn | .vertexId => none
  | .metal, location =>
    some (argument.type ++ " " ++ argument.name ++ " [[" ++
      argument.qualifier.placement location ++ "]]")

end Argument

structure StructDecl where
  name : String
  body : String
deriving DecidableEq

namespace StructDecl

def declaration (struct : StructDecl) : String :=
  "struct " ++ struct.name ++ "\n\x7b\n" ++ Text.indent 1 struct.body ++ "\n\x7d;"

end StructDecl

end ShaderComposer
