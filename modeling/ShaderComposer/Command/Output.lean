import ShaderComposer.Manifest

/-!
# Output files

What a chain's shaders are written to: two sources for each pass and then one
manifest for all of them.  The names begin with the name of the chain and tell
pass, stage and dialect apart.
-/

namespace ShaderComposer

structure OutputFile where
  name : String
  text : String
deriving DecidableEq

def sourceName (chain : String) (index : Nat) (stage : Stage) (dialect : Dialect) : String :=
  chain ++ ".pass" ++ toString index ++ "." ++ stage.name ++ "." ++ dialect.extension

def manifestName (chain : String) : String :=
  chain ++ ".bindings.json"

def Shader.files (chain : String) (index : Nat) (shader : Shader) : List OutputFile :=
  [⟨sourceName chain index .vertex shader.dialect, shader.vertex.source⟩,
    ⟨sourceName chain index .fragment shader.dialect, shader.fragment.source⟩]

/-- The files of passes of which the first has the given index. -/
def sourceFilesFrom (chain : String) : Nat → List Shader → List OutputFile
  | _, [] => []
  | index, shader :: rest =>
    shader.files chain index ++ sourceFilesFrom chain (index + 1) rest

/-- All files of a chain, in the order they are written. -/
def outputFiles (chain : String) (shaders : List Shader) : List OutputFile :=
  sourceFilesFrom chain 0 shaders ++ [⟨manifestName chain, manifest shaders⟩]

theorem length_sourceFilesFrom (chain : String) (index : Nat) (shaders : List Shader) :
    (sourceFilesFrom chain index shaders).length = 2 * shaders.length := by
  induction shaders generalizing index with
  | nil => rfl
  | cons shader rest ih => simp [sourceFilesFrom, Shader.files, ih]; omega

theorem length_outputFiles (chain : String) (shaders : List Shader) :
    (outputFiles chain shaders).length = 2 * shaders.length + 1 := by
  simp [outputFiles, length_sourceFilesFrom]

end ShaderComposer
