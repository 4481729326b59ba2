import ShaderComposer.Shading.Argument

/-!
# The catalog

The arguments and structs that every program of a dialect carries, whatever its
effects are.  Their names are fixed and never changed by a composition.
-/

namespace ShaderComposer

namespace Catalog

def arguments : Dialect → Stage → List Argument
  | .gl, .vertex => []
  | .gl, .fragment =>
    [⟨"sampler2D", "cc_PreviousPassTexture", .texture⟩,
      ⟨"sampler2D", "cc_MainTexture", .texture⟩,
      ⟨"vec2", "cc_PreviousPassTextureSize", .buffer⟩]
  | .metal, .vertex =>
    [⟨"const device CCVertex*", "cc_VertexAttributes", .buffer⟩,
      ⟨"unsigned int", "cc_VertexId", .vertexId⟩]
  | .metal, .fragment =>
    [⟨"const CCFragData", "cc_FragIn", .stageIn⟩,
      ⟨"texture2d<half>", "cc_PreviousPassTexture", .texture⟩,
      ⟨"sampler", "cc_PreviousPassTextureSampler", .sampler⟩,
      ⟨"texture2d<half>", "cc_MainTexture", .texture⟩,
      ⟨"sampler", "cc_MainTextureSampler", .sampler⟩]

def structs : Dialect → List StructDecl
  | .gl => []
  | .metal =>
    [⟨"CCVertex", "float4 position;\nfloat2 texCoord1;\nfloat2 texCoord2;\nfloat4 color;"⟩,
      ⟨"CCFragData",
        "float4 position [[position]];\nfloat2 texCoord1;\nfloat2 texCoord2;\nhalf4 color;"⟩]

def argumentNames (dialect : Dialect) (stage : Stage) : List String :=
  (arguments dialect stage).map Argument.name

def structNames (dialect : Dialect) : List String :=
  (structs dialect).map StructDecl.name

/-- Whether a stage's catalog holds an argument of this name. -/
def holds (dialect : Dialect) (stage : Stage) (name : String) : Bool :=
  (argumentNames dialect stage).contains name

theorem nodup_argumentNames (dialect : Dialect) (stage : Stage) :
    (argumentNames dialect stage).Nodup := by
  cases dialect <;> cases stage <;> decide

theorem nodup_structNames (dialect : Dialect) : (structNames dialect).Nodup := by
  cases dialect <;> decide

end Catalog

end ShaderComposer
