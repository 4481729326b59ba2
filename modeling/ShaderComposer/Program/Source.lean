import ShaderComposer.Program.Basic

/-!
# Source text

How a program is written in each dialect.  Both have the sections header,
structs, functions and entry point, set apart by empty lines.  GL lists its
uniforms between structs and functions and works on global variables; Metal lists
its arguments as parameters of the entry point and returns its result.
-/

namespace ShaderComposer

namespace Program

def header : Dialect → Stage → String
  | .gl, .vertex =>
    "attribute vec4 cc_Position;\n" ++
    "attribute vec2 cc_TexCoord1;\n" ++
    "attribute vec2 cc_TexCoord2;\n" ++
    "attribute vec4 cc_Color;\n\n" ++
    "varying vec4 cc_FragColor;\n" ++
    "varying vec2 cc_FragTexCoord1;\n" ++
    "varying vec2 cc_FragTexCoord2;"
  | .gl, .fragment =>
    "#ifdef GL_ES\n" ++
    "precision mediump float;\n" ++
    "#endif\n\n" ++
    "varying vec4 cc_FragColor;\n" ++
    "varying vec2 cc_FragTexCoord1;\n" ++
    "varying vec2 cc_FragTexCoord2;"
  | .metal, _ => "#include <metal_stdlib>\nusing namespace metal;"

/-- What a stage writes back when no effect computes anything. -/
def untouched : Dialect → Stage → String
  | .gl, .vertex => "cc_Position"
  | .gl, .fragment => "cc_FragColor * texture2D(cc_MainTexture, cc_FragTexCoord1)"
  | .metal, .vertex => "cc_VertexAttributes[cc_VertexId].position"
  | .metal, .fragment =>
    "cc_FragIn.color * cc_MainTexture.sample(cc_MainTextureSampler, cc_FragIn.texCoord1)"

def result (program : Program) : String :=
  program.output.getD (untouched program.dialect program.stage)

def writeBack : Dialect → Stage → String → List String
  | .gl, .vertex, result =>
    ["gl_Position = " ++ result ++ ";",
      "cc_FragColor = clamp(cc_Color, 0.0, 1.0);",
      "cc_FragTexCoord1 = cc_TexCoord1;",
      "cc_FragTexCoord2 = cc_TexCoord2;"]
  | .gl, .fragment, result => ["gl_FragColor = " ++ result ++ ";"]
  | .metal, .vertex, result =>
    ["CCFragData cc_FragOut;",
      "cc_FragOut.position = " ++ result ++ ";",
      "cc_FragOut.texCoord1 = cc_VertexAttributes[cc_VertexId].texCoord1;",
      "cc_FragOut.texCoord2 = cc_VertexAttributes[cc_VertexId].texCoord2;",
      "cc_FragOut.color = saturate(half4(cc_VertexAttributes[cc_VertexId].color));",
      "return cc_FragOut;"]
  | .metal, .fragment, result => ["return " ++ result ++ ";"]

def mainLines (program : Program) : List String :=
  program.body.map (Statement.text program.dialect) ++
    writeBack program.dialect program.stage program.result

def argumentDeclarations (program : Program) : List String :=
  program.bindings.filterMap fun binding => binding.declaration? program.dialect

/-- The first line of the entry point; Metal puts each parameter on its own. -/
def entry (program : Program) : String :=
  match program.dialect, program.stage with
  | .gl, _ => "void main()"
  | .metal, .vertex => "vertex CCFragData ShaderVertexFunction(" ++ parameters ++ ")"
  | .metal, .fragment => "fragment half4 ShaderFragmentFunction(" ++ parameters ++ ")"
where
  parameters := "\n    " ++ Text.joinWith ",\n    " program.argumentDeclarations

def optionalSection (separator : String) (texts : List String) : List String :=
  if texts.isEmpty then [] else [Text.joinWith separator texts]

def sections (program : Program) : List String :=
  [header program.dialect program.stage] ++
    optionalSection "\n\n" (program.structs.map StructDecl.declaration) ++
    (match program.dialect with
      | .gl => optionalSection "\n" program.argumentDeclarations
      | .metal => []) ++
    optionalSection "\n\n" (program.functions.map ShaderFunction.definition) ++
    [program.entry ++ "\n\x7b\n" ++
      Text.indent 1 (Text.joinWith "\n" program.mainLines) ++ "\n\x7d"]

def source (program : Program) : String :=
  Text.joinWith "\n\n" program.sections ++ "\n"

end Program

end ShaderComposer
