import ShaderComposer.Composition.Fault
import ShaderComposer.Program.Builder
import ShaderComposer.Program.Source

/-!
# Composing a list of passes

A list of passes becomes one shader, that is one program per stage.  In each
stage the parts follow one another as a chain: a part's chain input is the result
of the closest part before it that computes one.  A faulty pass is reported with
its position; with none, the two programs are built from the renamed parts.
-/

namespace ShaderComposer

/-- Where a list of passes stands: what it is written in, the stem of its names,
its index among the lists of a stack, and the position of its first pass among
all passes. -/
structure Setting where
  dialect : Dialect
  stem : String
  listIndex : Nat
  startIndex : Nat
deriving DecidableEq

/-- The stem that a chain of effects has unless it names its own. -/
def defaultStem : String := "cc_"

structure Link where
  position : Nat
  part : Part
  /-- The result of the chain before the part. -/
  previous : Option String
deriving DecidableEq

/-- A value and the argument it goes to in the composed shader. -/
structure BoundParameter where
  shaderIndex : Nat
  localName : String
  name : String
  value : Value
deriving DecidableEq

/-- Both programs of a composed pass and what the renderer needs for them. -/
structure Shader where
  dialect : Dialect
  vertex : Program
  fragment : Program
  structs : List StructDecl
  parameters : List BoundParameter
deriving DecidableEq

namespace Setting

variable (setting : Setting)

/-- The stem of the pass at a position of the list. -/
def stemAt (position : Nat) : String :=
  effectStem setting.stem (setting.startIndex + position)

def resultAfter (position : Nat) (part : Part) (previous : Option String) : Option String :=
  (part.output?.map fun output => setting.stemAt position ++ output).or previous

/-- The parts of a stage among passes that begin at `position`, after a chain
whose result is `previous`. -/
def linksFrom (stage : Stage) : Nat → Option String → List Pass → List Link
  | _, _, [] => []
  | position, previous, pass :: rest =>
    match pass.part? stage with
    | none => linksFrom stage (position + 1) previous rest
    | some part =>
      ⟨position, part, previous⟩ ::
        linksFrom stage (position + 1) (setting.resultAfter position part previous) rest

def links (stage : Stage) (passes : List Pass) : List Link :=
  setting.linksFrom stage 0 none passes

def mangling (stage : Stage) (link : Link) : Mangling where
  dialect := setting.dialect
  stage := stage
  stem := setting.stemAt link.position
  later := decide (0 < setting.listIndex)
  previous := link.previous

def builder (stage : Stage) (passes : List Pass) : Builder where
  dialect := setting.dialect
  stage := stage
  part :=
    Part.concat
      ((setting.links stage passes).map fun link =>
        (setting.mangling stage link).part link.part)

/-- Whether a name is in the catalog of either stage. -/
def catalogued (name : String) : Bool :=
  Catalog.holds setting.dialect .vertex name || Catalog.holds setting.dialect .fragment name

def parametersAt (position : Nat) (pass : Pass) : List BoundParameter :=
  pass.parameters.map fun parameter =>
    { shaderIndex := setting.startIndex + position
      localName := parameter.name
      name :=
        if setting.catalogued parameter.name then parameter.name
        else setting.stemAt position ++ parameter.name
      value := parameter.value }

/-- The values of all passes, those of the first at `position`. -/
def parametersFrom : Nat → List Pass → List BoundParameter
  | _, [] => []
  | position, pass :: rest =>
    setting.parametersAt position pass ++ parametersFrom (position + 1) rest

/-- The first faulty pass among passes that begin at `position`. -/
def faultFrom? : Nat → List Pass → Option CompositionError
  | _, [] => none
  | position, pass :: rest =>
    match pass.fault? (setting.stemAt position) with
    | some fault => some (.inEffect position fault)
    | none => faultFrom? (position + 1) rest

def fault? (passes : List Pass) : Option CompositionError :=
  setting.faultFrom? 0 passes

/-- The structs of two programs, each name once, the fragment's first. -/
def sharedStructs (vertex fragment : Program) : List StructDecl :=
  fragment.structs ++
    vertex.structs.filter fun struct =>
      !(fragment.structs.map StructDecl.name).contains struct.name

def compose (passes : List Pass) : Except CompositionError Shader :=
  match setting.fault? passes with
  | some fault => .error fault
  | none => do
    let vertex ← (setting.builder .vertex passes).build
    let fragment ← (setting.builder .fragment passes).build
    return {
      dialect := setting.dialect
      vertex := vertex
      fragment := fragment
      structs := sharedStructs vertex fragment
      parameters := setting.parametersFrom 0 passes }

end Setting

def Shader.passThrough (dialect : Dialect) : Except CompositionError Shader :=
  Setting.compose ⟨dialect, defaultStem, 0, 0⟩ []

end ShaderComposer
