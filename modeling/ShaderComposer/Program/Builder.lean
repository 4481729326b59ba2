import ShaderComposer.Program.Basic
import ShaderComposer.Program.Merge
import ShaderComposer.Shading.Catalog
import ShaderComposer.Shading.Pass

/-!
# Building a program

A builder collects the parts of one stage.  Building merges the declarations with
the catalog and then checks the body from top to bottom: each temporary must be
available in the stage, each call must be of a listed function and leave no input
open, and no variable may be declared twice.  The first fault is reported and
nothing is built.
-/

namespace ShaderComposer

structure Builder where
  dialect : Dialect
  stage : Stage
  part : Part := {}
deriving DecidableEq

namespace Builder

def append (builder : Builder) (part : Part) : Builder :=
  { builder with part := builder.part ++ part }

/-- The variables declared once the temporaries are added to those in
`declared`. -/
def declareTemporaries (stage : Stage) :
    List String → List Temporary → Except CompositionError (List String)
  | declared, [] => .ok declared
  | declared, temporary :: rest =>
    if !temporary.availableIn stage then
      .error (.unavailableInitializer temporary.name temporary.initializer stage)
    else if declared.contains temporary.name then
      .error (.nameCollision .var temporary.name)
    else declareTemporaries stage (temporary.name :: declared) rest

/-- The calls with their inputs filled in, given the functions there are and the
variables declared before. -/
def invocations (functions : List ShaderFunction) :
    List String → List Call → Except CompositionError (List Invocation)
  | _, [] => .ok []
  | declared, call :: rest =>
    if !(functions.map ShaderFunction.name).contains call.function.name then
      .error (.undefinedFunction call.function.name)
    else if declared.contains call.output then
      .error (.nameCollision .var call.output)
    else do
      let invocation ← call.invocation
      let others ← invocations functions (call.output :: declared) rest
      return invocation :: others

def build (builder : Builder) : Except CompositionError Program := do
  let part := builder.part
  let structs ←
    Merge.declarations StructDecl.name .struct (Catalog.structs builder.dialect) part.structs
  let arguments ←
    Merge.declarations Argument.name .argument
      (Catalog.arguments builder.dialect builder.stage) part.arguments
  let functions ← Merge.declarations ShaderFunction.name .function [] part.functions
  let declared ← declareTemporaries builder.stage [] part.temporaries
  let invocations ← invocations functions declared part.calls
  return {
    dialect := builder.dialect
    stage := builder.stage
    structs := structs
    bindings := Binding.assign arguments
    functions := functions
    temporaries := part.temporaries
    invocations := invocations
    output := part.output? }

end Builder

end ShaderComposer
