import ShaderComposer.Shading.Catalog
import ShaderComposer.Shading.Pass

/-!
# Mangling

Effects choose their names without knowing of each other.  Every name an effect
brings is put behind a stem that belongs to its position in the whole stack, so
two effects never meet under one name.  Names of the catalog, names of structs
and the inputs of functions stay as they are.

The same step threads the chain.  The temporaries that read a stage's input are
dropped when an earlier effect already has a result, and whatever named them
names that result instead.
-/

namespace ShaderComposer

/-- The stem of the names of the effect at `index`. -/
def effectStem (stem : String) (index : Nat) : String :=
  stem ++ toString index ++ "_"

structure Mangling where
  dialect : Dialect
  stage : Stage
  stem : String
  /-- Whether the part belongs to a list other than the first. -/
  later : Bool
  /-- The variable with the result of the effects before, if they have one. -/
  previous : Option String

namespace Mangling

variable (mangling : Mangling)

def mangle (name : String) : String :=
  mangling.stem ++ name

def readsChain (initializer : Initializer) : Bool :=
  initializer = Initializer.chainInput mangling.stage

/-- The source a temporary is really declared with.  In the fragment stage the
chain's input is the pass before, and in a later list everything is. -/
def source (initializer : Initializer) : Initializer :=
  if mangling.stage = .fragment && (mangling.readsChain initializer || mangling.later) then
    initializer.promote
  else initializer

def standIn? (temporary : Temporary) : Option String :=
  if mangling.readsChain temporary.initializer then mangling.previous else none

/-- The temporary to declare, unless a result stands in for it. -/
def temporary? (temporary : Temporary) : Option Temporary :=
  match mangling.standIn? temporary with
  | some _ => none
  | none =>
    some
      { type := temporary.type
        name := mangling.mangle temporary.name
        initializer := mangling.source temporary.initializer }

def keeps (name : String) : Bool :=
  Catalog.holds mangling.dialect mangling.stage name

def argument (argument : Argument) : Argument :=
  if mangling.keeps argument.name then argument
  else { argument with name := mangling.mangle argument.name }

def function (function : ShaderFunction) : ShaderFunction :=
  { function with name := mangling.mangle function.name }

/-- What a name used as an actual input stands for: an output of the part before
an argument, an argument before a temporary, and of several temporaries the last.
Any other text is an expression of its own. -/
def resolve (part : Part) (name : String) : String :=
  if (part.calls.map Call.output).contains name then mangling.mangle name
  else if (part.arguments.map Argument.name).contains name && !mangling.keeps name then
    mangling.mangle name
  else
    match part.temporaries.reverse.find? fun temporary => temporary.name = name with
    | some temporary => (mangling.standIn? temporary).getD (mangling.mangle name)
    | none => name

def call (part : Part) (call : Call) : Call where
  function := mangling.function call.function
  output := mangling.mangle call.output
  inputs := call.inputs.map (mangling.resolve part)

def part (part : Part) : Part where
  functions := part.functions.map mangling.function
  calls := part.calls.map (mangling.call part)
  temporaries := part.temporaries.filterMap mangling.temporary?
  arguments := part.arguments.map mangling.argument
  structs := part.structs

@[simp] theorem output?_part (part : Part) :
    (mangling.part part).output? = part.output?.map mangling.mangle := by
  simp [Part.output?, Mangling.part, List.getLast?_map, Function.comp_def, Mangling.call]

end Mangling

end ShaderComposer
