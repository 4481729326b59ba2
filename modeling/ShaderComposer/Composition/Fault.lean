import ShaderComposer.Composition.Mangling

/-!
# Faulty passes

Three faults belong to a pass alone, whatever stands around it: a temporary whose
source its stage does not have, a call of a function that the part does not list,
and a call that leaves an input open.  They are reported with the mangled name of
the culprit.
-/

namespace ShaderComposer

/-- What is wrong with a call, given the functions of its part. -/
def Call.fault? (stem : String) (functions : List ShaderFunction) (call : Call) :
    Option CompositionError :=
  if (functions.map ShaderFunction.name).contains call.function.name then
    call.unbound?.map fun input => .unboundInput (stem ++ call.function.name) input.name
  else some (.undefinedFunction (stem ++ call.function.name))

def Temporary.fault? (stem : String) (stage : Stage) (temporary : Temporary) :
    Option CompositionError :=
  if temporary.availableIn stage then none
  else some (.unavailableInitializer (stem ++ temporary.name) temporary.initializer stage)

def Part.fault? (stem : String) (stage : Stage) (part : Part) : Option CompositionError :=
  (part.temporaries.findSome? (Temporary.fault? stem stage)).or
    (part.calls.findSome? (Call.fault? stem part.functions))

/-- The first fault of a pass, vertex stage before fragment stage. -/
def Pass.fault? (stem : String) (pass : Pass) : Option CompositionError :=
  (pass.vertex.bind (Part.fault? stem .vertex)).or
    (pass.fragment.bind (Part.fault? stem .fragment))

end ShaderComposer
