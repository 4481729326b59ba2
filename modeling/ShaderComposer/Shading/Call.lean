import ShaderComposer.Shading.Actuals
import ShaderComposer.Shading.CompositionError
import ShaderComposer.Text.Lines

/-!
# Functions and their calls

A shader function is the same text in both dialects.  A call carries the function
it was written for, names the variable that receives the result, and gives an
expression for every input; a call with a missing expression has no text.
-/

namespace ShaderComposer

structure Formal where
  type : String
  name : String
deriving DecidableEq

structure ShaderFunction where
  name : String
  body : String
  inputs : List Formal
  returnType : String
deriving DecidableEq

namespace ShaderFunction

def declaration (function : ShaderFunction) : String :=
  function.returnType ++ " " ++ function.name ++ "(" ++
    Text.joinWith ", " (function.inputs.map fun input => input.type ++ " " ++ input.name) ++ ")"

def definition (function : ShaderFunction) : String :=
  function.declaration ++ "\n\x7b\n" ++ Text.indent 1 function.body ++ "\n\x7d"

end ShaderFunction

/-- A call with an expression for each input of its function, in their order. -/
structure Invocation where
  resultType : String
  output : String
  function : String
  arguments : List String
deriving DecidableEq

namespace Invocation

def expression (invocation : Invocation) : String :=
  invocation.function ++ "(" ++ Text.joinWith ", " invocation.arguments ++ ")"

/-- The declaration of the output, with the result of the call as its value. -/
def statement (invocation : Invocation) : String :=
  invocation.resultType ++ " " ++ invocation.output ++ " = " ++ invocation.expression ++ ";"

end Invocation

structure Call where
  function : ShaderFunction
  output : String
  inputs : Actuals
deriving DecidableEq

namespace Call

def unbound? (call : Call) : Option Formal :=
  call.function.inputs.find? fun input => (call.inputs.get? input.name).isNone

def arguments (call : Call) : List String :=
  call.function.inputs.map fun input => (call.inputs.get? input.name).getD ""

def invocation (call : Call) : Except CompositionError Invocation :=
  match call.unbound? with
  | some input => .error (.unboundInput call.function.name input.name)
  | none =>
    .ok
      { resultType := call.function.returnType
        output := call.output
        function := call.function.name
        arguments := call.arguments }

def expression (call : Call) : Except CompositionError String :=
  call.invocation.map Invocation.expression

def statement (call : Call) : Except CompositionError String :=
  call.invocation.map Invocation.statement

theorem unbound?_eq_none_iff (call : Call) :
    call.unbound? = none ↔
      ∀ input ∈ call.function.inputs, (call.inputs.get? input.name).isSome := by
  simp [unbound?, List.find?_eq_none, Option.isSome_iff_ne_none]

end Call

end ShaderComposer
