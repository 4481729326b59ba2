import ShaderComposer.Program.Binding
import ShaderComposer.Shading.Call

/-!
# Programs

A program is one finished stage: declarations under distinct names, a body of
statements, and the variable that is written back.  Its text is a function of
these, so whatever is known of the program is known of its source.
-/

namespace ShaderComposer

inductive Statement where
  | declare (temporary : Temporary)
  | invoke (invocation : Invocation)
deriving DecidableEq

namespace Statement

def target : Statement → String
  | declare temporary => temporary.name
  | invoke invocation => invocation.output

def text (dialect : Dialect) : Statement → String
  | declare temporary => temporary.declaration dialect
  | invoke invocation => invocation.statement

end Statement

structure Program where
  dialect : Dialect
  stage : Stage
  structs : List StructDecl
  bindings : List Binding
  functions : List ShaderFunction
  temporaries : List Temporary
  invocations : List Invocation
  /-- The variable written back; without one the stage's input passes through. -/
  output : Option String
deriving DecidableEq

namespace Program

def body (program : Program) : List Statement :=
  program.temporaries.map .declare ++ program.invocations.map .invoke

end Program

end ShaderComposer
