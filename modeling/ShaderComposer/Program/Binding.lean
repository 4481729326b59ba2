import ShaderComposer.Shading.Argument

/-!
# Bindings

The renderer binds the arguments of a program by slot.  Buffers, textures and
samplers are numbered apart from each other, each in the order of declaration,
so an argument's slot is the number of arguments of its kind before it.
-/

namespace ShaderComposer

/-- An argument with its slot, where its kind has slots. -/
structure Binding where
  argument : Argument
  slot : Option Nat
deriving DecidableEq

namespace Binding

def name (binding : Binding) : String := binding.argument.name

def slotAfter (earlier : List Argument) (argument : Argument) : Option Nat :=
  if argument.qualifier.hasSlot then
    some (earlier.countP fun other => other.qualifier = argument.qualifier)
  else none

def assignAfter : List Argument → List Argument → List Binding
  | _, [] => []
  | earlier, argument :: rest =>
    ⟨argument, slotAfter earlier argument⟩ :: assignAfter (argument :: earlier) rest

def assign (arguments : List Argument) : List Binding :=
  assignAfter [] arguments

/-- The declaration, where the dialect has one.  What has no slot is declared
as if at location zero. -/
def declaration? (binding : Binding) (dialect : Dialect) : Option String :=
  binding.argument.declaration? dialect (binding.slot.getD 0)

theorem map_argument_assignAfter (earlier arguments : List Argument) :
    (assignAfter earlier arguments).map Binding.argument = arguments := by
  induction arguments generalizing earlier with
  | nil => rfl
  | cons argument rest ih => simp [assignAfter, ih]

@[simp] theorem map_argument_assign (arguments : List Argument) :
    (assign arguments).map Binding.argument = arguments :=
  map_argument_assignAfter [] arguments

end Binding

end ShaderComposer
