import ShaderComposer.Shading.Temporary

/-!
# What can be wrong with a composition

Every failure is a property of the pieces that were put together, so none goes
away on a second attempt.  An error found while looking at one effect says which
one; positions count within the list that is composed.
-/

namespace ShaderComposer

/-- What kind of declaration clashes.  Temporaries and call outputs are both
variables. -/
inductive DeclarationKind where
  | argument
  | struct
  | function
  | var
deriving DecidableEq

def DeclarationKind.name : DeclarationKind → String
  | argument => "argument"
  | struct => "struct"
  | function => "function"
  | var => "variable"

inductive CompositionError where
  | nameCollision (kind : DeclarationKind) (name : String)
  | unboundInput (function input : String)
  | undefinedFunction (function : String)
  | unavailableInitializer (temporary : String) (initializer : Initializer) (stage : Stage)
  | inEffect (index : Nat) (cause : CompositionError)
deriving DecidableEq

namespace CompositionError

def root : CompositionError → CompositionError
  | inEffect _ cause => cause.root
  | other => other

/-- The position of the effect at fault, if the error carries one. -/
def effectIndex? : CompositionError → Option Nat
  | inEffect index _ => some index
  | _ => none

def message : CompositionError → String
  | nameCollision kind name =>
    kind.name ++ " `" ++ name ++ "` is declared more than once with conflicting definitions"
  | unboundInput function input =>
    "call to `" ++ function ++ "` has no binding for input `" ++ input ++ "`"
  | undefinedFunction function =>
    "call to `" ++ function ++ "`, which is not defined in the shader"
  | unavailableInitializer temporary initializer stage =>
    "temporary `" ++ temporary ++ "` uses initializer " ++ initializer.name ++
      ", which is not available in the " ++ stage.name ++ " stage"
  | inEffect index cause => "effect " ++ toString index ++ ": " ++ cause.message

/-- The messages of an error and of the errors behind it, outermost first. -/
def trail : CompositionError → List String
  | inEffect index cause => (inEffect index cause).message :: cause.trail
  | other => [other.message]

@[simp] theorem root_inEffect (index : Nat) (cause : CompositionError) :
    (inEffect index cause).root = cause.root := rfl

@[simp] theorem root_root (error : CompositionError) : error.root.root = error.root := by
  induction error with
  | inEffect index cause ih => exact ih
  | _ => rfl

end CompositionError

end ShaderComposer
