import ShaderComposer.Shading.Pass

/-!
# Effects

An effect is known by what it contributes: its passes in a dialect, and whether
its pass, when it has just one, may be composed with its neighbours'.
-/

namespace ShaderComposer

structure Effect where
  name : String
  joinable : Bool
  passes : Dialect → List Pass

end ShaderComposer
