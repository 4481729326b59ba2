import ShaderComposer.Composition.Shader
import ShaderComposer.Effect.Basic

/-!
# Effect stacks

A stack holds the effects of one renderable in the order they apply.  Consecutive
joinable effects of one pass share a render pass; every pass of any other effect
has a render pass of its own.  Passes are numbered through over the whole stack,
and without any there is one render pass that changes nothing.
-/

namespace ShaderComposer

structure EffectStack where
  effects : List Effect := []
  stem : String := defaultStem

namespace EffectStack

def push (stack : EffectStack) (effect : Effect) : EffectStack :=
  { stack with effects := stack.effects ++ [effect] }

/-- A collected run of passes as a list, unless there is nothing in it. -/
def flush (pending : List Pass) : List (List Pass) :=
  if pending.isEmpty then [] else [pending]

/-- The lists of the effects that follow, `pending` being the run of passes
collected so far. -/
def listsFrom (dialect : Dialect) : List Pass → List Effect → List (List Pass)
  | pending, [] => flush pending
  | pending, effect :: rest =>
    match effect.passes dialect, effect.joinable with
    | [], _ => listsFrom dialect pending rest
    | [pass], true => listsFrom dialect (pending ++ [pass]) rest
    | passes, _ => flush pending ++ passes.map (fun pass => [pass]) ++ listsFrom dialect [] rest

def lists (stack : EffectStack) (dialect : Dialect) : List (List Pass) :=
  listsFrom dialect [] stack.effects

/-- The shaders of lists that begin at a list index and a pass index. -/
def composeFrom (dialect : Dialect) (stem : String) :
    Nat → Nat → List (List Pass) → Except CompositionError (List Shader)
  | _, _, [] => .ok []
  | listIndex, startIndex, passes :: rest => do
    let shader ← Setting.compose ⟨dialect, stem, listIndex, startIndex⟩ passes
    let others ← composeFrom dialect stem (listIndex + 1) (startIndex + passes.length) rest
    return shader :: others

def build (stack : EffectStack) (dialect : Dialect) : Except CompositionError (List Shader) :=
  match stack.lists dialect with
  | [] => do
    let shader ← Setting.compose ⟨dialect, stack.stem, 0, 0⟩ []
    return [shader]
  | lists => composeFrom dialect stack.stem 0 0 lists

end EffectStack

end ShaderComposer
