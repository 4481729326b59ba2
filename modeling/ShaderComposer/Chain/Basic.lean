import ShaderComposer.Effect.Blur
import ShaderComposer.Effect.Color
import ShaderComposer.Stack

/-!
# Chains

A chain describes the effects of one renderable: which effects, with which
settings, in which dialect and under which stem of names.  It says what to build;
the stack of effects is built from it.
-/

namespace ShaderComposer

inductive ChainEffect where
  | blur (radius : Nat) (linearFiltering : Bool) (threshold : Option Float32)
  | adjust (adjustment : Adjustment) (amount : Float32)
deriving DecidableEq

def ChainEffect.effect : ChainEffect → Effect
  | blur radius linearFiltering threshold =>
    let plain : ReferenceBlur := { radius := radius }
    ((plain.withLinearFiltering linearFiltering).withThreshold threshold).effect
  | adjust adjustment amount => adjustment.effect amount

structure Metadata where
  name : String
  created : Option String
  modified : Option String
deriving DecidableEq

structure Chain where
  version : String
  metadata : Option Metadata := none
  dialect : Dialect := .gl
  stem : String := defaultStem
  effects : List ChainEffect := []
deriving DecidableEq

namespace Chain

def defaultName : String := "chain"

def name (chain : Chain) : String :=
  match chain.metadata with
  | none => defaultName
  | some metadata => if Text.isBlankText metadata.name then defaultName else metadata.name

def stack (chain : Chain) : EffectStack where
  effects := chain.effects.map ChainEffect.effect
  stem := chain.stem

def build (chain : Chain) : Except CompositionError (List Shader) :=
  chain.stack.build chain.dialect

end Chain

end ShaderComposer
