import ShaderComposer.Chain.Basic
import ShaderComposer.Text.Identifier
import ShaderComposer.Text.Quoted

/-!
# Valid chains

What a chain must satisfy besides its form.  Its version says something, its stem
can begin an identifier, its name is the name of a file and no path, and its blurs
stay within bounds.  The checks are made in this order, and the first that fails
is reported.
-/

namespace ShaderComposer

inductive ChainFault where
  | blankVersion
  | badStem (stem : String)
  | badName (name : String)
  | largeRadius (index radius : Nat)
  | unboundedThreshold (index : Nat)
deriving DecidableEq

namespace ChainFault

def message : ChainFault → String
  | blankVersion => "chain version must not be empty"
  | badStem stem =>
    "manglePrefix must be a non-empty identifier prefix, got " ++ Text.quoted stem
  | badName name => "metadata.name must be a plain file name, got " ++ Text.quoted name
  | largeRadius index radius =>
    "effects[" ++ toString index ++ "]: blurRadius " ++ toString radius ++
      " exceeds the maximum of " ++ toString maxBlurRadius
  | unboundedThreshold index =>
    "effects[" ++ toString index ++ "]: luminanceThreshold must be finite"

end ChainFault

/-- Whether a name is the name of a file, without any way out of its directory. -/
def isPlainFileName (name : String) : Bool :=
  !name.toList.contains '/' && !name.toList.contains '\\' && name != "." && name != ".."

def ChainEffect.fault? (index : Nat) : ChainEffect → Option ChainFault
  | blur radius _ threshold =>
    if maxBlurRadius < radius then some (.largeRadius index radius)
    else if threshold.any (fun x => !x.isFinite) then some (.unboundedThreshold index)
    else none
  | adjust .. => none

namespace Chain

/-- The first fault among effects of which the first is at `index`. -/
def effectFault? : Nat → List ChainEffect → Option ChainFault
  | _, [] => none
  | index, effect :: rest => (effect.fault? index).or (effectFault? (index + 1) rest)

def fault? (chain : Chain) : Option ChainFault :=
  if Text.isBlankText chain.version then some .blankVersion
  else if !Text.isIdentifier chain.stem then some (.badStem chain.stem)
  else
    match chain.metadata.filter fun metadata => !isPlainFileName metadata.name with
    | some metadata => some (.badName metadata.name)
    | none => effectFault? 0 chain.effects

def Valid (chain : Chain) : Prop :=
  chain.fault? = none

instance (chain : Chain) : Decidable chain.Valid :=
  inferInstanceAs (Decidable (chain.fault? = none))

end Chain

end ShaderComposer
