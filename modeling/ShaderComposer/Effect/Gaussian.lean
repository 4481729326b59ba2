import ShaderComposer.Decimal.Binary

/-!
# Gaussian weights

How far a Gaussian blur of a given radius samples, and with which weights.  The
radius asked for is cut to the taps that still show at eight bits of color.  With
linear filtering two neighbouring taps become one sample between them; only a
bounded number of such samples is unrolled, and the taps beyond them are left to
be sampled one by one.
-/

namespace ShaderComposer

structure BlurOptions where
  linearFiltering : Bool := false
  luminanceThreshold : Bool := false
deriving DecidableEq

namespace BlurOptions

def bits (options : BlurOptions) : Nat :=
  options.linearFiltering.toNat + 2 * options.luminanceThreshold.toNat

end BlurOptions

def maxMergedSamples : Nat := 6

def maxBlurRadius : Nat := 256

structure BlurParams where
  /-- The radius asked for. -/
  trueRadius : Nat
  /-- The radius that is sampled. -/
  radius : Nat
  mergedSamples : Nat
  /-- The number of merged samples the radius asked for would take. -/
  trueMergedSamples : Nat
  sigma : Float32
  luminanceThreshold : Bool
deriving DecidableEq

namespace BlurParams

/-- Whether pairs of taps are merged, as the numbers of samples tell. -/
def linearFiltering (params : BlurParams) : Bool :=
  params.trueMergedSamples < params.trueRadius

/-- The standard deviation that goes with a radius: a third of it, but no less
than a half. -/
def sigmaOf (radius : Nat) : Float32 :=
  if radius = 0 then 1.0
  else
    let third := Binary.singleOfNat radius / 3.0
    if third < 0.5 then 0.5 else third

/-- How many texels from the center a tap still weighs at least a 256th of the
center's. -/
def visibleTaps (sigma : Float32) : Nat :=
  (Binary.widen sigma * (2.0 * (256.0 : Float).log).sqrt).toUInt32.toNat

/-- The radius that is sampled: the visible taps, at least one and at most those
asked for, within the overall bound. -/
def sampledRadius (radius : Nat) : Nat :=
  if radius = 0 then 0
  else min (min (max (visibleTaps (sigmaOf radius)) 1) radius) maxBlurRadius

/-- The number of samples for the taps of one side. -/
def samplesFor (options : BlurOptions) (taps : Nat) : Nat :=
  if options.linearFiltering then (taps + 1) / 2 else taps

def ofRadius (radius : Nat) (options : BlurOptions) : BlurParams where
  trueRadius := radius
  radius := sampledRadius radius
  mergedSamples := min (samplesFor options (sampledRadius radius)) maxMergedSamples
  trueMergedSamples := samplesFor options radius
  sigma := sigmaOf radius
  luminanceThreshold := options.luminanceThreshold

end BlurParams

structure GaussianWeights where
  /-- The weight of each texel from the center outwards; all but the first are
  used on both sides. -/
  standard : List Float32
  /-- Where the merged samples lie. -/
  mergedOffsets : List Float32
  mergedWeights : List Float32
  /-- The first texel that no merged sample covers. -/
  trailingStart : Nat
deriving DecidableEq

namespace GaussianWeights

/-- The sum from left to right; the sum of nothing is the neutral `-0`. -/
def sum64 (terms : List Float) : Float :=
  terms.foldl (· + ·) (-0.0)

/-- The sum from left to right; the sum of nothing is the neutral `-0`. -/
def sum32 (terms : List Float32) : Float32 :=
  terms.foldl (· + ·) (-0.0)

def total (weights : GaussianWeights) : Float32 :=
  match weights.standard with
  | [] => 0.0
  | center :: rest => center + 2.0 * sum32 rest

/-- The weight of the texels that the merged samples leave, nothing if there is
no such texel in sight. -/
def trailing (weights : GaussianWeights) : Float32 :=
  if weights.trailingStart ≤ weights.standard.length then
    sum32 (weights.standard.drop weights.trailingStart)
  else 0.0

/-- The weight of the center, the merged samples and the texels they leave. -/
def mergedTotal (weights : GaussianWeights) : Float32 :=
  weights.standard.headD 0.0 + 2.0 * sum32 weights.mergedWeights + 2.0 * weights.trailing

def pi : Float := 3.141592653589793

/-- The normal density with deviation `sigma` at a distance of `i` texels. -/
def density (sigma : Float) (i : Nat) : Float :=
  let norm := 1.0 / (2.0 * pi * sigma * sigma).sqrt
  let x := Binary.doubleOfNat i
  norm * (-(x * x) / (2.0 * sigma * sigma)).exp

/-- The weights of the texels from the center to the radius, both sides together
adding up to one. -/
def normalized (radius : Nat) (sigma : Float) : List Float :=
  let raw := (List.range (radius + 1)).map (density sigma)
  let whole := raw.headD 0.0 + 2.0 * sum64 raw.tail
  raw.map (· / whole)

/-- The merged sample of two neighbouring taps: where it lies and what it weighs. -/
def merged (tap : Nat → Float) (i : Nat) : Float × Float :=
  let first := tap (2 * i + 1)
  let second := tap (2 * i + 2)
  let weight := first + second
  let near := Binary.doubleOfNat (2 * i + 1)
  let far := Binary.doubleOfNat (2 * i + 2)
  (if weight > 0.0 then (first * near + second * far) / weight else near, weight)

def single (tap : Nat → Float) (i : Nat) : Float × Float :=
  (Binary.doubleOfNat (i + 1), tap (i + 1))

def ofParams (params : BlurParams) : GaussianWeights :=
  let standard := normalized params.radius (Binary.widen params.sigma)
  let tap := fun i => (standard[i]?).getD 0.0
  let sample := if params.linearFiltering then merged tap else single tap
  let samples := (List.range params.mergedSamples).map sample
  { standard := standard.map Binary.narrow
    mergedOffsets := samples.map fun sample => Binary.narrow sample.1
    mergedWeights := samples.map fun sample => Binary.narrow sample.2
    trailingStart :=
      if params.linearFiltering then 2 * params.mergedSamples + 1 else params.mergedSamples + 1 }

end GaussianWeights

end ShaderComposer
