import ShaderComposer.Decimal.Fixed
import ShaderComposer.Effect.Basic
import ShaderComposer.Effect.Gaussian

/-!
# The reference blur

A Gaussian blur that samples every texel of its window, first along one axis and
then along the other.  It is slow on purpose: faster blurs are checked against
it.  With a luminance threshold the first of its two passes leaves out the texels
that are darker.
-/

namespace ShaderComposer

structure ReferenceBlur where
  radius : Nat
  options : BlurOptions := {}
  threshold : Float32 := 0.0
deriving DecidableEq

namespace ReferenceBlur

def defaultRadius : Nat := 2

def withLinearFiltering (blur : ReferenceBlur) (enabled : Bool) : ReferenceBlur :=
  { blur with options := { blur.options with linearFiltering := enabled } }

/-- A threshold kept between zero and one; not-a-number stays what it is. -/
def clampThreshold (threshold : Float32) : Float32 :=
  if threshold < 0.0 then 0.0 else if 1.0 < threshold then 1.0 else threshold

def withThreshold (blur : ReferenceBlur) (threshold : Option Float32) : ReferenceBlur :=
  { blur with
    options := { blur.options with luminanceThreshold := threshold.isSome }
    threshold := clampThreshold (threshold.getD 0.0) }

def params (blur : ReferenceBlur) : BlurParams :=
  .ofRadius blur.radius blur.options

/-- The name of the argument with the direction of a pass. -/
def direction : String := "u_blurDirection"

/-- One tap of a window: its distance from the center and its weight. -/
structure Tap where
  offset : Float32
  weight : Float32
deriving DecidableEq

/-- The taps of a window, from the far end of one side to that of the other. -/
def taps (radius : Nat) (standard : List Float32) : List Tap :=
  (List.range (2 * radius + 1)).map fun (k : Nat) =>
    let distance := (k : Int) - radius
    let length := Binary.singleOfNat distance.natAbs
    ⟨if distance < 0 then -length else length, (standard[distance.natAbs]?).getD 0.0⟩

/-- The expression that samples the previous pass at an offset. -/
def sample : Dialect → Float32 → String
  | .gl, offset =>
    "texture2D(previousPass, texCoord + texelStep * " ++ Decimal.literal offset ++ ")"
  | .metal, offset =>
    "previousPass.sample(previousPassSampler, texCoord + texelStep * " ++
      Decimal.literal offset ++ ")"

def scalar : Dialect → Float32 → String
  | .gl, x => Decimal.literal x
  | .metal, x => "half(" ++ Decimal.literal x ++ ")"

def luma : Dialect → String
  | .gl => "vec3(0.2125, 0.7154, 0.0721)"
  | .metal => "half3(0.2125, 0.7154, 0.0721)"

def accumulate (dialect : Dialect) (threshold : Option Float32) (tap : Tap) : List String :=
  match threshold with
  | none =>
    ["sum += " ++ sample dialect tap.offset ++ " * " ++ scalar dialect tap.weight ++ ";"]
  | some least =>
    ["s = " ++ sample dialect tap.offset ++ ";",
      "sum += s * step(" ++ scalar dialect least ++ ", dot(s.rgb, " ++ luma dialect ++ ")) * " ++
        scalar dialect tap.weight ++ ";"]

def prologue (dialect : Dialect) (threshold : Option Float32) : List String :=
  match dialect with
  | .gl =>
    ["vec2 texelStep = blurDirection / textureSize;", "vec4 sum = vec4(0.0);"] ++
      if threshold.isSome then ["vec4 s;"] else []
  | .metal =>
    ["float2 texelStep = blurDirection / " ++
        "float2(previousPass.get_width(), previousPass.get_height());",
      "half4 sum = half4(0.0);"] ++
      if threshold.isSome then ["half4 s;"] else []

def bodyLines (dialect : Dialect) (threshold : Option Float32) (taps : List Tap) : List String :=
  prologue dialect threshold ++ taps.flatMap (accumulate dialect threshold) ++ ["return sum;"]

def inputs : Dialect → List Formal
  | .gl =>
    [⟨"sampler2D", "previousPass"⟩, ⟨"vec2", "texCoord"⟩, ⟨"vec2", "textureSize"⟩,
      ⟨"vec2", "blurDirection"⟩]
  | .metal =>
    [⟨"texture2d<half>", "previousPass"⟩, ⟨"sampler", "previousPassSampler"⟩,
      ⟨"float2", "texCoord"⟩, ⟨"float2", "blurDirection"⟩]

def actuals : Dialect → Actuals
  | .gl =>
    .ofPairs
      [("previousPass", "cc_PreviousPassTexture"),
        ("texCoord", "cc_FragTexCoord1"),
        ("textureSize", "cc_PreviousPassTextureSize"),
        ("blurDirection", direction)]
  | .metal =>
    .ofPairs
      [("previousPass", "cc_PreviousPassTexture"),
        ("previousPassSampler", "cc_PreviousPassTextureSampler"),
        ("texCoord", "cc_FragIn.texCoord1"),
        ("blurDirection", direction)]

def returnType : Dialect → String
  | .gl => "vec4"
  | .metal => "half4"

def directionType : Dialect → String
  | .gl => "vec2"
  | .metal => "constant float2&"

def function (dialect : Dialect) (body : String) : ShaderFunction where
  name := "blur"
  body := body
  inputs := inputs dialect
  returnType := returnType dialect

def axisPass (dialect : Dialect) (params : BlurParams) (threshold : Option Float32)
    (x y : Float32) : Pass :=
  let window := taps params.radius (GaussianWeights.ofParams params).standard
  let function := function dialect (Text.joinWith "\n" (bodyLines dialect threshold window))
  { fragment :=
      some
        { functions := [function]
          calls := [{ function := function, output := "blurred", inputs := actuals dialect }]
          arguments := [⟨directionType dialect, direction, .buffer⟩] }
    parameters := [⟨direction, .vec2 x y⟩] }

/-- The threshold of the first pass, if it has one. -/
def activeThreshold (blur : ReferenceBlur) : Option Float32 :=
  if blur.params.luminanceThreshold then some blur.threshold else none

def passes (blur : ReferenceBlur) (dialect : Dialect) : List Pass :=
  if blur.radius = 0 then [.identity]
  else
    [axisPass dialect blur.params blur.activeThreshold 1.0 0.0,
      axisPass dialect blur.params none 0.0 1.0]

def effect (blur : ReferenceBlur) : Effect where
  name := "BlurReference"
  joinable := blur.radius = 0
  passes := blur.passes

end ReferenceBlur

end ShaderComposer
