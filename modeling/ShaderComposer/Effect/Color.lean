import ShaderComposer.Effect.Basic

/-!
# Color adjustments

Brightness, contrast and saturation change the color of each fragment by an
amount between -1 and 1.  All three have the same shape: one function of the
color so far and the amount, called once in the fragment stage.
-/

namespace ShaderComposer

inductive Adjustment where
  /-- Adds the amount to every channel. -/
  | brightness
  /-- Scales the distance from middle gray. -/
  | contrast
  /-- Moves between the gray of equal luma and the doubled saturation. -/
  | saturation
deriving DecidableEq

namespace Adjustment

def name : Adjustment → String
  | brightness => "Brightness"
  | contrast => "Contrast"
  | saturation => "Saturation"

def functionName : Adjustment → String
  | brightness => "brightnessEffect"
  | contrast => "contrastEffect"
  | saturation => "saturationEffect"

def argumentName : Adjustment → String
  | brightness => "u_brightness"
  | contrast => "u_contrast"
  | saturation => "u_saturation"

def body : Adjustment → Dialect → String
  | brightness, .gl =>
    "return vec4(inputValue.rgb + vec3(amount * inputValue.a), inputValue.a);"
  | brightness, .metal =>
    "return half4(inputValue.rgb + half3(half(amount) * inputValue.a), inputValue.a);"
  | contrast, .gl =>
    "vec3 mid = vec3(0.5 * inputValue.a);\n" ++
    "return vec4((inputValue.rgb - mid) * (amount + 1.0) + mid, inputValue.a);"
  | contrast, .metal =>
    "half3 mid = half3(0.5 * inputValue.a);\n" ++
    "return half4((inputValue.rgb - mid) * half(amount + 1.0) + mid, inputValue.a);"
  | saturation, .gl =>
    "float luma = dot(inputValue.rgb, vec3(0.2125, 0.7154, 0.0721));\n" ++
    "return vec4(mix(vec3(luma), inputValue.rgb, amount + 1.0), inputValue.a);"
  | saturation, .metal =>
    "half luma = dot(inputValue.rgb, half3(0.2125, 0.7154, 0.0721));\n" ++
    "return half4(mix(half3(luma), inputValue.rgb, half(amount + 1.0)), inputValue.a);"

def colorType : Dialect → String
  | .gl => "vec4"
  | .metal => "half4"

def amountType : Dialect → String
  | .gl => "float"
  | .metal => "constant float&"

def function (adjustment : Adjustment) (dialect : Dialect) : ShaderFunction where
  name := adjustment.functionName
  body := adjustment.body dialect
  inputs := [⟨colorType dialect, "inputValue"⟩, ⟨"float", "amount"⟩]
  returnType := colorType dialect

def part (adjustment : Adjustment) (dialect : Dialect) : Part where
  functions := [adjustment.function dialect]
  calls :=
    [{ function := adjustment.function dialect
       output := "adjusted"
       inputs := .ofPairs [("inputValue", "tmp"), ("amount", adjustment.argumentName)] }]
  temporaries := [⟨colorType dialect, "tmp", .previousPass⟩]
  arguments := [⟨amountType dialect, adjustment.argumentName, .buffer⟩]

def pass (adjustment : Adjustment) (amount : Float32) (dialect : Dialect) : Pass where
  fragment := some (adjustment.part dialect)
  parameters := [⟨adjustment.argumentName, .float amount⟩]

/-- The amount within its bounds; one that is no finite number changes nothing. -/
def condition (amount : Float32) : Float32 :=
  if amount.isFinite then
    if amount < -1.0 then -1.0 else if 1.0 < amount then 1.0 else amount
  else 0.0

def effect (adjustment : Adjustment) (amount : Float32) : Effect where
  name := adjustment.name
  joinable := true
  passes := fun dialect => [adjustment.pass (condition amount) dialect]

end Adjustment

end ShaderComposer
