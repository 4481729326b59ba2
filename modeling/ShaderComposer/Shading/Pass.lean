import ShaderComposer.Shading.Argument
import ShaderComposer.Shading.Call
import ShaderComposer.Value

/-!
# Passes

What an effect contributes to one stage of one render pass is a part: functions,
calls of them, temporaries, arguments and structs, all under names local to the
effect.  A pass has at most one part per stage and the values of its arguments.
-/

namespace ShaderComposer

structure Part where
  functions : List ShaderFunction := []
  calls : List Call := []
  temporaries : List Temporary := []
  arguments : List Argument := []
  structs : List StructDecl := []
deriving DecidableEq

namespace Part

def empty : Part := {}

def append (first second : Part) : Part where
  functions := first.functions ++ second.functions
  calls := first.calls ++ second.calls
  temporaries := first.temporaries ++ second.temporaries
  arguments := first.arguments ++ second.arguments
  structs := first.structs ++ second.structs

instance : Append Part := ⟨append⟩

def concat : List Part → Part
  | [] => empty
  | part :: rest => part ++ concat rest

def output? (part : Part) : Option String :=
  part.calls.getLast?.map Call.output

@[simp] theorem functions_append (first second : Part) :
    (first ++ second).functions = first.functions ++ second.functions := rfl

@[simp] theorem calls_append (first second : Part) :
    (first ++ second).calls = first.calls ++ second.calls := rfl

@[simp] theorem temporaries_append (first second : Part) :
    (first ++ second).temporaries = first.temporaries ++ second.temporaries := rfl

@[simp] theorem arguments_append (first second : Part) :
    (first ++ second).arguments = first.arguments ++ second.arguments := rfl

@[simp] theorem structs_append (first second : Part) :
    (first ++ second).structs = first.structs ++ second.structs := rfl

@[simp] theorem functions_concat (parts : List Part) :
    (concat parts).functions = parts.flatMap Part.functions := by
  induction parts with
  | nil => rfl
  | cons part rest ih => simp [concat, ih]

@[simp] theorem calls_concat (parts : List Part) :
    (concat parts).calls = parts.flatMap Part.calls := by
  induction parts with
  | nil => rfl
  | cons part rest ih => simp [concat, ih]

@[simp] theorem temporaries_concat (parts : List Part) :
    (concat parts).temporaries = parts.flatMap Part.temporaries := by
  induction parts with
  | nil => rfl
  | cons part rest ih => simp [concat, ih]

@[simp] theorem arguments_concat (parts : List Part) :
    (concat parts).arguments = parts.flatMap Part.arguments := by
  induction parts with
  | nil => rfl
  | cons part rest ih => simp [concat, ih]

@[simp] theorem structs_concat (parts : List Part) :
    (concat parts).structs = parts.flatMap Part.structs := by
  induction parts with
  | nil => rfl
  | cons part rest ih => simp [concat, ih]

end Part

structure Parameter where
  name : String
  value : Value
deriving DecidableEq

/-- One render pass of an effect.  A stage without a part is left as it is. -/
structure Pass where
  vertex : Option Part := none
  fragment : Option Part := none
  parameters : List Parameter := []
deriving DecidableEq

namespace Pass

def identity : Pass := {}

def part? (pass : Pass) : Stage → Option Part
  | .vertex => pass.vertex
  | .fragment => pass.fragment

end Pass

end ShaderComposer
