/-!
# Targets

A program is written for one of two shading languages and for one of the two
programmable stages of the pipeline.
-/

namespace ShaderComposer

inductive Dialect where
  | gl
  | metal
deriving DecidableEq

namespace Dialect

def all : List Dialect := [gl, metal]

def name : Dialect → String
  | gl => "gl"
  | metal => "metal"

/-- The extension of the files that hold programs of this dialect. -/
def extension : Dialect → String
  | gl => "glsl"
  | metal => "metal"

def ofName? (text : String) : Option Dialect :=
  all.find? fun dialect => dialect.name = text

@[simp] theorem ofName?_name (dialect : Dialect) : ofName? dialect.name = some dialect := by
  cases dialect <;> decide

theorem name_of_ofName? {text : String} {dialect : Dialect}
    (h : ofName? text = some dialect) : dialect.name = text := by
  simpa using List.find?_some h

end Dialect

inductive Stage where
  | vertex
  | fragment
deriving DecidableEq

namespace Stage

def name : Stage → String
  | vertex => "vertex"
  | fragment => "fragment"

end Stage

end ShaderComposer
