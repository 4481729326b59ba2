import ShaderComposer.Proofs.ComposedStage
import ShaderComposer.Proofs.UniformTexts

/-!
# Programs with open names

In a program pattern the words in front of local names are left open, each marked
with the position of the pass it stands for.  Putting words in gives a program, and
its text is uniform in the words.  Moving the positions of a pattern is the same as
putting the words in at other positions, so a pattern is all there is to compare
when passes change their places.
-/

namespace ShaderComposer

/-! ## Patterns -/

/-- A name that every naming keeps, or a local name behind the stem of a position. -/
inductive NamePattern where
  | shared (name : String)
  | placed (position : Nat) (name : String)
deriving DecidableEq

structure ArgumentPattern where
  type : String
  name : NamePattern
  qualifier : Qualifier
deriving DecidableEq

structure BindingPattern where
  argument : ArgumentPattern
  slot : Option Nat

structure InvocationPattern where
  position : Nat
  resultType : String
  output : String
  function : String
  arguments : List NamePattern

structure ProgramPattern where
  dialect : Dialect
  stage : Stage
  structs : List StructDecl
  bindings : List BindingPattern
  functions : List (Nat × ShaderFunction)
  temporaries : List (Nat × Temporary)
  invocations : List InvocationPattern
  output : Option (Nat × String)

/-! ## Putting words in -/

section Under

variable (words : Nat → String)

def NamePattern.under : NamePattern → String
  | shared name => name
  | placed position name => words position ++ name

def ArgumentPattern.under (pattern : ArgumentPattern) : Argument where
  type := pattern.type
  name := pattern.name.under words
  qualifier := pattern.qualifier

def BindingPattern.under (pattern : BindingPattern) : Binding where
  argument := pattern.argument.under words
  slot := pattern.slot

def InvocationPattern.under (pattern : InvocationPattern) : Invocation where
  resultType := pattern.resultType
  output := words pattern.position ++ pattern.output
  function := words pattern.position ++ pattern.function
  arguments := pattern.arguments.map (NamePattern.under words)

def ProgramPattern.under (pattern : ProgramPattern) : Program where
  dialect := pattern.dialect
  stage := pattern.stage
  structs := pattern.structs
  bindings := pattern.bindings.map (BindingPattern.under words)
  functions :=
    pattern.functions.map fun placed =>
      { placed.2 with name := words placed.1 ++ placed.2.name }
  temporaries :=
    pattern.temporaries.map fun placed =>
      { placed.2 with name := words placed.1 ++ placed.2.name }
  invocations := pattern.invocations.map (InvocationPattern.under words)
  output := pattern.output.map fun source => words source.1 ++ source.2

end Under

/-! ## Moving the positions -/

section Renumber

variable (move : Nat → Nat) (words : Nat → String)

def NamePattern.renumber : NamePattern → NamePattern
  | shared name => shared name
  | placed position name => placed (move position) name

def ArgumentPattern.renumber (pattern : ArgumentPattern) : ArgumentPattern :=
  { pattern with name := pattern.name.renumber move }

def BindingPattern.renumber (pattern : BindingPattern) : BindingPattern :=
  { pattern with argument := pattern.argument.renumber move }

def InvocationPattern.renumber (pattern : InvocationPattern) : InvocationPattern :=
  { pattern with
    position := move pattern.position
    arguments := pattern.arguments.map (NamePattern.renumber move) }

def ProgramPattern.renumber (pattern : ProgramPattern) : ProgramPattern :=
  { pattern with
    bindings := pattern.bindings.map (BindingPattern.renumber move)
    functions := pattern.functions.map (Prod.map move id)
    temporaries := pattern.temporaries.map (Prod.map move id)
    invocations := pattern.invocations.map (InvocationPattern.renumber move)
    output := pattern.output.map (Prod.map move id) }

@[simp] theorem NamePattern.under_renumber (pattern : NamePattern) :
    (pattern.renumber move).under words = pattern.under (words ∘ move) := by
  cases pattern <;> rfl

@[simp] theorem ArgumentPattern.under_renumber (pattern : ArgumentPattern) :
    (pattern.renumber move).under words = pattern.under (words ∘ move) := by
  simp [ArgumentPattern.renumber, ArgumentPattern.under]

@[simp] theorem BindingPattern.under_renumber (pattern : BindingPattern) :
    (pattern.renumber move).under words = pattern.under (words ∘ move) := by
  simp [BindingPattern.renumber, BindingPattern.under]

@[simp] theorem InvocationPattern.under_renumber (pattern : InvocationPattern) :
    (pattern.renumber move).under words = pattern.under (words ∘ move) := by
  simp [InvocationPattern.renumber, InvocationPattern.under, Function.comp_def]

theorem ProgramPattern.under_renumber (pattern : ProgramPattern) :
    (pattern.renumber move).under words = pattern.under (words ∘ move) := by
  simp [ProgramPattern.renumber, ProgramPattern.under, Function.comp_def]

end Renumber

/-! ## Their text -/

theorem Uniform.name (pattern : NamePattern) :
    Uniform fun words => pattern.under words := by
  cases pattern with
  | shared name =>
      exact Uniform.const name
  | placed position name =>
      exact Uniform.mangled position name

theorem UniformTexts.declaration (dialect : Dialect) (pattern : BindingPattern) :
    UniformTexts fun words =>
      ((pattern.under words).declaration? dialect).toList := by
  obtain ⟨⟨type, name, qualifier⟩, slot⟩ := pattern
  have hname := Uniform.name name
  cases dialect with
  | gl =>
      have huniform :
          Uniform fun words => "uniform " ++ type ++ " " ++ name.under words ++ ";" :=
        hname.between ("uniform " ++ type ++ " ") ";"
      cases qualifier with
      | buffer =>
          exact UniformTexts.singleton huniform
      | texture =>
          exact UniformTexts.singleton huniform
      | sampler =>
          exact UniformTexts.nil
      | stageIn =>
          exact UniformTexts.nil
      | vertexId =>
          exact UniformTexts.nil
  | metal =>
      have hplaced :
          Uniform fun words =>
            type ++ " " ++ name.under words ++ " [[" ++
              qualifier.placement (slot.getD 0) ++ "]]" := by
        apply Uniform.append
        · exact (hname.between (type ++ " ") " [[").append (Uniform.const _)
        · exact Uniform.const "]]"
      exact UniformTexts.singleton hplaced

namespace ProgramPattern

variable (pattern : ProgramPattern)

theorem uniform_argumentDeclarations :
    UniformTexts fun words => (pattern.under words).argumentDeclarations := by
  have hlines (words : Nat → String) :
      (pattern.under words).argumentDeclarations =
        pattern.bindings.flatMap fun binding =>
          ((binding.under words).declaration? pattern.dialect).toList := by
    unfold Program.argumentDeclarations ProgramPattern.under
    rw [List.filterMap_map, List.filterMap_eq_flatMap_toList]
    rfl
  simp only [hlines]
  apply UniformTexts.flatMap
  intro binding _
  exact UniformTexts.declaration pattern.dialect binding

theorem uniform_definitions :
    UniformTexts fun words =>
      (pattern.under words).functions.map ShaderFunction.definition := by
  simp only [ProgramPattern.under, List.map_map]
  apply UniformTexts.map
  rintro ⟨position, function⟩ -
  -- The name stands once, in the first line.
  have htext (words : Nat → String) :
      { function with name := words position ++ function.name }.definition =
        function.returnType ++ " " ++ (words position ++ function.name) ++
          ("(" ++
            Text.joinWith ", "
              (function.inputs.map fun input => input.type ++ " " ++ input.name) ++
            ")\n\x7b\n" ++ Text.indent 1 function.body ++ "\n\x7d") := by
    simp only [ShaderFunction.definition, ShaderFunction.declaration,
      String.append_assoc]
    rfl
  simp only [Function.comp_apply, htext]
  exact (Uniform.mangled position function.name).between _ _

theorem uniform_declaration (placed : Nat × Temporary) :
    Uniform fun words =>
      { placed.2 with name := words placed.1 ++ placed.2.name }.declaration
        pattern.dialect := by
  obtain ⟨position, type, name, initializer⟩ := placed
  have hname := Uniform.mangled position name
  have hexpression := Uniform.const (initializer.expression pattern.dialect)
  apply Uniform.append
  · exact (hname.between (type ++ " ") " = ").append hexpression
  · exact Uniform.const ";"

theorem uniform_statement (invocation : InvocationPattern) :
    Uniform fun words => (invocation.under words).statement := by
  have harguments :
      UniformTexts fun words => (invocation.under words).arguments := by
    apply UniformTexts.map
    intro argument _
    exact Uniform.name argument
  have houtput := Uniform.mangled invocation.position invocation.output
  have hfunction := Uniform.mangled invocation.position invocation.function
  have hexpression : Uniform fun words => (invocation.under words).expression := by
    apply Uniform.append
    · exact (hfunction.append (Uniform.const "(")).append (harguments.joinWith ", ")
    · exact Uniform.const ")"
  apply Uniform.append
  · exact (houtput.between (invocation.resultType ++ " ") " = ").append hexpression
  · exact Uniform.const ";"

theorem uniform_mainLines :
    UniformTexts fun words => (pattern.under words).mainLines := by
  have hresult :
      Uniform fun words =>
        (pattern.output.map fun source => words source.1 ++ source.2).getD
          (Program.untouched pattern.dialect pattern.stage) := by
    cases pattern.output with
    | none =>
        exact Uniform.const _
    | some source =>
        exact Uniform.mangled source.1 source.2
  unfold Program.mainLines Program.body
  simp only [List.map_append, List.map_map]
  apply UniformTexts.append
  · apply UniformTexts.append
    · simp only [ProgramPattern.under, List.map_map]
      apply UniformTexts.map
      intro placed _
      exact pattern.uniform_declaration placed
    · simp only [ProgramPattern.under, List.map_map]
      apply UniformTexts.map
      intro invocation _
      exact uniform_statement invocation
  · exact UniformTexts.writeBack pattern.dialect pattern.stage hresult

theorem uniform_source : Uniform fun words => (pattern.under words).source := by
  have hdialect (words : Nat → String) :
      (pattern.under words).dialect = pattern.dialect := rfl
  have hstage (words : Nat → String) :
      (pattern.under words).stage = pattern.stage := rfl
  have hstructs (words : Nat → String) :
      (pattern.under words).structs = pattern.structs := rfl
  apply Uniform.source hdialect hstage hstructs
  · exact pattern.uniform_argumentDeclarations
  · exact pattern.uniform_definitions
  · exact pattern.uniform_mainLines

end ProgramPattern

end ShaderComposer
