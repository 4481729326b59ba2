import ShaderComposer.Proofs.ChainThreading

/-!
# What a composed program holds of each pass

Everything that a pass brings to a stage is found in the program of that stage,
renamed by the stem of the pass.  Two things differ from plain renaming: an
argument under a name of the stage's catalog keeps its name, and a temporary that
reads the stage's input may be missing.  In the other direction, a name that is
bound comes from the catalog or from an argument, so it is never the name of a
variable.
-/

namespace ShaderComposer

/-- The name under which a program binds an argument called `name`. -/
def Program.bindingName (program : Program) (stem name : String) : String :=
  if Catalog.holds program.dialect program.stage name then name else stem ++ name

/-- A program has everything a part brings, renamed by a stem. -/
structure Program.Holds (program : Program) (stem : String) (part : Part) : Prop where
  functions :
    ∀ function ∈ part.functions,
      { function with name := stem ++ function.name } ∈ program.functions
  calls :
    ∀ call ∈ part.calls, ∃ invocation,
      Statement.invoke invocation ∈ program.body ∧
      invocation.output = stem ++ call.output ∧
      invocation.function = stem ++ call.function.name
  temporaries :
    ∀ temporary ∈ part.temporaries,
      temporary.initializer ≠ Initializer.chainInput program.stage →
        ∃ declared, Statement.declare declared ∈ program.body ∧
          declared.type = temporary.type ∧
          declared.name = stem ++ temporary.name
  arguments :
    ∀ argument ∈ part.arguments, ∃ binding ∈ program.bindings,
      binding.argument =
        { argument with name := program.bindingName stem argument.name }

namespace Setting

variable (setting : Setting) {stage : Stage} {passes : List Pass}

theorem bindingName_program (stem name : String) :
    (setting.builder stage passes).program.bindingName stem name =
      if Catalog.holds setting.dialect stage name then name else stem ++ name := rfl

theorem argument_manglingAt
    (stage : Stage) (passes : List Pass) (site : Site) (argument : Argument) :
    (setting.manglingAt stage site).argument argument =
      { argument with
        name :=
          (setting.builder stage passes).program.bindingName
            (setting.stemAt site.position) argument.name } := by
  rw [bindingName_program]
  unfold Mangling.argument
  change (if Catalog.holds setting.dialect stage argument.name then _ else _) = _
  split <;> rfl

/-! ## Bindings -/

/-- What is bound is called as in the catalog or as an argument of some pass. -/
theorem mem_map_name_bindings {name : String} :
    name ∈ (setting.builder stage passes).program.bindings.map Binding.name ↔
      name ∈ Catalog.argumentNames setting.dialect stage ∨
      ∃ site ∈ sites stage passes, ∃ argument ∈ site.part.arguments,
        name =
          (setting.builder stage passes).program.bindingName
            (setting.stemAt site.position) argument.name := by
  have hextra :
      name ∈ (setting.builder stage passes).part.arguments.map Argument.name ↔
        ∃ site ∈ sites stage passes, ∃ argument ∈ site.part.arguments,
          name =
            (setting.builder stage passes).program.bindingName
              (setting.stemAt site.position) argument.name := by
    rw [arguments_builder, List.map_flatMap]
    simp only [List.mem_flatMap, List.mem_map, List.map_map, Function.comp_apply,
      setting.argument_manglingAt stage passes, eq_comm (a := name)]
  rw [Builder.map_name_bindings, Merge.mem_map_name_outcome, hextra]
  rfl

/-- No name behind the stem of a pass is bound, unless an argument of the pass has
it and is not of the catalog. -/
theorem argument_of_stemAt_mem_bindings
    {site : Site} (hsite : site ∈ sites stage passes) {name : String}
    (hbound :
      setting.stemAt site.position ++ name ∈
        (setting.builder stage passes).program.bindings.map Binding.name) :
    name ∈ site.part.arguments.map Argument.name := by
  rcases setting.mem_map_name_bindings.mp hbound with
    hcatalog | ⟨owner, howner, argument, hargument, hname⟩
  · have hholds :
        Catalog.holds setting.dialect stage
          (setting.stemAt site.position ++ name) = true :=
      List.contains_iff_mem.mpr hcatalog
    rw [holds_stemAt] at hholds
    contradiction
  · rw [bindingName_program] at hname
    cases hholds : Catalog.holds setting.dialect stage argument.name with
    | true =>
        rw [hholds, if_pos rfl] at hname
        rw [← hname, holds_stemAt] at hholds
        contradiction
    | false =>
        rw [hholds, if_neg (by decide)] at hname
        obtain ⟨rfl, rfl⟩ := setting.mangle_inj hsite howner hname
        exact List.mem_map_of_mem hargument

/-! ## The parts of a composed program -/

theorem functions_mem_builder
    {site : Site} (hsite : site ∈ sites stage passes)
    {function : ShaderFunction} (hfunction : function ∈ site.part.functions) :
    (setting.manglingAt stage site).function function ∈
      (setting.builder stage passes).part.functions := by
  rw [functions_builder]
  exact List.mem_flatMap.mpr ⟨site, hsite, List.mem_map_of_mem hfunction⟩

theorem arguments_mem_builder
    {site : Site} (hsite : site ∈ sites stage passes)
    {argument : Argument} (hargument : argument ∈ site.part.arguments) :
    (setting.manglingAt stage site).argument argument ∈
      (setting.builder stage passes).part.arguments := by
  rw [arguments_builder]
  exact List.mem_flatMap.mpr ⟨site, hsite, List.mem_map_of_mem hargument⟩

theorem temporaries_mem_builder
    {site : Site} (hsite : site ∈ sites stage passes)
    {temporary : Temporary} (hmem : temporary ∈ site.part.temporaries)
    (hkept : site.suppresses stage temporary = false) :
    (setting.manglingAt stage site).declare temporary ∈
      (setting.builder stage passes).part.temporaries := by
  have hdeclared : temporary ∈ site.declared stage := by
    simp [Site.declared, hmem, hkept]
  rw [temporaries_builder]
  exact List.mem_flatMap.mpr ⟨site, hsite, List.mem_map_of_mem hdeclared⟩

theorem holds_program
    (hwell : (setting.builder stage passes).WellFormed)
    {site : Site} (hsite : site ∈ sites stage passes) :
    (setting.builder stage passes).program.Holds
      (setting.stemAt site.position) site.part := by
  constructor
  · intro function hfunction
    have hdefined :
        (setting.manglingAt stage site).function function ∈
          (setting.builder stage passes).program.functions :=
      Merge.mem_outcome_of_mem hwell.functions
        (setting.functions_mem_builder hsite hfunction)
    exact hdefined
  · intro call hcall
    exact
      ⟨_, Builder.invoke_mem_body (setting.calls_mem_builder hsite hcall), rfl, rfl⟩
  · intro temporary htemporary hchain
    have hkept : site.suppresses stage temporary = false := by
      have hchain : temporary.initializer ≠ Initializer.chainInput stage := hchain
      simp [Site.suppresses, hchain]
    exact
      ⟨_, Builder.declare_mem_body
        (setting.temporaries_mem_builder hsite htemporary hkept), rfl, rfl⟩
  · intro argument hargument
    have hbound :
        (setting.manglingAt stage site).argument argument ∈
          (setting.builder stage passes).program.bindings.map Binding.argument := by
      rw [Builder.map_argument_bindings]
      exact
        Merge.mem_outcome_of_mem hwell.arguments
          (setting.arguments_mem_builder hsite hargument)
    obtain ⟨binding, hbinding, hsame⟩ := List.mem_map.mp hbound
    rw [setting.argument_manglingAt stage passes] at hsame
    exact ⟨binding, hbinding, hsame⟩

theorem holds_of_compose
    {shader : Shader} (hshader : setting.compose passes = .ok shader)
    {position : Nat} {pass : Pass} (hpass : passes[position]? = some pass)
    {part : Part} (hpart : pass.part? stage = some part) :
    (shader.program stage).Holds (setting.stemAt position) part := by
  obtain ⟨hwell, hprogram⟩ := setting.wellFormed_of_compose hshader stage
  have hsite := mem_sites_of_getElem? hpass hpart
  have hholds := setting.holds_program hwell hsite
  rw [hprogram]
  exact hholds

end Setting

end ShaderComposer
