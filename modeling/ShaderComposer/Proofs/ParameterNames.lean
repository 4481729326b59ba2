import ShaderComposer.Proofs.ContributedParts

/-!
# Whether a bound parameter names its argument

An argument keeps its name when the catalog of its own stage holds it.  A
parameter does not know which stage its argument is in, and keeps its name when
the catalog of either stage holds it.  The two agree unless the name is foreign to
the stage of the argument, that is held by the catalog of the other stage alone.
Then the argument is bound under a mangled name, and what the parameter says is
bound nowhere in that stage.
-/

namespace ShaderComposer

namespace Setting

variable (setting : Setting) {stage : Stage} {passes : List Pass}

/-- Whether a name is in the catalog, but not in that of the stage. -/
def foreign (stage : Stage) (name : String) : Bool :=
  setting.catalogued name && !Catalog.holds setting.dialect stage name

theorem foreign_eq_true_iff {name : String} :
    setting.foreign stage name = true ↔
      setting.catalogued name = true ∧
        Catalog.holds setting.dialect stage name = false := by
  simp [foreign]

theorem catalogued_of_holds
    {name : String} (hholds : Catalog.holds setting.dialect stage name = true) :
    setting.catalogued name = true := by
  unfold catalogued
  cases stage with
  | vertex =>
      rw [hholds, Bool.true_or]
  | fragment =>
      rw [hholds, Bool.or_true]

theorem catalogued_stemAt (position : Nat) (name : String) :
    setting.catalogued (setting.stemAt position ++ name) = false := by
  unfold catalogued
  rw [holds_stemAt, holds_stemAt, Bool.or_false]

/-! ## The parameters of all passes -/

theorem parametersFrom_eq (position : Nat) (passes : List Pass) :
    setting.parametersFrom position passes =
      (passes.zipIdx position).flatMap fun entry =>
        setting.parametersAt entry.2 entry.1 := by
  induction passes generalizing position with
  | nil =>
      rfl
  | cons pass rest ih =>
      rw [parametersFrom, List.zipIdx_cons, List.flatMap_cons, ih]

theorem parameters_of_compose
    {shader : Shader} (hshader : setting.compose passes = .ok shader) :
    shader.parameters = setting.parametersFrom 0 passes := by
  obtain ⟨-, -, rfl⟩ := setting.compose_eq_ok_iff.mp hshader
  rfl

theorem getElem?_parametersAt
    (position : Nat) {index : Nat} {pass : Pass} {parameter : Parameter}
    (hparameter : pass.parameters[index]? = some parameter) :
    ∃ bound, (setting.parametersAt position pass)[index]? = some bound ∧
      bound.localName = parameter.name ∧
      bound.name =
        if setting.catalogued parameter.name then parameter.name
        else setting.stemAt position ++ parameter.name := by
  rw [parametersAt, List.getElem?_map, hparameter]
  exact ⟨_, rfl, rfl, rfl⟩

/-! ## Parameter and binding -/

/-- The name a parameter is given, and the name an argument so called is bound
under. -/
theorem parameter_name_eq_bindingName_iff {position : Nat} {name : String} :
    (if setting.catalogued name then name else setting.stemAt position ++ name) =
        (setting.builder stage passes).program.bindingName
          (setting.stemAt position) name ↔
      setting.foreign stage name = false := by
  rw [bindingName_program]
  unfold foreign
  cases hholds : Catalog.holds setting.dialect stage name with
  | true =>
      have hcatalogued := setting.catalogued_of_holds hholds
      simp [hcatalogued]
  | false =>
      cases hcatalogued : setting.catalogued name with
      | false =>
          simp
      | true =>
          have hne : name ≠ setting.stemAt position ++ name := by
            intro heq
            have hfree := setting.catalogued_stemAt position name
            rw [← heq, hcatalogued] at hfree
            contradiction
          simpa using hne

theorem foreign_not_bound
    {name : String} (hforeign : setting.foreign stage name = true) :
    name ∉ (setting.builder stage passes).program.bindings.map Binding.name := by
  obtain ⟨hcatalogued, hholds⟩ := setting.foreign_eq_true_iff.mp hforeign
  intro hbound
  rcases setting.mem_map_name_bindings.mp hbound with
    hcatalog | ⟨owner, -, argument, -, hname⟩
  · have hhere : Catalog.holds setting.dialect stage name = true :=
      List.contains_iff_mem.mpr hcatalog
    rw [hholds] at hhere
    contradiction
  · rw [bindingName_program] at hname
    split at hname
    · next hargument =>
      rw [← hname, hholds] at hargument
      contradiction
    · rw [hname, catalogued_stemAt] at hcatalogued
      contradiction

/-- The parameters of a composed shader are those of its passes in order.  Each
names the argument it was written for, in every stage of its pass that has such an
argument and to which the name is not foreign; in a stage to which it is foreign
the argument is bound under another name and the parameter names nothing. -/
theorem parameters_name_arguments_unless_foreign
    {shader : Shader} (hshader : setting.compose passes = .ok shader) :
    shader.parameters =
        passes.zipIdx.flatMap (fun entry => setting.parametersAt entry.2 entry.1) ∧
    ∀ (position : Nat) (pass : Pass), passes[position]? = some pass →
      ∀ (index : Nat) (parameter : Parameter), pass.parameters[index]? = some parameter →
        ∃ bound : BoundParameter, (setting.parametersAt position pass)[index]? = some bound ∧
          bound.localName = parameter.name ∧
          ∀ stage part, pass.part? stage = some part →
            ∀ argument ∈ part.arguments, argument.name = parameter.name →
              ∃ binding ∈ (shader.program stage).bindings,
                binding.argument = { argument with name := binding.name } ∧
                (bound.name = binding.name ↔
                  setting.foreign stage parameter.name = false) ∧
                (setting.foreign stage parameter.name = true →
                  binding.name = setting.stemAt position ++ parameter.name ∧
                  bound.name ∉ (shader.program stage).bindings.map Binding.name) := by
  constructor
  · rw [setting.parameters_of_compose hshader, parametersFrom_eq]
  · intro position pass hpass index parameter hparameter
    obtain ⟨bound, hbound, hlocal, hwritten⟩ :=
      setting.getElem?_parametersAt position hparameter
    refine ⟨bound, hbound, hlocal, ?_⟩
    intro stage part hpart argument hargument hname
    have hholds := setting.holds_of_compose hshader hpass hpart
    obtain ⟨-, hprogram⟩ := setting.wellFormed_of_compose hshader stage
    rw [hprogram] at hholds ⊢
    obtain ⟨binding, hbinding, hsame⟩ := hholds.arguments argument hargument
    have hcalled :
        binding.name =
          (setting.builder stage passes).program.bindingName
            (setting.stemAt position) parameter.name := by
      rw [Binding.name, hsame, hname]
    refine ⟨binding, hbinding, ?_, ?_, ?_⟩
    · rw [hcalled, ← hname]
      exact hsame
    · rw [hwritten, hcalled]
      exact setting.parameter_name_eq_bindingName_iff
    · intro hforeign
      obtain ⟨hcatalogued, hoff⟩ := setting.foreign_eq_true_iff.mp hforeign
      constructor
      · rw [hcalled, bindingName_program, hoff, if_neg (by decide)]
      · rw [hwritten, hcatalogued, if_pos rfl]
        exact setting.foreign_not_bound hforeign

end Setting

/-- A vertex stage that declares the size of the texture, which is in the catalog
of the fragment stage only. -/
def Pass.shiftedByTexel : Pass where
  vertex :=
    some
      { functions :=
          [⟨"offset", "return p + vec4(s, 0.0, 0.0);",
            [⟨"vec4", "p"⟩, ⟨"vec2", "s"⟩], "vec4"⟩]
        calls :=
          [{ function :=
               ⟨"offset", "return p + vec4(s, 0.0, 0.0);",
                 [⟨"vec4", "p"⟩, ⟨"vec2", "s"⟩], "vec4"⟩
             output := "moved"
             inputs := .ofPairs [("p", "pos"), ("s", "cc_PreviousPassTextureSize")] }]
        temporaries := [⟨"vec4", "pos", .vertexAttributes⟩]
        arguments := [⟨"vec2", "cc_PreviousPassTextureSize", .buffer⟩] }
  parameters := [⟨"cc_PreviousPassTextureSize", .vec2 0.5 0.5⟩]

theorem shiftedByTexel_parameter_unbound :
    Setting.compose ⟨.gl, "cc_", 0, 0⟩ [Pass.shiftedByTexel] =
      .ok (Setting.shader ⟨.gl, "cc_", 0, 0⟩ [Pass.shiftedByTexel]) ∧
    ∃ binding ∈
        (Setting.shader ⟨.gl, "cc_", 0, 0⟩ [Pass.shiftedByTexel]).vertex.bindings,
      binding.argument = ⟨"vec2", "cc_0_cc_PreviousPassTextureSize", .buffer⟩ ∧
      ∃ bound ∈ (Setting.shader ⟨.gl, "cc_", 0, 0⟩ [Pass.shiftedByTexel]).parameters,
        bound.localName = "cc_PreviousPassTextureSize" ∧ bound.name ≠ binding.name := by
  have hcomposes : Setting.Composes ⟨.gl, "cc_", 0, 0⟩ [Pass.shiftedByTexel] := by
    decide +kernel
  have hshader := Setting.Composes.compose_eq _ hcomposes
  obtain ⟨hall, heach⟩ := Setting.parameters_name_arguments_unless_foreign _ hshader
  obtain ⟨bound, hbound, hlocal, hstages⟩ := heach 0 _ rfl 0 _ rfl
  obtain ⟨binding, hbinding, hsame, hname, hforeign⟩ :=
    hstages .vertex _ rfl ⟨"vec2", "cc_PreviousPassTextureSize", .buffer⟩ (by decide) rfl
  have hcalled := (hforeign (by decide)).1
  refine ⟨hshader, binding, hbinding, ?_, bound, ?_, hlocal, ?_⟩
  · rw [hsame, hcalled]
    rfl
  · rw [hall]
    exact List.mem_flatMap.mpr ⟨(Pass.shiftedByTexel, 0), by simp, List.mem_of_getElem? hbound⟩
  · rw [Ne, hname]
    decide

/-- A parameter need not have the name of anything that its stage binds. -/
theorem not_parameters_always_bound :
    ¬ ∀ (setting : Setting) (passes : List Pass) (shader : Shader),
      setting.compose passes = .ok shader →
        ∀ pass ∈ passes, ∀ parameter ∈ pass.parameters, ∀ stage part,
          pass.part? stage = some part → parameter.name ∈ part.arguments.map Argument.name →
            ∃ bound ∈ shader.parameters, bound.localName = parameter.name ∧
              bound.name ∈ (shader.program stage).bindings.map Binding.name := by
  intro hbound
  have hcomposes : Setting.Composes ⟨.gl, "cc_", 0, 0⟩ [Pass.shiftedByTexel] := by
    decide +kernel
  obtain ⟨bound, hmem, -, hname⟩ :=
    hbound _ _ _ (Setting.Composes.compose_eq _ hcomposes) Pass.shiftedByTexel
      (by decide) ⟨"cc_PreviousPassTextureSize", .vec2 0.5 0.5⟩ List.mem_cons_self
      .vertex _ rfl (by decide)
  have hsingle :
      bound =
        ⟨0, "cc_PreviousPassTextureSize", "cc_PreviousPassTextureSize", .vec2 0.5 0.5⟩ :=
    List.mem_singleton.mp hmem
  have hforeign :
      Setting.foreign ⟨.gl, "cc_", 0, 0⟩ .vertex "cc_PreviousPassTextureSize" = true := by
    decide
  rw [hsingle] at hname
  exact Setting.foreign_not_bound _ hforeign hname

end ShaderComposer
