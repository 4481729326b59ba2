import ShaderComposer.Effect.Blur
import ShaderComposer.Proofs.DialectAgreement
import ShaderComposer.Proofs.Identifiers
import ShaderComposer.Proofs.ParameterNames
import ShaderComposer.Proofs.RepeatedVariables

/-!
# Passes that compose wherever they stand

A self-contained pass brings no struct and no name of a catalog, agrees with
itself, and hands over values only for buffers of its own fragment stage.  Such
passes compose in any number, in any order and under any stem.  Every value then
goes to one buffer, and no two values have one name.
-/

namespace ShaderComposer

structure Part.SelfContained (stage : Stage) (part : Part) : Prop where
  sound : ¬ part.Faulty stage
  structs : part.structs = []
  arguments : Merge.Coherent Argument.name part.arguments
  functions : Merge.Coherent ShaderFunction.name part.functions
  distinct : part.variables.Nodup
  names : part.FitsIdentifiers

structure Pass.SelfContained (pass : Pass) : Prop where
  catalogFree : pass.CatalogFree
  parts :
    ∀ stage part, pass.part? stage = some part → part.SelfContained stage
  buffers :
    ∀ parameter ∈ pass.parameters, ∃ part, pass.fragment = some part ∧
      ∃ argument ∈ part.arguments,
        argument.name = parameter.name ∧ argument.qualifier = .buffer
  distinct : (pass.parameters.map Parameter.name).Nodup

/-- The value of every parameter goes to one binding of the fragment stage, and that
is a buffer. -/
def Shader.BindsParameters (shader : Shader) : Prop :=
  ∀ parameter ∈ shader.parameters, ∃ binding,
    shader.fragment.bindings.filter (fun other => other.name = parameter.name) =
        [binding] ∧
      binding.argument.qualifier = .buffer

/-! ## Composing -/

namespace Setting

variable (setting : Setting) {stage : Stage} {passes : List Pass}

theorem selfContained_of_mem_sites
    (hpasses : ∀ pass ∈ passes, pass.SelfContained)
    {site : Site} (hsite : site ∈ sites stage passes) :
    site.part.SelfContained stage := by
  obtain ⟨pass, hpass, hpart⟩ := exists_pass_of_mem_sites hsite
  exact (hpasses pass hpass).parts stage site.part hpart

theorem composes_of_selfContained
    (hpasses : ∀ pass ∈ passes, pass.SelfContained) : setting.Composes passes := by
  rw [composes_iff]
  constructor
  · rintro pass hpass ⟨stage, part, hpart, hfaulty⟩
    exact ((hpasses pass hpass).parts stage part hpart).sound hfaulty
  · intro stage
    have hsites (site : Site) (hsite : site ∈ sites stage passes) :
        site.part.SelfContained stage :=
      selfContained_of_mem_sites hpasses hsite
    constructor
    · have hnone :
          (sites stage passes).flatMap (fun site => site.part.structs) = [] := by
        rw [List.flatMap_eq_nil_iff]
        intro site hsite
        exact (hsites site hsite).structs
      rw [hnone]
      exact Merge.coherent_nil StructDecl.name
    · have hnone :
          ((sites stage passes).flatMap fun site => site.part.arguments).filter
              (fun argument => Catalog.holds setting.dialect stage argument.name) =
            [] := by
        rw [List.filter_eq_nil_iff]
        intro argument hargument
        obtain ⟨site, hsite, hmem⟩ := List.mem_flatMap.mp hargument
        have hfree : Catalog.Free argument.name :=
          free_of_mem_sites (fun pass hpass => (hpasses pass hpass).catalogFree) hsite hmem
        rw [hfree]
        decide
      rw [hnone]
      exact Merge.coherent_nil Argument.name
    · intro site hsite
      exact (hsites site hsite).arguments
    · intro site hsite
      exact (hsites site hsite).functions
    · intro site hsite
      apply nodup_locals_of_alone
      rw [Site.locals_of_source_none rfl]
      exact (hsites site hsite).distinct

theorem namedByIdentifiers_of_compose
    (hstem : Text.isIdentifier setting.stem = true)
    (hpasses : ∀ pass ∈ passes, pass.SelfContained)
    {shader : Shader} (hshader : setting.compose passes = .ok shader) (stage : Stage) :
    (shader.program stage).NamedByIdentifiers := by
  obtain ⟨-, hprogram⟩ := setting.wellFormed_of_compose hshader stage
  rw [hprogram]
  apply setting.namedByIdentifiers_program hstem
  intro site hsite
  exact (selfContained_of_mem_sites hpasses hsite).names

theorem bindsParameters_of_compose
    (hpasses : ∀ pass ∈ passes, pass.SelfContained)
    {shader : Shader} (hshader : setting.compose passes = .ok shader) :
    shader.BindsParameters := by
  intro bound hbound
  rw [setting.parameters_of_compose hshader, parametersFrom_eq] at hbound
  obtain ⟨⟨pass, position⟩, hentry, hparameter⟩ := List.mem_flatMap.mp hbound
  obtain ⟨parameter, hmem, rfl⟩ := List.mem_map.mp hparameter
  have hpass : passes[position]? = some pass := List.mk_mem_zipIdx_iff_getElem?.mp hentry
  have hself : pass.SelfContained := hpasses pass (List.mem_of_getElem? hpass)
  have hfree : Catalog.Free parameter.name := hself.catalogFree.parameters parameter hmem
  obtain ⟨part, hpart, argument, hargument, hname, hbuffer⟩ := hself.buffers parameter hmem
  have hholds : (shader.program .fragment).Holds (setting.stemAt position) part :=
    setting.holds_of_compose hshader hpass hpart
  obtain ⟨hwell, hprogram⟩ := setting.wellFormed_of_compose hshader .fragment
  have hdistinct := hwell.nodup_map_name_bindings
  rw [← hprogram] at hdistinct
  obtain ⟨binding, hbinding, hsame⟩ := hholds.arguments argument hargument
  have hcalled : binding.name = setting.stemAt position ++ parameter.name := by
    rw [Binding.name, hsame, hname, hprogram, bindingName_program, hfree]
    rfl
  refine ⟨binding, ?_, ?_⟩
  · rw [catalogued, hfree, hfree, Bool.or_false, if_neg (by decide), ← hcalled]
    exact Merge.filter_name_eq_singleton hdistinct hbinding
  · rw [hsame]
    exact hbuffer

end Setting

/-! ## The standard effects -/

/-- A single call in the fragment stage, with one argument and its value. -/
theorem Pass.selfContained_of_single_call
    (call : Call) (temporaries : List Temporary) (argument : Argument) (value : Value)
    (hbound : call.unbound? = none)
    (havailable : ∀ temporary ∈ temporaries, temporary.availableIn .fragment = true)
    (hdistinct : (temporaries.map Temporary.name ++ [call.output]).Nodup)
    (hnames : Part.FitsIdentifiers ⟨[call.function], [call], temporaries, [argument], []⟩)
    (hfree : Catalog.Free argument.name) (hbuffer : argument.qualifier = .buffer) :
    Pass.SelfContained
      { fragment := some ⟨[call.function], [call], temporaries, [argument], []⟩
        parameters := [⟨argument.name, value⟩] } := by
  constructor
  · exact Pass.catalogFree_of_single_argument _ argument value rfl hfree
  · intro stage part hpart
    cases stage with
    | vertex =>
        contradiction
    | fragment =>
        obtain rfl := Option.some.inj hpart
        have hsound :
            ¬ Part.Faulty .fragment ⟨[call.function], [call], temporaries, [argument], []⟩ := by
          rw [Part.not_faulty_iff]
          simpa [hbound] using havailable
        exact
          ⟨hsound, rfl, Merge.coherent_singleton Argument.name argument,
            Merge.coherent_singleton ShaderFunction.name call.function, hdistinct, hnames⟩
  · intro parameter hparameter
    rw [List.mem_singleton.mp hparameter]
    exact ⟨_, rfl, argument, List.mem_cons_self, rfl, hbuffer⟩
  · exact List.nodup_singleton argument.name

theorem Pass.selfContained_identity : Pass.identity.SelfContained := by
  constructor
  · exact Pass.catalogFree_identity
  · intro stage part hpart
    cases stage <;> contradiction
  · simp [Pass.identity]
  · exact List.nodup_nil

theorem Adjustment.selfContained_pass
    (adjustment : Adjustment) (amount : Float32) (dialect : Dialect) :
    (adjustment.pass amount dialect).SelfContained := by
  apply Pass.selfContained_of_single_call
    ⟨adjustment.function dialect, "adjusted",
      .ofPairs [("inputValue", "tmp"), ("amount", adjustment.argumentName)]⟩
    [⟨colorType dialect, "tmp", .previousPass⟩]
    ⟨amountType dialect, adjustment.argumentName, .buffer⟩ (.float amount)
  · cases adjustment <;> cases dialect <;> decide +kernel
  · simp [Temporary.availableIn, Initializer.availableIn, Initializer.stage]
  · have hdistinct : ["tmp", "adjusted"].Nodup := by decide
    exact hdistinct
  · have hnames :
        ∀ name ∈ [adjustment.functionName, "tmp", adjustment.argumentName, "adjusted"],
          name.toList.all Text.isIdentifierPart = true := by
      cases adjustment <;> decide
    exact hnames
  · exact adjustment.free_argumentName
  · rfl

theorem ReferenceBlur.free_direction : Catalog.Free direction := by
  intro dialect stage
  cases dialect <;> cases stage <;> decide

theorem ReferenceBlur.selfContained_axisPass
    (dialect : Dialect) (params : BlurParams) (threshold : Option Float32)
    (x y : Float32) :
    (axisPass dialect params threshold x y).SelfContained := by
  apply Pass.selfContained_of_single_call
    ⟨function dialect _, "blurred", actuals dialect⟩ []
    ⟨directionType dialect, direction, .buffer⟩ (.vec2 x y)
  · have hgiven :
        ∀ input ∈ inputs dialect, ((actuals dialect).get? input.name).isSome := by
      cases dialect <;> decide +kernel
    exact (Call.unbound?_eq_none_iff _).mpr hgiven
  · simp
  · simp
  · have hnames :
        ∀ name ∈ ["blur", direction, "blurred"],
          name.toList.all Text.isIdentifierPart = true := by
      decide
    exact hnames
  · exact free_direction
  · rfl

end ShaderComposer
