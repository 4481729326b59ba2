import ShaderComposer.Proofs.ContributedParts
import ShaderComposer.Proofs.FirstConflicts

/-!
# Both dialects accept the same passes

The dialect enters a composition in three places: it chooses the catalog, it says
which names are kept, and it writes the text.  Passes that keep clear of every
catalog are renamed alike in all dialects, so the same declarations are merged and
the same body is checked.  The structs and arguments of a catalog differ, but the
merge blames a clash among the additions only, and names behind a stem override no
default.  So two dialects fail with the same error, or both succeed with programs
that differ in the catalog's share alone.
-/

namespace ShaderComposer

/-- No catalog holds the name, in whatever dialect and stage. -/
def Catalog.Free (name : String) : Prop :=
  ∀ dialect stage, holds dialect stage name = false

structure Pass.CatalogFree (pass : Pass) : Prop where
  arguments :
    ∀ stage part, pass.part? stage = some part →
      ∀ argument ∈ part.arguments, Catalog.Free argument.name
  parameters : ∀ parameter ∈ pass.parameters, Catalog.Free parameter.name

theorem Pass.catalogFree_of_single_argument
    (part : Part) (argument : Argument) (value : Value)
    (harguments : part.arguments = [argument]) (hfree : Catalog.Free argument.name) :
    Pass.CatalogFree
      { fragment := some part, parameters := [⟨argument.name, value⟩] } := by
  constructor
  · intro stage other hother
    cases stage with
    | vertex =>
        contradiction
    | fragment =>
        obtain rfl := Option.some.inj hother
        simpa [harguments] using hfree
  · simpa using hfree

theorem Pass.catalogFree_identity : Pass.identity.CatalogFree := by
  constructor
  · intro stage part hpart
    cases stage <;> contradiction
  · simp [Pass.identity]

/-- The arguments a program binds besides those of its catalog, in their order. -/
def Program.ownArguments (program : Program) : List Argument :=
  (program.bindings.map Binding.argument).filter fun argument =>
    !Catalog.holds program.dialect program.stage argument.name

/-- Two programs with the same code, up to how their dialects write it. -/
structure Program.AgreesWith (first second : Program) : Prop where
  functions : first.functions = second.functions
  temporaries : first.temporaries = second.temporaries
  invocations : first.invocations = second.invocations
  output : first.output = second.output
  ownArguments : first.ownArguments = second.ownArguments

/-! ## Renaming a part -/

namespace Mangling

variable {part : Part}

theorem keeps_of_free
    (mangling : Mangling) {name : String} (hfree : Catalog.Free name) :
    mangling.keeps name = false :=
  hfree mangling.dialect mangling.stage

theorem resolve_of_free
    (mangling : Mangling) (dialect : Dialect)
    (hfree : ∀ argument ∈ part.arguments, Catalog.Free argument.name) :
    { mangling with dialect := dialect }.resolve part = mangling.resolve part := by
  have hkept (mangling : Mangling) (name : String) :
      ((part.arguments.map Argument.name).contains name && !mangling.keeps name) =
        (part.arguments.map Argument.name).contains name := by
    cases hargument : (part.arguments.map Argument.name).contains name with
    | false =>
        rfl
    | true =>
        have hname := List.contains_iff_mem.mp hargument
        obtain ⟨argument, hmem, rfl⟩ := List.mem_map.mp hname
        rw [mangling.keeps_of_free (hfree argument hmem)]
        rfl
  funext name
  unfold resolve
  rw [hkept, hkept]
  rfl

/-- A part without names of the catalog is renamed alike in every dialect. -/
theorem part_of_free
    (mangling : Mangling) (dialect : Dialect)
    (hfree : ∀ argument ∈ part.arguments, Catalog.Free argument.name) :
    { mangling with dialect := dialect }.part part = mangling.part part := by
  have hresolve := mangling.resolve_of_free dialect hfree
  have hcalls :
      part.calls.map ({ mangling with dialect := dialect }.call part) =
        part.calls.map (mangling.call part) := by
    apply List.map_congr_left
    intro call _
    unfold Mangling.call
    rw [hresolve]
    rfl
  have harguments :
      part.arguments.map { mangling with dialect := dialect }.argument =
        part.arguments.map mangling.argument := by
    apply List.map_congr_left
    intro argument hargument
    have hname := hfree argument hargument
    unfold Mangling.argument
    rw [keeps_of_free _ hname, keeps_of_free _ hname]
    rfl
  unfold Mangling.part
  rw [hcalls, harguments]
  rfl

end Mangling

/-! ## Building -/

namespace Builder

variable (builder : Builder)

/-- The checks of a build never look at the dialect. -/
theorem checks_of_dialect (dialect : Dialect) :
    { builder with dialect := dialect }.build.map (fun _ => ()) =
      builder.build.map fun _ => () := by
  unfold build
  simp only [Merge.declarations_eq]
  cases Merge.clash? .struct StructDecl.name builder.part.structs with
  | some clash =>
      rfl
  | none =>
  cases Merge.clash? .argument Argument.name builder.part.arguments with
  | some clash =>
      rfl
  | none =>
  cases Merge.clash? .function ShaderFunction.name builder.part.functions with
  | some clash =>
      rfl
  | none =>
  cases declareTemporaries builder.stage [] builder.part.temporaries with
  | error error =>
      rfl
  | ok declared =>
  simp only [bind, Except.bind, Option.map_none, okUnless_none]
  cases invocations (Merge.outcome ShaderFunction.name [] builder.part.functions) declared
      builder.part.calls with
  | error error =>
      rfl
  | ok invocations =>
      rfl

/-- Whether the pieces fit, and what is wrong when they do not, is the same in
every dialect. -/
theorem build_dialects :
    (∀ dialect, { builder with dialect := dialect }.WellFormed) ∨
    (∃ error, ∀ dialect, { builder with dialect := dialect }.build = .error error) := by
  rcases builder.build_cases with ⟨hwell, -⟩ | ⟨error, -, herror⟩
  · left
    intro dialect
    exact
      ⟨hwell.structs, hwell.arguments, hwell.functions, hwell.available, hwell.listed,
        hwell.bound, hwell.distinct⟩
  · right
    refine ⟨error, ?_⟩
    intro dialect
    have hchecks := builder.checks_of_dialect dialect
    rw [herror] at hchecks
    cases hbuild : { builder with dialect := dialect }.build with
    | ok program =>
        rw [hbuild] at hchecks
        contradiction
    | error other =>
        rw [hbuild] at hchecks
        rw [Except.error.inj hchecks]

/-- Arguments under new names are bound behind those of the catalog, each once. -/
theorem ownArguments_program
    (hnew :
      ∀ argument ∈ builder.part.arguments,
        Catalog.holds builder.dialect builder.stage argument.name = false) :
    builder.program.ownArguments = builder.part.arguments.eraseDups := by
  have hbound :
      builder.program.bindings.map Binding.argument =
        Catalog.arguments builder.dialect builder.stage ++
          builder.part.arguments.eraseDups := by
    have houtcome :
        Merge.outcome Argument.name (Catalog.arguments builder.dialect builder.stage)
            builder.part.arguments =
          Catalog.arguments builder.dialect builder.stage ++
            builder.part.arguments.eraseDups := by
      apply Merge.outcome_of_all_new
      intro argument hargument hcatalog
      have hfree := hnew argument hargument
      have hheld : Catalog.holds builder.dialect builder.stage argument.name = true :=
        List.contains_iff_mem.mpr hcatalog
      rw [hfree] at hheld
      contradiction
    rw [← houtcome]
    exact Binding.map_argument_assign _
  have hcatalog :
      (Catalog.arguments builder.dialect builder.stage).filter
          (fun argument => !Catalog.holds builder.dialect builder.stage argument.name) =
        [] := by
    rw [List.filter_eq_nil_iff]
    intro argument hargument
    have hheld : Catalog.holds builder.dialect builder.stage argument.name = true :=
      List.contains_iff_mem.mpr (List.mem_map_of_mem hargument)
    simp [hheld]
  have hown :
      builder.part.arguments.eraseDups.filter
          (fun argument => !Catalog.holds builder.dialect builder.stage argument.name) =
        builder.part.arguments.eraseDups := by
    rw [List.filter_eq_self]
    intro argument hargument
    have hfree := hnew argument (List.mem_eraseDups.mp hargument)
    simp [hfree]
  rw [Program.ownArguments, hbound]
  change List.filter
    (fun argument : Argument =>
      !Catalog.holds builder.dialect builder.stage argument.name) _ = _
  rw [List.filter_append, hcatalog, hown, List.nil_append]

end Builder

/-! ## Composing -/

namespace Setting

variable (setting : Setting) {stage : Stage} {passes : List Pass}

def inDialect (dialect : Dialect) : Setting :=
  { setting with dialect := dialect }

theorem fault?_inDialect (dialect : Dialect) (passes : List Pass) :
    (setting.inDialect dialect).fault? passes = setting.fault? passes := by
  apply faultFrom?_congr
  rfl

theorem parametersFrom_inDialect
    (hfree : ∀ pass ∈ passes, pass.CatalogFree) (dialect : Dialect) (position : Nat) :
    (setting.inDialect dialect).parametersFrom position passes =
      setting.parametersFrom position passes := by
  induction passes generalizing position with
  | nil =>
      rfl
  | cons pass rest ih =>
      have hpass : pass.CatalogFree := hfree pass List.mem_cons_self
      have hhere :
          (setting.inDialect dialect).parametersAt position pass =
            setting.parametersAt position pass := by
        apply List.map_congr_left
        intro parameter hparameter
        have hname := hpass.parameters parameter hparameter
        have hoff (setting : Setting) : setting.catalogued parameter.name = false := by
          rw [catalogued, hname, hname, Bool.or_false]
        rw [hoff, hoff]
        rfl
      rw [parametersFrom, parametersFrom, hhere,
        ih fun other hother => hfree other (List.mem_cons_of_mem pass hother)]

theorem free_of_mem_sites
    (hfree : ∀ pass ∈ passes, pass.CatalogFree)
    {site : Site} (hsite : site ∈ sites stage passes)
    {argument : Argument} (hargument : argument ∈ site.part.arguments) :
    Catalog.Free argument.name := by
  obtain ⟨pass, hpass, hpart⟩ := exists_pass_of_mem_sites hsite
  exact (hfree pass hpass).arguments stage site.part hpart argument hargument

theorem builder_inDialect
    (hfree : ∀ pass ∈ passes, pass.CatalogFree) (dialect : Dialect) :
    (setting.inDialect dialect).builder stage passes =
      { setting.builder stage passes with dialect := dialect } := by
  have hpart :
      ((setting.inDialect dialect).builder stage passes).part =
        (setting.builder stage passes).part := by
    rw [part_builder, part_builder]
    congr 1
    apply List.map_congr_left
    intro site hsite
    exact
      Mangling.part_of_free (setting.manglingAt stage site) dialect fun _ hargument =>
        free_of_mem_sites hfree hsite hargument
  calc (setting.inDialect dialect).builder stage passes
      = ⟨dialect, stage, ((setting.inDialect dialect).builder stage passes).part⟩ := rfl
    _ = ⟨dialect, stage, (setting.builder stage passes).part⟩ := by rw [hpart]

theorem new_arguments_builder
    (hfree : ∀ pass ∈ passes, pass.CatalogFree)
    {argument : Argument} (hargument : argument ∈ (setting.builder stage passes).part.arguments)
    (dialect : Dialect) :
    Catalog.holds dialect stage argument.name = false := by
  rw [arguments_builder] at hargument
  obtain ⟨site, hsite, hargument⟩ := List.mem_flatMap.mp hargument
  obtain ⟨original, horiginal, rfl⟩ := List.mem_map.mp hargument
  have hname : Catalog.Free original.name := free_of_mem_sites hfree hsite horiginal
  have hmangled :
      ((setting.manglingAt stage site).argument original).name =
        setting.stemAt site.position ++ original.name := by
    rw [Mangling.argument, Mangling.keeps_of_free _ hname]
    rfl
  rw [hmangled]
  exact holds_stemAt setting dialect site.position original.name

theorem agreesWith_inDialect
    (hfree : ∀ pass ∈ passes, pass.CatalogFree) (first second : Dialect) (stage : Stage) :
    ((setting.inDialect first).builder stage passes).program.AgreesWith
      ((setting.inDialect second).builder stage passes).program := by
  have hown (dialect : Dialect) :
      { setting.builder stage passes with dialect := dialect }.program.ownArguments =
        (setting.builder stage passes).part.arguments.eraseDups := by
    apply Builder.ownArguments_program
    intro argument hargument
    exact setting.new_arguments_builder hfree hargument dialect
  rw [setting.builder_inDialect hfree, setting.builder_inDialect hfree]
  constructor
  · rfl
  · rfl
  · rfl
  · rfl
  · rw [hown, hown]

theorem build_inDialect
    (hfree : ∀ pass ∈ passes, pass.CatalogFree) (stage : Stage) :
    (∀ dialect,
      ((setting.inDialect dialect).builder stage passes).build =
        .ok ((setting.inDialect dialect).builder stage passes).program) ∨
    (∃ error, ∀ dialect,
      ((setting.inDialect dialect).builder stage passes).build = .error error) := by
  simp only [setting.builder_inDialect hfree]
  rcases (setting.builder stage passes).build_dialects with hwell | hfailed
  · left
    intro dialect
    exact Builder.build_eq_ok_iff.mpr ⟨hwell dialect, rfl⟩
  · exact .inr hfailed

/-- Passes without names of the catalog fail alike in all dialects, or compose in all
of them. -/
theorem compose_inDialect
    (hfree : ∀ pass ∈ passes, pass.CatalogFree) :
    (∃ error, ∀ dialect, (setting.inDialect dialect).compose passes = .error error) ∨
    (∀ dialect,
      (setting.inDialect dialect).compose passes =
        .ok ((setting.inDialect dialect).shader passes)) := by
  cases hfault : setting.fault? passes with
  | some fault =>
      left
      refine ⟨fault, ?_⟩
      intro dialect
      simp only [compose, fault?_inDialect, hfault]
  | none =>
      have hcompose (dialect : Dialect) :
          (setting.inDialect dialect).compose passes =
            (do
              let vertex ← ((setting.inDialect dialect).builder .vertex passes).build
              let fragment ← ((setting.inDialect dialect).builder .fragment passes).build
              return {
                dialect := dialect
                vertex := vertex
                fragment := fragment
                structs := sharedStructs vertex fragment
                parameters := (setting.inDialect dialect).parametersFrom 0 passes }) := by
        simp only [compose, fault?_inDialect, hfault]
        rfl
      rcases setting.build_inDialect hfree .vertex with hvertex | ⟨error, herror⟩
      · rcases setting.build_inDialect hfree .fragment with hfragment | ⟨error, herror⟩
        · right
          intro dialect
          rw [hcompose, hvertex, hfragment]
          rfl
        · left
          refine ⟨error, ?_⟩
          intro dialect
          rw [hcompose, hvertex, herror]
          rfl
      · left
        refine ⟨error, ?_⟩
        intro dialect
        rw [hcompose, herror]
        rfl

/-- Two dialects either fail with one error or give programs with the same code. -/
theorem compose_dialects_agree
    (hfree : ∀ pass ∈ passes, pass.CatalogFree) (first second : Dialect) :
    (∃ error,
      (setting.inDialect first).compose passes = .error error ∧
        (setting.inDialect second).compose passes = .error error) ∨
    (∃ shader shader',
      (setting.inDialect first).compose passes = .ok shader ∧
        (setting.inDialect second).compose passes = .ok shader' ∧
        shader.parameters = shader'.parameters ∧
        ∀ stage, (shader.program stage).AgreesWith (shader'.program stage)) := by
  rcases setting.compose_inDialect hfree with ⟨error, herror⟩ | hok
  · exact .inl ⟨error, herror first, herror second⟩
  · right
    refine ⟨_, _, hok first, hok second, ?_, ?_⟩
    · have hparameters := setting.parametersFrom_inDialect hfree
      exact (hparameters first 0).trans (hparameters second 0).symm
    · intro stage
      rw [program_shader, program_shader]
      exact setting.agreesWith_inDialect hfree first second stage

end Setting

theorem Adjustment.free_argumentName (adjustment : Adjustment) :
    Catalog.Free adjustment.argumentName := by
  intro dialect stage
  cases adjustment <;> cases dialect <;> cases stage <;> decide

theorem catalogFree_adjustedTwice : ∀ pass ∈ Pass.adjustedTwice, pass.CatalogFree := by
  have hadjusted (adjustment : Adjustment) (amount : Float32) :
      (adjustment.pass amount .gl).CatalogFree :=
    Pass.catalogFree_of_single_argument (adjustment.part .gl)
      ⟨Adjustment.amountType .gl, adjustment.argumentName, .buffer⟩ (.float amount) rfl
      adjustment.free_argumentName
  intro pass hpass
  simp only [Pass.adjustedTwice, List.mem_cons, List.not_mem_nil, or_false] at hpass
  rcases hpass with rfl | rfl | rfl
  · exact hadjusted .brightness 0.5
  · exact Pass.catalogFree_identity
  · exact hadjusted .contrast 0.25

theorem adjustedTwice_dialects_agree :
    (∀ pass ∈ Pass.adjustedTwice, pass.CatalogFree) ∧
    ∃ shader shader',
      Setting.compose ⟨.gl, "cc_", 1, 7⟩ Pass.adjustedTwice = .ok shader ∧
        Setting.compose ⟨.metal, "cc_", 1, 7⟩ Pass.adjustedTwice = .ok shader' ∧
        shader.parameters = shader'.parameters ∧
        ∀ stage, (shader.program stage).AgreesWith (shader'.program stage) := by
  have hcomposes : Setting.Composes ⟨.gl, "cc_", 1, 7⟩ Pass.adjustedTwice := by
    decide +kernel
  obtain ⟨composed, hcomposed⟩ := hcomposes
  have hagree :=
    Setting.compose_dialects_agree ⟨.gl, "cc_", 1, 7⟩ catalogFree_adjustedTwice .gl .metal
  refine ⟨catalogFree_adjustedTwice, hagree.resolve_left ?_⟩
  rintro ⟨error, herror, -⟩
  have hboth := hcomposed.symm.trans herror
  contradiction

end ShaderComposer
