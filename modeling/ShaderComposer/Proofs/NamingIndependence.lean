import ShaderComposer.Effect.Color
import ShaderComposer.Proofs.ProgramPatterns

/-!
# What a composed shader owes to its naming

A naming shows in a shader only through the stems of its mangled names.  Names
meet under one naming exactly when they meet under every other, so what is merged,
which slots are given and whether anything fails is the same for all of them; and
one template writes the text of each stage.
-/

namespace ShaderComposer

/-! ## Shaders with open names -/

structure ParameterPattern where
  position : Nat
  localName : String
  name : NamePattern
  value : Value

structure ShaderPattern where
  source : Stage → Template
  bindings : Stage → List BindingPattern
  structs : List StructDecl
  parameters : List ParameterPattern

namespace Naming

variable (naming : Naming)

def name : NamePattern → String
  | .shared name => name
  | .placed position name => naming.stemAt position ++ name

def argument (pattern : ArgumentPattern) : Argument where
  type := pattern.type
  name := naming.name pattern.name
  qualifier := pattern.qualifier

def binding (pattern : BindingPattern) : Binding where
  argument := naming.argument pattern.argument
  slot := pattern.slot

def parameter (pattern : ParameterPattern) : BoundParameter where
  shaderIndex := naming.startIndex + pattern.position
  localName := pattern.localName
  name := naming.name pattern.name
  value := pattern.value

def function (placed : Nat × ShaderFunction) : ShaderFunction :=
  { placed.2 with name := naming.stemAt placed.1 ++ placed.2.name }

/-- The shader is the pattern under this naming.  Its text is that of the templates
when the stem can begin an identifier; a line feed in a stem would break lines. -/
structure Fits (pattern : ShaderPattern) (shader : Shader) : Prop where
  source :
    Text.isIdentifier naming.stem = true → ∀ stage,
      (shader.program stage).source = (pattern.source stage).fill naming.stemAt
  bindings :
    ∀ stage,
      (shader.program stage).bindings = (pattern.bindings stage).map naming.binding
  structs : shader.structs = pattern.structs
  parameters : shader.parameters = pattern.parameters.map naming.parameter

theorem stemAt_append_inj
    {first second : Nat} {name₁ name₂ : String}
    (h : naming.stemAt first ++ name₁ = naming.stemAt second ++ name₂) :
    first = second ∧ name₁ = name₂ := by
  have hinj := effectStem_append_inj h
  exact ⟨by omega, hinj.2⟩

theorem name_eq_under (pattern : NamePattern) :
    naming.name pattern = pattern.under naming.stemAt := by
  cases pattern <;> rfl

theorem binding_eq_under : naming.binding = BindingPattern.under naming.stemAt := by
  funext pattern
  unfold binding argument BindingPattern.under ArgumentPattern.under
  rw [name_eq_under]

end Naming

/-! ## Arguments -/

/-- Whether a pattern can belong to an argument of the stage: what every naming
keeps is in the catalog. -/
def NamePattern.Apt (dialect : Dialect) (stage : Stage) : NamePattern → Prop
  | shared name => Catalog.holds dialect stage name = true
  | placed _ _ => True

theorem Naming.name_eq_iff
    (naming : Naming) {dialect : Dialect} {stage : Stage}
    {first second : NamePattern}
    (hfirst : first.Apt dialect stage) (hsecond : second.Apt dialect stage) :
    naming.name first = naming.name second ↔ first = second := by
  constructor
  · intro hname
    cases first with
    | shared name₁ =>
        cases second with
        | shared name₂ =>
            exact congrArg NamePattern.shared hname
        | placed position name₂ =>
            change name₁ = naming.stemAt position ++ name₂ at hname
            subst hname
            have hmangled :=
              Catalog.holds_mangled dialect stage naming.stem
                (naming.startIndex + position) name₂
            exact absurd (hmangled.symm.trans hfirst) (by decide)
    | placed position name₁ =>
        cases second with
        | shared name₂ =>
            change naming.stemAt position ++ name₁ = name₂ at hname
            subst hname
            have hmangled :=
              Catalog.holds_mangled dialect stage naming.stem
                (naming.startIndex + position) name₁
            exact absurd (hmangled.symm.trans hsecond) (by decide)
        | placed position' name₂ =>
            obtain ⟨rfl, rfl⟩ := naming.stemAt_append_inj hname
            rfl
  · intro hpattern
    rw [hpattern]

def Argument.pattern (argument : Argument) : ArgumentPattern where
  type := argument.type
  name := .shared argument.name
  qualifier := argument.qualifier

def Site.argumentPattern
    (dialect : Dialect) (stage : Stage) (site : Site) (argument : Argument) :
    ArgumentPattern where
  type := argument.type
  name :=
    if Catalog.holds dialect stage argument.name then .shared argument.name
    else .placed site.position argument.name
  qualifier := argument.qualifier

def collectedArguments (dialect : Dialect) (stage : Stage) (passes : List Pass) :
    List ArgumentPattern :=
  (sites stage passes).flatMap fun site =>
    site.part.arguments.map (site.argumentPattern dialect stage)

variable {dialect : Dialect} {listIndex : Nat} {stage : Stage} {passes : List Pass}

theorem Naming.argument_argumentPattern
    (naming : Naming) (dialect : Dialect) (listIndex : Nat) (stage : Stage)
    (site : Site) (argument : Argument) :
    naming.argument (site.argumentPattern dialect stage argument) =
      ((naming.setting dialect listIndex).manglingAt stage site).argument argument := by
  have hkeeps :
      ((naming.setting dialect listIndex).manglingAt stage site).keeps argument.name =
        Catalog.holds dialect stage argument.name := rfl
  unfold Mangling.argument Site.argumentPattern Naming.argument
  rw [hkeeps]
  by_cases hholds : Catalog.holds dialect stage argument.name = true
  · simp [hholds, Naming.name]
  · simp only [hholds]
    rfl

theorem apt_of_mem
    {pattern : ArgumentPattern}
    (hmem :
      pattern ∈
        (Catalog.arguments dialect stage).map Argument.pattern ++
          collectedArguments dialect stage passes) :
    pattern.name.Apt dialect stage := by
  rcases List.mem_append.mp hmem with hdefault | hcollected
  · obtain ⟨argument, hargument, rfl⟩ := List.mem_map.mp hdefault
    exact List.contains_iff_mem.mpr (List.mem_map_of_mem hargument)
  · obtain ⟨site, -, hpattern⟩ := List.mem_flatMap.mp hcollected
    obtain ⟨argument, -, rfl⟩ := List.mem_map.mp hpattern
    by_cases hholds : Catalog.holds dialect stage argument.name = true
    · simp [Site.argumentPattern, hholds, NamePattern.Apt]
    · simp [Site.argumentPattern, hholds, NamePattern.Apt]

theorem Naming.argument_inj
    (naming : Naming) {first second : ArgumentPattern}
    (hfirst : first ∈ collectedArguments dialect stage passes)
    (hsecond : second ∈ collectedArguments dialect stage passes)
    (h : naming.argument first = naming.argument second) : first = second := by
  have hfirstApt := apt_of_mem (List.mem_append_right _ hfirst)
  have hsecondApt := apt_of_mem (List.mem_append_right _ hsecond)
  have hname : first.name = second.name :=
    (naming.name_eq_iff hfirstApt hsecondApt).mp (congrArg Argument.name h)
  cases first
  cases second
  simp_all [Naming.argument]

theorem Naming.map_collectedArguments (naming : Naming) :
    (collectedArguments dialect stage passes).map naming.argument =
      ((naming.setting dialect listIndex).builder stage passes).part.arguments := by
  rw [Setting.arguments_builder, collectedArguments, List.map_flatMap]
  simp only [List.map_map, Function.comp_def,
    naming.argument_argumentPattern dialect listIndex]

/-- Which arguments are merged into one is the same under every naming. -/
theorem Naming.outcome_arguments (naming : Naming) :
    Merge.outcome Argument.name (Catalog.arguments dialect stage)
        ((naming.setting dialect listIndex).builder stage passes).part.arguments =
      (Merge.outcome ArgumentPattern.name
        ((Catalog.arguments dialect stage).map Argument.pattern)
        (collectedArguments dialect stage passes)).map naming.argument := by
  have hdefaults :
      ((Catalog.arguments dialect stage).map Argument.pattern).map naming.argument =
        Catalog.arguments dialect stage := by
    rw [List.map_map]
    exact List.map_id _
  rw [← Merge.outcome_map ArgumentPattern.name Argument.name, hdefaults,
    naming.map_collectedArguments]
  · intro first hfirst second hsecond
    exact naming.name_eq_iff (apt_of_mem hfirst) (apt_of_mem hsecond)
  · intro first hfirst second hsecond
    exact naming.argument_inj hfirst hsecond

/-! ## Bindings -/

def ArgumentPattern.slotAfter
    (earlier : List ArgumentPattern) (argument : ArgumentPattern) : Option Nat :=
  if argument.qualifier.hasSlot then
    some (earlier.countP fun other => other.qualifier = argument.qualifier)
  else none

def bindingsAfter :
    List ArgumentPattern → List ArgumentPattern → List BindingPattern
  | _, [] => []
  | earlier, argument :: rest =>
    ⟨argument, argument.slotAfter earlier⟩ :: bindingsAfter (argument :: earlier) rest

/-- Slots are told by qualifiers, which no naming changes. -/
theorem Naming.assignAfter_map
    (naming : Naming) (earlier arguments : List ArgumentPattern) :
    Binding.assignAfter (earlier.map naming.argument)
        (arguments.map naming.argument) =
      (bindingsAfter earlier arguments).map naming.binding := by
  induction arguments generalizing earlier with
  | nil =>
      rfl
  | cons argument rest ih =>
      have hslot :
          Binding.slotAfter (earlier.map naming.argument) (naming.argument argument) =
            argument.slotAfter earlier := by
        unfold Binding.slotAfter ArgumentPattern.slotAfter
        rw [List.countP_map]
        rfl
      rw [List.map_cons, Binding.assignAfter, hslot, ← List.map_cons, ih]
      rfl

def bindingPatterns (dialect : Dialect) (stage : Stage) (passes : List Pass) :
    List BindingPattern :=
  bindingsAfter []
    (Merge.outcome ArgumentPattern.name
      ((Catalog.arguments dialect stage).map Argument.pattern)
      (collectedArguments dialect stage passes))

theorem Naming.bindings_program
    (naming : Naming) (dialect : Dialect) (listIndex : Nat) (stage : Stage)
    (passes : List Pass) :
    ((naming.setting dialect listIndex).builder stage passes).program.bindings =
      (bindingPatterns dialect stage passes).map naming.binding := by
  rw [bindingPatterns, ← naming.assignAfter_map, ← naming.outcome_arguments]
  rfl

/-! ## Functions -/

def collectedFunctions (stage : Stage) (passes : List Pass) :
    List (Nat × ShaderFunction) :=
  (sites stage passes).flatMap fun site =>
    site.part.functions.map (Prod.mk site.position)

theorem Naming.function_inj
    (naming : Naming) {first second : Nat × ShaderFunction}
    (h : naming.function first = naming.function second) : first = second := by
  obtain ⟨position, function⟩ := first
  obtain ⟨position', function'⟩ := second
  obtain ⟨rfl, hname⟩ :=
    naming.stemAt_append_inj (congrArg ShaderFunction.name h)
  cases function
  cases function'
  simp_all [Naming.function]

theorem Naming.map_collectedFunctions (naming : Naming) :
    (collectedFunctions stage passes).map naming.function =
      ((naming.setting dialect listIndex).builder stage passes).part.functions := by
  rw [Setting.functions_builder, collectedFunctions, List.map_flatMap]
  simp only [List.map_map]
  rfl

theorem Naming.outcome_functions (naming : Naming) :
    Merge.outcome ShaderFunction.name []
        ((naming.setting dialect listIndex).builder stage passes).part.functions =
      (Merge.outcome (fun placed => (placed.1, placed.2.name)) []
        (collectedFunctions stage passes)).map naming.function := by
  rw [← Merge.outcome_map (fun placed => (placed.1, placed.2.name))
    ShaderFunction.name naming.function, naming.map_collectedFunctions, List.map_nil]
  · intro first _ second _
    constructor
    · intro hname
      obtain ⟨hposition, hlocal⟩ := naming.stemAt_append_inj hname
      rw [hposition, hlocal]
    · intro hplaced
      simp only [Prod.mk.injEq] at hplaced
      simp only [Naming.function, hplaced]
  · intro first _ second _
    exact naming.function_inj

/-! ## The main body -/

/-- What a name used as an actual input stands for, its words left open. -/
def Site.resolve (dialect : Dialect) (stage : Stage) (site : Site) (name : String) :
    NamePattern :=
  if (site.part.calls.map Call.output).contains name then .placed site.position name
  else if (site.part.arguments.map Argument.name).contains name &&
      !Catalog.holds dialect stage name then
    .placed site.position name
  else
    match site.part.temporaries.reverse.find? fun temporary => temporary.name = name with
    | none => .shared name
    | some temporary =>
      if temporary.initializer = Initializer.chainInput stage then
        match site.source with
        | none => .placed site.position name
        | some source => .placed source.1 source.2
      else .placed site.position name

def Site.invocationPattern
    (dialect : Dialect) (stage : Stage) (site : Site) (call : Call) :
    InvocationPattern where
  position := site.position
  resultType := call.function.returnType
  output := call.output
  function := call.function.name
  arguments :=
    call.function.inputs.map fun formal =>
      ((call.inputs.get? formal.name).map (site.resolve dialect stage)).getD (.shared "")

def Site.temporaryPattern
    (listIndex : Nat) (stage : Stage) (site : Site) (temporary : Temporary) :
    Nat × Temporary :=
  (site.position,
    { temporary with
      initializer :=
        if stage = .fragment &&
            (decide (temporary.initializer = Initializer.chainInput stage) ||
              decide (0 < listIndex)) then
          temporary.initializer.promote
        else temporary.initializer })

theorem Naming.under_resolve
    (naming : Naming) (dialect : Dialect) (listIndex : Nat) (stage : Stage)
    (site : Site) (name : String) :
    (site.resolve dialect stage name).under naming.stemAt =
      ((naming.setting dialect listIndex).manglingAt stage site).resolve site.part
        name := by
  have hkeeps :
      ((naming.setting dialect listIndex).manglingAt stage site).keeps name =
        Catalog.holds dialect stage name := rfl
  unfold Site.resolve Mangling.resolve
  rw [hkeeps]
  split
  · rfl
  split
  · rfl
  cases site.part.temporaries.reverse.find? fun temporary => temporary.name = name with
  | none =>
      rfl
  | some temporary =>
      simp only [Setting.standIn?_manglingAt]
      split
      · cases site.source with
        | none =>
            rfl
        | some source =>
            rfl
      · rfl

theorem Naming.under_invocationPattern
    (naming : Naming) (dialect : Dialect) (listIndex : Nat) (stage : Stage)
    (site : Site) (call : Call) :
    (site.invocationPattern dialect stage call).under naming.stemAt =
      (((naming.setting dialect listIndex).manglingAt stage site).call site.part
        call).filled := by
  have harguments :
      ((site.invocationPattern dialect stage call).arguments.map
          (NamePattern.under naming.stemAt)) =
        (((naming.setting dialect listIndex).manglingAt stage site).call site.part
          call).arguments := by
    unfold Site.invocationPattern Call.arguments
    rw [List.map_map]
    apply List.map_congr_left
    intro formal _
    simp only [Mangling.call, Actuals.get?_map, Function.comp_apply]
    cases call.inputs.get? formal.name with
    | none =>
        rfl
    | some name =>
        exact naming.under_resolve dialect listIndex stage site name
  unfold InvocationPattern.under Call.filled
  rw [harguments]
  rfl

def programStructs (dialect : Dialect) (stage : Stage) (passes : List Pass) :
    List StructDecl :=
  Merge.outcome StructDecl.name (Catalog.structs dialect)
    ((sites stage passes).flatMap fun site => site.part.structs)

theorem Naming.structs_program
    (naming : Naming) (dialect : Dialect) (listIndex : Nat) (stage : Stage)
    (passes : List Pass) :
    ((naming.setting dialect listIndex).builder stage passes).program.structs =
      programStructs dialect stage passes := by
  unfold programStructs
  rw [← Setting.structs_builder]
  rfl

def programPattern
    (dialect : Dialect) (listIndex : Nat) (stage : Stage) (passes : List Pass) :
    ProgramPattern where
  dialect := dialect
  stage := stage
  structs := programStructs dialect stage passes
  bindings := bindingPatterns dialect stage passes
  functions :=
    Merge.outcome (fun placed => (placed.1, placed.2.name)) []
      (collectedFunctions stage passes)
  temporaries :=
    (sites stage passes).flatMap fun site =>
      (site.declared stage).map (site.temporaryPattern listIndex stage)
  invocations :=
    (sites stage passes).flatMap fun site =>
      site.part.calls.map (site.invocationPattern dialect stage)
  output := latest stage passes passes.length

theorem Naming.program_eq
    (naming : Naming) (dialect : Dialect) (listIndex : Nat) (stage : Stage)
    (passes : List Pass) :
    ((naming.setting dialect listIndex).builder stage passes).program =
      (programPattern dialect listIndex stage passes).under naming.stemAt := by
  let program := ((naming.setting dialect listIndex).builder stage passes).program
  let pattern := programPattern dialect listIndex stage passes
  have hstructs : program.structs = pattern.structs :=
    naming.structs_program dialect listIndex stage passes
  have hbindings :
      program.bindings = pattern.bindings.map (BindingPattern.under naming.stemAt) := by
    rw [← naming.binding_eq_under]
    exact naming.bindings_program dialect listIndex stage passes
  have hfunctions : program.functions = pattern.functions.map naming.function :=
    naming.outcome_functions
  have htemporaries :
      program.temporaries = (pattern.under naming.stemAt).temporaries := by
    change Part.temporaries _ = List.map _ (List.flatMap _ _)
    rw [Setting.temporaries_builder, List.map_flatMap]
    simp only [List.map_map]
    rfl
  have hinvocations :
      program.invocations = (pattern.under naming.stemAt).invocations := by
    change List.map Call.filled (Part.calls _) = List.map _ (List.flatMap _ _)
    rw [Setting.calls_builder, List.map_flatMap, List.map_flatMap]
    simp only [List.map_map, Function.comp_def,
      naming.under_invocationPattern dialect listIndex]
  have houtput : program.output = (pattern.under naming.stemAt).output :=
    Setting.output?_builder _ stage passes
  calc program
      = ⟨dialect, stage, program.structs, program.bindings, program.functions,
          program.temporaries, program.invocations, program.output⟩ := rfl
    _ = pattern.under naming.stemAt := by
        rw [hstructs, hbindings, hfunctions, htemporaries, hinvocations, houtput]
        rfl

theorem uniform_source
    (dialect : Dialect) (listIndex : Nat) (stage : Stage) (passes : List Pass) :
    ∃ template : Template, ∀ naming : Naming,
      Text.isIdentifier naming.stem = true →
        ((naming.setting dialect listIndex).builder stage passes).program.source =
          template.fill naming.stemAt := by
  obtain ⟨template, htemplate⟩ :=
    (programPattern dialect listIndex stage passes).uniform_source
  refine ⟨template, ?_⟩
  intro naming hidentifier
  rw [naming.program_eq]
  exact htemplate naming.stemAt (Naming.solid_stemAt hidentifier)

/-! ## Parameters -/

def Pass.parameterPatterns
    (dialect : Dialect) (position : Nat) (pass : Pass) : List ParameterPattern :=
  pass.parameters.map fun parameter =>
    { position := position
      localName := parameter.name
      name :=
        if Catalog.holds dialect .vertex parameter.name ||
            Catalog.holds dialect .fragment parameter.name then
          .shared parameter.name
        else .placed position parameter.name
      value := parameter.value }

def parameterPatternsFrom (dialect : Dialect) : Nat → List Pass → List ParameterPattern
  | _, [] => []
  | position, pass :: rest =>
    pass.parameterPatterns dialect position ++
      parameterPatternsFrom dialect (position + 1) rest

theorem parameterPatternsFrom_eq
    (dialect : Dialect) (position : Nat) (passes : List Pass) :
    parameterPatternsFrom dialect position passes =
      (passes.zipIdx position).flatMap fun entry =>
        entry.1.parameterPatterns dialect entry.2 := by
  induction passes generalizing position with
  | nil =>
      rfl
  | cons pass rest ih =>
      rw [parameterPatternsFrom, ih, List.zipIdx_cons, List.flatMap_cons]

theorem Naming.parametersAt_setting
    (naming : Naming) (dialect : Dialect) (listIndex position : Nat) (pass : Pass) :
    (naming.setting dialect listIndex).parametersAt position pass =
      (pass.parameterPatterns dialect position).map naming.parameter := by
  unfold Setting.parametersAt Pass.parameterPatterns
  rw [List.map_map]
  apply List.map_congr_left
  intro parameter _
  have hcatalogued :
      (naming.setting dialect listIndex).catalogued parameter.name =
        (Catalog.holds dialect .vertex parameter.name ||
          Catalog.holds dialect .fragment parameter.name) := rfl
  rw [hcatalogued, Function.comp_apply]
  by_cases hshared :
      (Catalog.holds dialect .vertex parameter.name ||
        Catalog.holds dialect .fragment parameter.name) = true
  · simp only [hshared]
    rfl
  · simp only [hshared]
    rfl

theorem Naming.parametersFrom_setting
    (naming : Naming) (dialect : Dialect) (listIndex position : Nat)
    (passes : List Pass) :
    (naming.setting dialect listIndex).parametersFrom position passes =
      (parameterPatternsFrom dialect position passes).map naming.parameter := by
  induction passes generalizing position with
  | nil =>
      rfl
  | cons pass rest ih =>
      rw [Setting.parametersFrom, parameterPatternsFrom, List.map_append, ih,
        naming.parametersAt_setting]

/-! ## The whole shader -/

def ShaderPattern.ofPasses
    (dialect : Dialect) (passes : List Pass) (source : Stage → Template) :
    ShaderPattern where
  source := source
  bindings := fun stage => bindingPatterns dialect stage passes
  structs :=
    programStructs dialect .fragment passes ++
      (programStructs dialect .vertex passes).filter fun struct =>
        !((programStructs dialect .fragment passes).map StructDecl.name).contains
          struct.name
  parameters := parameterPatternsFrom dialect 0 passes

theorem Naming.fits_shader
    (naming : Naming) (dialect : Dialect) (listIndex : Nat) (passes : List Pass)
    {source : Stage → Template}
    (hsource :
      Text.isIdentifier naming.stem = true → ∀ stage,
        ((naming.setting dialect listIndex).builder stage passes).program.source =
          (source stage).fill naming.stemAt) :
    naming.Fits (ShaderPattern.ofPasses dialect passes source)
      ((naming.setting dialect listIndex).shader passes) := by
  constructor
  · intro hidentifier stage
    rw [Setting.program_shader]
    exact hsource hidentifier stage
  · intro stage
    rw [Setting.program_shader]
    exact naming.bindings_program dialect listIndex stage passes
  · change Setting.sharedStructs _ _ = _
    unfold Setting.sharedStructs
    rw [naming.structs_program, naming.structs_program]
    rfl
  · exact naming.parametersFrom_setting dialect listIndex 0 passes

/-- The naming decides neither whether passes compose nor, when they do, anything
of the shader but the stems: one pattern gives it under every naming. -/
theorem compose_differs_only_in_stems
    (dialect : Dialect) (listIndex : Nat) (passes : List Pass) :
    (∀ first second : Naming,
      (first.setting dialect listIndex).Composes passes ↔
        (second.setting dialect listIndex).Composes passes) ∧
    ((∃ naming : Naming, (naming.setting dialect listIndex).Composes passes) →
      ∃ pattern : ShaderPattern, ∀ naming : Naming, ∃ shader,
        (naming.setting dialect listIndex).compose passes = .ok shader ∧
          naming.Fits pattern shader) := by
  have hsame (first second : Naming) :
      (first.setting dialect listIndex).Composes passes ↔
        (second.setting dialect listIndex).Composes passes := by
    rw [Setting.composes_iff, Setting.composes_iff]
    rfl
  refine ⟨hsame, ?_⟩
  rintro ⟨chosen, hcomposes⟩
  choose source hsource using
    fun stage => uniform_source dialect listIndex stage passes
  refine ⟨ShaderPattern.ofPasses dialect passes source, ?_⟩
  intro naming
  have hnaming := (hsame chosen naming).mp hcomposes
  refine ⟨_, Setting.Composes.compose_eq _ hnaming, ?_⟩
  apply naming.fits_shader
  intro hidentifier stage
  exact hsource stage naming hidentifier

/-- Two adjustments, which after nine other effects have indices of unlike lengths. -/
def Pass.adjustedPair : List Pass :=
  [Adjustment.brightness.pass 0.5 .metal, Adjustment.contrast.pass 0.25 .metal]

theorem compose_adjustedPair_differs_only_in_stems :
    (Naming.setting ⟨"cc_", 9⟩ .metal 0).Composes Pass.adjustedPair ∧
    ∃ pattern : ShaderPattern, ∀ naming : Naming, ∃ shader,
      (naming.setting .metal 0).compose Pass.adjustedPair = .ok shader ∧
        naming.Fits pattern shader := by
  have hcomposes :
      (Naming.setting ⟨"cc_", 9⟩ .metal 0).Composes Pass.adjustedPair := by
    decide +kernel
  have hdiffers := compose_differs_only_in_stems .metal 0 Pass.adjustedPair
  exact ⟨hcomposes, hdiffers.2 ⟨_, hcomposes⟩⟩

end ShaderComposer
