import ShaderComposer.Proofs.BuildLaws
import ShaderComposer.Proofs.ChainSkeleton
import ShaderComposer.Proofs.FaultyPasses
import ShaderComposer.Proofs.MangledNames
import Mathlib.Data.List.Induction
import Mathlib.Data.List.Perm.Basic

/-!
# What is collected for a stage, and when it composes

The builder of a stage holds the parts of its sites under their new names.
Names of different sites never meet, and inside a site they meet exactly when
the local names do.  So whether a list of passes composes can be told site by
site, from local names alone; only structs and the arguments of the catalog are
compared across sites.
-/

namespace ShaderComposer

namespace Site

variable (stage : Stage) (site : Site)

/-- Whether an earlier result stands in for a temporary. -/
def suppresses (temporary : Temporary) : Bool :=
  decide (temporary.initializer = Initializer.chainInput stage) &&
    site.source.isSome

def declared : List Temporary :=
  site.part.temporaries.filter fun temporary =>
    !site.suppresses stage temporary

def locals : List String :=
  (site.declared stage).map Temporary.name ++ site.part.calls.map Call.output

end Site

def Mangling.declare (mangling : Mangling) (temporary : Temporary) : Temporary where
  type := temporary.type
  name := mangling.mangle temporary.name
  initializer := mangling.source temporary.initializer

@[simp] theorem Mangling.availableIn_declare
    (mangling : Mangling) (temporary : Temporary) (stage : Stage) :
    (mangling.declare temporary).availableIn stage =
      temporary.availableIn stage := by
  simp only [Temporary.availableIn, Initializer.availableIn,
    Mangling.declare, Mangling.source]
  split
  · rw [Initializer.stage_promote]
  · rfl

@[simp] theorem Mangling.unbound?_call
    (mangling : Mangling) (part : Part) (call : Call) :
    (mangling.call part call).unbound? = call.unbound? := by
  simp [Mangling.call, Mangling.function, Call.unbound?]

namespace Setting

variable (setting : Setting) {stage : Stage} {passes : List Pass}

def manglingAt (stage : Stage) (site : Site) : Mangling :=
  setting.mangling stage (setting.link site)

theorem mangle_manglingAt (site : Site) (name : String) :
    (setting.manglingAt stage site).mangle name =
      setting.stemAt site.position ++ name := rfl

theorem stemAt_append_inj
    {first second : Nat} {name₁ name₂ : String}
    (h : setting.stemAt first ++ name₁ = setting.stemAt second ++ name₂) :
    first = second ∧ name₁ = name₂ := by
  have hinj := effectStem_append_inj h
  exact ⟨by omega, hinj.2⟩

theorem holds_stemAt (dialect : Dialect) (position : Nat) (name : String) :
    Catalog.holds dialect stage (setting.stemAt position ++ name) = false :=
  Catalog.holds_mangled dialect stage setting.stem _ name

theorem mangle_inj
    {first second : Site} {name₁ name₂ : String}
    (hfirst : first ∈ sites stage passes)
    (hsecond : second ∈ sites stage passes)
    (h :
      (setting.manglingAt stage first).mangle name₁ =
        (setting.manglingAt stage second).mangle name₂) :
    first = second ∧ name₁ = name₂ := by
  have hinj := setting.stemAt_append_inj h
  exact ⟨eq_of_position_eq hfirst hsecond hinj.1, hinj.2⟩

/-! ## The collected part -/

theorem part_builder (stage : Stage) (passes : List Pass) :
    (setting.builder stage passes).part =
      Part.concat
        ((sites stage passes).map fun site =>
          (setting.manglingAt stage site).part site.part) := by
  simp only [builder, links_eq, List.map_map]
  rfl

theorem structs_builder (stage : Stage) (passes : List Pass) :
    (setting.builder stage passes).part.structs =
      (sites stage passes).flatMap fun site => site.part.structs := by
  rw [part_builder, Part.structs_concat, List.flatMap_map]
  rfl

theorem functions_builder (stage : Stage) (passes : List Pass) :
    (setting.builder stage passes).part.functions =
      (sites stage passes).flatMap fun site =>
        site.part.functions.map (setting.manglingAt stage site).function := by
  rw [part_builder, Part.functions_concat, List.flatMap_map]
  rfl

theorem arguments_builder (stage : Stage) (passes : List Pass) :
    (setting.builder stage passes).part.arguments =
      (sites stage passes).flatMap fun site =>
        site.part.arguments.map (setting.manglingAt stage site).argument := by
  rw [part_builder, Part.arguments_concat, List.flatMap_map]
  rfl

theorem calls_builder (stage : Stage) (passes : List Pass) :
    (setting.builder stage passes).part.calls =
      (sites stage passes).flatMap fun site =>
        site.part.calls.map ((setting.manglingAt stage site).call site.part) := by
  rw [part_builder, Part.calls_concat, List.flatMap_map]
  rfl

theorem standIn?_manglingAt (site : Site) (temporary : Temporary) :
    (setting.manglingAt stage site).standIn? temporary =
      if temporary.initializer = Initializer.chainInput stage then
        site.source.map setting.sourceName
      else none := by
  simp only [Mangling.standIn?, Mangling.readsChain, decide_eq_true_eq]
  rfl

theorem temporary?_manglingAt (site : Site) (temporary : Temporary) :
    (setting.manglingAt stage site).temporary? temporary =
      if site.suppresses stage temporary then none
      else some ((setting.manglingAt stage site).declare temporary) := by
  rw [Mangling.temporary?, standIn?_manglingAt, Site.suppresses]
  by_cases hchain : temporary.initializer = Initializer.chainInput stage
  · cases hsource : site.source with
    | none =>
        simp [hchain, Mangling.declare]
    | some source =>
        simp [hchain]
  · simp [hchain, Mangling.declare]

theorem temporaries_builder (stage : Stage) (passes : List Pass) :
    (setting.builder stage passes).part.temporaries =
      (sites stage passes).flatMap fun site =>
        (site.declared stage).map (setting.manglingAt stage site).declare := by
  rw [part_builder, Part.temporaries_concat, List.flatMap_map]
  congr 1
  funext site
  simp only [Mangling.part, Site.declared]
  induction site.part.temporaries with
  | nil =>
      rfl
  | cons temporary rest ih =>
      rw [List.filterMap_cons, temporary?_manglingAt]
      cases hsuppressed : site.suppresses stage temporary with
      | true =>
          simp [hsuppressed, ih]
      | false =>
          simp [hsuppressed, ih]

/-- Up to order, the variables are those of the sites one after the other. -/
theorem variables_builder (stage : Stage) (passes : List Pass) :
    (setting.builder stage passes).part.variables.Perm
      ((sites stage passes).flatMap fun site =>
        (site.locals stage).map (setting.manglingAt stage site).mangle) := by
  rw [Part.variables, temporaries_builder, calls_builder,
    List.map_flatMap, List.map_flatMap]
  simp only [List.map_map, Site.locals, List.map_append]
  exact List.flatMap_append_perm _ _ _

theorem output?_builder (stage : Stage) (passes : List Pass) :
    (setting.builder stage passes).part.output? =
      (latest stage passes passes.length).map setting.sourceName := by
  induction passes using List.reverseRecOn with
  | nil =>
      rfl
  | append_singleton passes pass ih =>
      have hlatest :
          latest stage (passes ++ [pass]) (passes ++ [pass]).length =
            ((pass.output? stage).map (Prod.mk passes.length)).or
              (latest stage passes passes.length) := by
        rw [List.length_append, List.length_singleton, latest,
          latest_append [pass] (Nat.le_refl passes.length)]
        simp [outputAt]
      rw [hlatest, Part.output?, calls_builder, sites_append_singleton,
        List.flatMap_append, ← calls_builder, List.getLast?_append, Option.map_or,
        ← Part.output?, ih, Option.map_or]
      congr 1
      cases hpart : pass.part? stage with
      | none =>
          simp [Pass.output?, hpart]
      | some part =>
          simp only [Option.map_some, Option.toList_some, List.flatMap_singleton,
            List.getLast?_map, Option.map_map, Pass.output?, hpart,
            Option.bind_some, Part.output?]
          rfl

theorem mainLines_program (stage : Stage) (passes : List Pass) :
    (setting.builder stage passes).program.mainLines =
      (setting.builder stage passes).program.body.map
          (Statement.text setting.dialect) ++
        Program.writeBack setting.dialect stage
          (((latest stage passes passes.length).map setting.sourceName).getD
            (Program.untouched setting.dialect stage)) := by
  rw [← output?_builder]
  rfl

end Setting

/-! ## When the collected part is well formed -/

/-- Declarations in a stage that agree, told from local names alone. -/
structure Composable (dialect : Dialect) (stage : Stage) (passes : List Pass) :
    Prop where
  structs :
    Merge.Coherent StructDecl.name
      ((sites stage passes).flatMap fun site => site.part.structs)
  shared :
    Merge.Coherent Argument.name
      (((sites stage passes).flatMap fun site => site.part.arguments).filter
        fun argument => Catalog.holds dialect stage argument.name)
  arguments :
    ∀ site ∈ sites stage passes,
      Merge.Coherent Argument.name site.part.arguments
  functions :
    ∀ site ∈ sites stage passes,
      Merge.Coherent ShaderFunction.name site.part.functions
  locals : ∀ site ∈ sites stage passes, (site.locals stage).Nodup

namespace Setting

variable (setting : Setting) {stage : Stage} {passes : List Pass}

theorem function_inj
    {site : Site} {first second : ShaderFunction}
    (hname : first.name = second.name)
    (h :
      (setting.manglingAt stage site).function first =
        (setting.manglingAt stage site).function second) :
    first = second := by
  cases first
  cases second
  simp_all [Mangling.function]

theorem coherent_functions_iff :
    Merge.Coherent ShaderFunction.name
        (setting.builder stage passes).part.functions ↔
      ∀ site ∈ sites stage passes,
        Merge.Coherent ShaderFunction.name site.part.functions := by
  rw [functions_builder]
  constructor
  · intro hcoherent site hsite first hfirst second hsecond hname
    apply setting.function_inj hname
    apply hcoherent
    · exact List.mem_flatMap.mpr ⟨site, hsite, List.mem_map_of_mem hfirst⟩
    · exact List.mem_flatMap.mpr ⟨site, hsite, List.mem_map_of_mem hsecond⟩
    · exact congrArg (setting.manglingAt stage site).mangle hname
  · intro hlocal first hfirst second hsecond hname
    obtain ⟨site, hsite, hfirst⟩ := List.mem_flatMap.mp hfirst
    obtain ⟨site', hsite', hsecond⟩ := List.mem_flatMap.mp hsecond
    obtain ⟨original, horiginal, rfl⟩ := List.mem_map.mp hfirst
    obtain ⟨original', horiginal', rfl⟩ := List.mem_map.mp hsecond
    obtain ⟨rfl, horiginals⟩ := setting.mangle_inj hsite hsite' hname
    rw [hlocal site hsite original horiginal original' horiginal' horiginals]

/-- What a name of an argument becomes tells the argument's name, and its site
unless the name is in the catalog. -/
theorem argument_name_inj
    {site site' : Site} {first second : Argument}
    (hsite : site ∈ sites stage passes)
    (hsite' : site' ∈ sites stage passes)
    (h :
      ((setting.manglingAt stage site).argument first).name =
        ((setting.manglingAt stage site').argument second).name) :
    first.name = second.name ∧
      (Catalog.holds setting.dialect stage first.name = true ∨ site = site') := by
  have hkeeps (site : Site) (name : String) :
      (setting.manglingAt stage site).keeps name =
        Catalog.holds setting.dialect stage name := rfl
  unfold Mangling.argument at h
  rw [hkeeps, hkeeps] at h
  cases hfirst : Catalog.holds setting.dialect stage first.name with
  | true =>
      cases hsecond : Catalog.holds setting.dialect stage second.name with
      | true =>
          exact ⟨by simpa [hfirst, hsecond] using h, .inl rfl⟩
      | false =>
          simp only [hfirst, hsecond, if_true, Bool.false_eq_true, if_false,
            mangle_manglingAt] at h
          rw [h, holds_stemAt] at hfirst
          contradiction
  | false =>
      cases hsecond : Catalog.holds setting.dialect stage second.name with
      | true =>
          simp only [hfirst, hsecond, if_true, Bool.false_eq_true, if_false,
            mangle_manglingAt] at h
          rw [← h, holds_stemAt] at hsecond
          contradiction
      | false =>
          simp only [hfirst, hsecond, Bool.false_eq_true, if_false] at h
          obtain ⟨rfl, hname⟩ := setting.mangle_inj hsite hsite' h
          exact ⟨hname, .inr rfl⟩

theorem argument_of_holds
    {site : Site} {argument : Argument}
    (hholds : Catalog.holds setting.dialect stage argument.name = true) :
    (setting.manglingAt stage site).argument argument = argument :=
  if_pos hholds

theorem argument_name_congr
    (site : Site) {first second : Argument}
    (hname : first.name = second.name) :
    ((setting.manglingAt stage site).argument first).name =
      ((setting.manglingAt stage site).argument second).name := by
  simp only [Mangling.argument, hname]
  split
  · exact hname
  · rfl

theorem argument_inj
    {site : Site} {first second : Argument}
    (hname : first.name = second.name)
    (h :
      (setting.manglingAt stage site).argument first =
        (setting.manglingAt stage site).argument second) :
    first = second := by
  cases first
  cases second
  simp only [Mangling.argument] at h hname
  subst hname
  split at h <;> simp_all

theorem coherent_arguments_iff :
    Merge.Coherent Argument.name
        (setting.builder stage passes).part.arguments ↔
      Merge.Coherent Argument.name
        (((sites stage passes).flatMap fun site => site.part.arguments).filter
          fun argument => Catalog.holds setting.dialect stage argument.name) ∧
      ∀ site ∈ sites stage passes,
        Merge.Coherent Argument.name site.part.arguments := by
  rw [arguments_builder]
  constructor
  · intro hcoherent
    constructor
    · intro first hfirst second hsecond hname
      -- Arguments of the catalog are collected as they are.
      have hcollected {argument : Argument}
          (hmem : argument ∈
            ((sites stage passes).flatMap fun site => site.part.arguments).filter
              fun argument => Catalog.holds setting.dialect stage argument.name) :
          argument ∈
            (sites stage passes).flatMap fun site =>
              site.part.arguments.map (setting.manglingAt stage site).argument := by
        obtain ⟨hmem, hholds⟩ := List.mem_filter.mp hmem
        obtain ⟨site, hsite, hargument⟩ := List.mem_flatMap.mp hmem
        refine List.mem_flatMap.mpr ⟨site, hsite, List.mem_map.mpr ?_⟩
        exact ⟨argument, hargument, setting.argument_of_holds hholds⟩
      exact hcoherent first (hcollected hfirst) second (hcollected hsecond) hname
    · intro site hsite first hfirst second hsecond hname
      apply setting.argument_inj hname
      apply hcoherent
      · exact List.mem_flatMap.mpr ⟨site, hsite, List.mem_map_of_mem hfirst⟩
      · exact List.mem_flatMap.mpr ⟨site, hsite, List.mem_map_of_mem hsecond⟩
      · exact setting.argument_name_congr site hname
  · rintro ⟨hshared, hlocal⟩ first hfirst second hsecond hname
    obtain ⟨site, hsite, hfirst⟩ := List.mem_flatMap.mp hfirst
    obtain ⟨site', hsite', hsecond⟩ := List.mem_flatMap.mp hsecond
    obtain ⟨original, horiginal, rfl⟩ := List.mem_map.mp hfirst
    obtain ⟨original', horiginal', rfl⟩ := List.mem_map.mp hsecond
    obtain ⟨hnames, hholds | rfl⟩ := setting.argument_name_inj hsite hsite' hname
    · have hholds' : Catalog.holds setting.dialect stage original'.name = true :=
        hnames ▸ hholds
      rw [setting.argument_of_holds hholds, setting.argument_of_holds hholds']
      apply hshared original ?_ original' ?_ hnames
      · exact List.mem_filter.mpr
          ⟨List.mem_flatMap.mpr ⟨site, hsite, horiginal⟩, hholds⟩
      · exact List.mem_filter.mpr
          ⟨List.mem_flatMap.mpr ⟨site', hsite', horiginal'⟩, hholds'⟩
    · rw [hlocal site hsite original horiginal original' horiginal' hnames]

theorem mangle_injective (site : Site) :
    Function.Injective (setting.manglingAt stage site).mangle :=
  fun _ _ h => (setting.stemAt_append_inj h).2

theorem nodup_variables_iff :
    (setting.builder stage passes).part.variables.Nodup ↔
      ∀ site ∈ sites stage passes, (site.locals stage).Nodup := by
  rw [(setting.variables_builder stage passes).nodup_iff, List.nodup_flatMap]
  constructor
  · rintro ⟨hnodup, -⟩ site hsite
    exact (hnodup site hsite).of_map _
  · intro hlocal
    constructor
    · intro site hsite
      exact (hlocal site hsite).map (setting.mangle_injective site)
    · apply (pairwise_sites stage passes).imp_of_mem
      intro first second hfirst hsecond hlt
      unfold Function.onFun
      rw [List.disjoint_left]
      intro name hname hname'
      obtain ⟨local₁, -, rfl⟩ := List.mem_map.mp hname
      obtain ⟨local₂, -, heq⟩ := List.mem_map.mp hname'
      have hposition : second.position = first.position :=
        (setting.stemAt_append_inj heq).1
      omega

end Setting

/-! ## When a list of passes composes -/

def Shader.program (shader : Shader) : Stage → Program
  | .vertex => shader.vertex
  | .fragment => shader.fragment

namespace Setting

variable (setting : Setting) {stage : Stage} {passes : List Pass}

theorem sound_of_mem_sites
    (hsound : ∀ pass ∈ passes, ¬ pass.Faulty)
    {site : Site} (hsite : site ∈ sites stage passes) :
    ¬ site.part.Faulty stage := by
  obtain ⟨pass, hpass, hpart⟩ := exists_pass_of_mem_sites hsite
  intro hfaulty
  exact hsound pass hpass ⟨stage, site.part, hpart, hfaulty⟩

theorem available_builder
    (hsound : ∀ pass ∈ passes, ¬ pass.Faulty)
    {temporary : Temporary}
    (hmem : temporary ∈ (setting.builder stage passes).part.temporaries) :
    temporary.availableIn stage = true := by
  rw [temporaries_builder] at hmem
  obtain ⟨site, hsite, hmem⟩ := List.mem_flatMap.mp hmem
  obtain ⟨original, horiginal, rfl⟩ := List.mem_map.mp hmem
  rw [Mangling.availableIn_declare]
  exact (Part.not_faulty_iff.mp (sound_of_mem_sites hsound hsite)).1 original
    (List.mem_filter.mp horiginal).1

theorem listed_builder
    (hsound : ∀ pass ∈ passes, ¬ pass.Faulty)
    {call : Call} (hmem : call ∈ (setting.builder stage passes).part.calls) :
    call.function.name ∈
      (setting.builder stage passes).part.functions.map ShaderFunction.name := by
  rw [calls_builder] at hmem
  obtain ⟨site, hsite, hmem⟩ := List.mem_flatMap.mp hmem
  obtain ⟨original, horiginal, rfl⟩ := List.mem_map.mp hmem
  have hlisted :=
    (Part.not_faulty_iff.mp (sound_of_mem_sites hsound hsite)).2.1
      original horiginal
  obtain ⟨function, hfunction, hname⟩ := List.mem_map.mp hlisted
  rw [functions_builder]
  refine List.mem_map.mpr
    ⟨(setting.manglingAt stage site).function function, ?_, ?_⟩
  · exact List.mem_flatMap.mpr ⟨site, hsite, List.mem_map_of_mem hfunction⟩
  · exact congrArg (setting.manglingAt stage site).mangle hname

theorem bound_builder
    (hsound : ∀ pass ∈ passes, ¬ pass.Faulty)
    {call : Call} (hmem : call ∈ (setting.builder stage passes).part.calls) :
    call.unbound? = none := by
  rw [calls_builder] at hmem
  obtain ⟨site, hsite, hmem⟩ := List.mem_flatMap.mp hmem
  obtain ⟨original, horiginal, rfl⟩ := List.mem_map.mp hmem
  rw [Mangling.unbound?_call]
  exact
    (Part.not_faulty_iff.mp (sound_of_mem_sites hsound hsite)).2.2
      original horiginal

theorem wellFormed_builder_iff
    (hsound : ∀ pass ∈ passes, ¬ pass.Faulty) :
    (setting.builder stage passes).WellFormed ↔
      Composable setting.dialect stage passes := by
  constructor
  · intro hwell
    have harguments := setting.coherent_arguments_iff.mp hwell.arguments
    exact
      { structs := setting.structs_builder stage passes ▸ hwell.structs
        shared := harguments.1
        arguments := harguments.2
        functions := setting.coherent_functions_iff.mp hwell.functions
        locals := setting.nodup_variables_iff.mp hwell.distinct }
  · intro hcomposable
    exact
      { structs := by
          rw [structs_builder]
          exact hcomposable.structs
        arguments :=
          setting.coherent_arguments_iff.mpr
            ⟨hcomposable.shared, hcomposable.arguments⟩
        functions := setting.coherent_functions_iff.mpr hcomposable.functions
        available := fun _ hmem => setting.available_builder hsound hmem
        listed := fun _ hmem => setting.listed_builder hsound hmem
        bound := fun _ hmem => setting.bound_builder hsound hmem
        distinct := setting.nodup_variables_iff.mpr hcomposable.locals }

def Composes (passes : List Pass) : Prop :=
  ∃ shader, setting.compose passes = .ok shader

instance (passes : List Pass) : Decidable (setting.Composes passes) :=
  match h : setting.compose passes with
  | .ok shader => .isTrue ⟨shader, h⟩
  | .error _ => .isFalse fun ⟨_, hshader⟩ => by
      rw [h] at hshader
      contradiction

/-- The shader of a list of passes, no check being made. -/
def shader (passes : List Pass) : Shader where
  dialect := setting.dialect
  vertex := (setting.builder .vertex passes).program
  fragment := (setting.builder .fragment passes).program
  structs :=
    sharedStructs (setting.builder .vertex passes).program
      (setting.builder .fragment passes).program
  parameters := setting.parametersFrom 0 passes

theorem program_shader (stage : Stage) (passes : List Pass) :
    (setting.shader passes).program stage =
      (setting.builder stage passes).program := by
  cases stage <;> rfl

theorem compose_of_sound
    (hsound : ∀ pass ∈ passes, ¬ pass.Faulty) :
    setting.compose passes =
      (do
        let vertex ← (setting.builder .vertex passes).build
        let fragment ← (setting.builder .fragment passes).build
        return {
          dialect := setting.dialect
          vertex := vertex
          fragment := fragment
          structs := sharedStructs vertex fragment
          parameters := setting.parametersFrom 0 passes }) := by
  have hfault : setting.fault? passes = none :=
    setting.faultFrom?_of_sound 0 hsound
  simp only [compose, hfault]

theorem compose_eq_ok_iff {shader : Shader} :
    setting.compose passes = .ok shader ↔
      (∀ pass ∈ passes, ¬ pass.Faulty) ∧
      (∀ stage, Composable setting.dialect stage passes) ∧
      shader = setting.shader passes := by
  by_cases hsound : ∀ pass ∈ passes, ¬ pass.Faulty
  · rw [setting.compose_of_sound hsound]
    rcases (setting.builder .vertex passes).build_cases with
      ⟨hvertex, hvertexOk⟩ | ⟨error, hreports, herror⟩
    · rcases (setting.builder .fragment passes).build_cases with
        ⟨hfragment, hfragmentOk⟩ | ⟨error, hreports, herror⟩
      · have hcomposable (stage : Stage) :
            Composable setting.dialect stage passes := by
          cases stage with
          | vertex =>
              exact (setting.wellFormed_builder_iff hsound).mp hvertex
          | fragment =>
              exact (setting.wellFormed_builder_iff hsound).mp hfragment
        simp only [bind, Except.bind, hvertexOk, hfragmentOk]
        constructor
        · intro hshader
          exact ⟨hsound, hcomposable, (Except.ok.inj hshader).symm⟩
        · rintro ⟨-, -, rfl⟩
          rfl
      · simp only [bind, Except.bind, hvertexOk, herror, reduceCtorEq, false_iff]
        rintro ⟨-, hcomposable, -⟩
        exact hreports.not_wellFormed
          ((setting.wellFormed_builder_iff hsound).mpr (hcomposable .fragment))
    · simp only [bind, Except.bind, herror, reduceCtorEq, false_iff]
      rintro ⟨-, hcomposable, -⟩
      exact hreports.not_wellFormed
        ((setting.wellFormed_builder_iff hsound).mpr (hcomposable .vertex))
  · have hfaulty : ∃ pass ∈ passes, pass.Faulty := by
      simpa using hsound
    obtain ⟨index, -, error, -, -, -, -, hfound⟩ :=
      setting.faultFrom?_of_faulty 0 hfaulty
    simp [compose, fault?, hfound, hsound]

theorem wellFormed_of_compose
    {shader : Shader} (hshader : setting.compose passes = .ok shader)
    (stage : Stage) :
    (setting.builder stage passes).WellFormed ∧
      shader.program stage = (setting.builder stage passes).program := by
  obtain ⟨hsound, hcomposable, rfl⟩ := setting.compose_eq_ok_iff.mp hshader
  exact ⟨(setting.wellFormed_builder_iff hsound).mpr (hcomposable stage),
    setting.program_shader stage passes⟩

theorem Composes.compose_eq (h : setting.Composes passes) :
    setting.compose passes = .ok (setting.shader passes) := by
  obtain ⟨shader, hshader⟩ := h
  rw [hshader, (setting.compose_eq_ok_iff.mp hshader).2.2]

theorem composes_iff :
    setting.Composes passes ↔
      (∀ pass ∈ passes, ¬ pass.Faulty) ∧
      ∀ stage, Composable setting.dialect stage passes := by
  unfold Composes
  simp only [compose_eq_ok_iff, exists_and_left, exists_eq, and_true]

end Setting

end ShaderComposer
