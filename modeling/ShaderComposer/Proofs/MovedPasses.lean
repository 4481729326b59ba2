import ShaderComposer.Proofs.ErrorPatterns
import Mathlib.Data.Prod.Basic

/-!
# Passes at moved positions

A list may hold the passes of another at other positions, as long as the order of
the parts is the same: which part reads whose result, what is merged, which slots
are given and what is found at fault follow from that order alone.  So a pattern of
the one list, with its positions moved, is a pattern of the other, for the shader as
well as for the error.
-/

namespace ShaderComposer

/-! ## Patterns of whole shaders and of errors -/

def ParameterPattern.renumber (move : Nat → Nat) (pattern : ParameterPattern) :
    ParameterPattern :=
  { pattern with
    position := move pattern.position
    name := pattern.name.renumber move }

def ShaderPattern.renumber (move : Nat → Nat) (pattern : ShaderPattern) :
    ShaderPattern where
  source := fun stage => (pattern.source stage).renumber move
  bindings := fun stage => (pattern.bindings stage).map (BindingPattern.renumber move)
  structs := pattern.structs
  parameters := pattern.parameters.map (ParameterPattern.renumber move)

def ErrorPattern.renumber (move : Nat → Nat) : ErrorPattern → ErrorPattern
  | collision kind name => collision kind (name.renumber move)
  | fault position cause => fault (move position) cause

theorem NamePattern.renumber_injective
    {move : Nat → Nat} (hmove : Function.Injective move) :
    Function.Injective (NamePattern.renumber move) := by
  intro first second h
  cases first with
  | shared name =>
      cases second with
      | shared name' =>
          exact h
      | placed position' name' =>
          contradiction
  | placed position name =>
      cases second with
      | shared name' =>
          contradiction
      | placed position' name' =>
          obtain ⟨hposition, rfl⟩ := NamePattern.placed.inj h
          rw [hmove hposition]

theorem ArgumentPattern.renumber_injective
    {move : Nat → Nat} (hmove : Function.Injective move) :
    Function.Injective (ArgumentPattern.renumber move) := by
  intro first second h
  have hname : first.name = second.name :=
    NamePattern.renumber_injective hmove (congrArg ArgumentPattern.name h)
  cases first
  cases second
  simp_all [ArgumentPattern.renumber]

theorem Pass.parameterPatterns_move
    (move : Nat → Nat) (dialect : Dialect) (position : Nat) (pass : Pass) :
    pass.parameterPatterns dialect (move position) =
      (pass.parameterPatterns dialect position).map (ParameterPattern.renumber move) := by
  unfold Pass.parameterPatterns
  rw [List.map_map]
  apply List.map_congr_left
  intro parameter _
  simp only [Function.comp_apply, ParameterPattern.renumber]
  split
  · rfl
  · rfl

/-! ## Sites at moved positions -/

namespace Site

variable (move : Nat → Nat) (site : Site)

def renumber : Site where
  position := move site.position
  part := site.part
  source := site.source.map (Prod.map move id)

@[simp] theorem declared_renumber (stage : Stage) :
    (site.renumber move).declared stage = site.declared stage := by
  simp [declared, suppresses, renumber]

theorem resolve_renumber (dialect : Dialect) (stage : Stage) (name : String) :
    (site.renumber move).resolve dialect stage name =
      (site.resolve dialect stage name).renumber move := by
  unfold resolve renumber
  dsimp only
  split
  · rfl
  split
  · rfl
  cases site.part.temporaries.reverse.find? fun temporary => temporary.name = name with
  | none =>
      rfl
  | some temporary =>
      dsimp only
      split
      · cases site.source with
        | none =>
            rfl
        | some source =>
            rfl
      · rfl

theorem invocationPattern_renumber (dialect : Dialect) (stage : Stage) (call : Call) :
    (site.renumber move).invocationPattern dialect stage call =
      (site.invocationPattern dialect stage call).renumber move := by
  unfold invocationPattern InvocationPattern.renumber
  rw [List.map_map]
  congr 1
  apply List.map_congr_left
  intro formal _
  rw [Function.comp_apply]
  cases call.inputs.get? formal.name with
  | none =>
      rfl
  | some name =>
      exact site.resolve_renumber move dialect stage name

theorem argumentPattern_renumber
    (dialect : Dialect) (stage : Stage) (argument : Argument) :
    (site.renumber move).argumentPattern dialect stage argument =
      (site.argumentPattern dialect stage argument).renumber move := by
  unfold argumentPattern ArgumentPattern.renumber
  dsimp only
  split
  · rfl
  · rfl

end Site

/-! ## Lists at moved positions -/

/-- A list holds the passes of another at moved positions, and besides them nothing
that is composed. -/
structure Moves (move : Nat → Nat) (passes moved : List Pass) : Prop where
  injective : Function.Injective move
  sites_eq :
    ∀ stage, sites stage moved = (sites stage passes).map (Site.renumber move)
  latest_eq :
    ∀ stage,
      latest stage moved moved.length =
        (latest stage passes passes.length).map (Prod.map move id)
  parameters_eq :
    ∀ dialect,
      parameterPatternsFrom dialect 0 moved =
        (parameterPatternsFrom dialect 0 passes).map (ParameterPattern.renumber move)
  fault_eq :
    firstFault? 0 moved = (firstFault? 0 passes).map (ErrorPattern.renumber move)

namespace Moves

variable {move : Nat → Nat} {passes moved : List Pass} {dialect : Dialect}
  {stage : Stage}

theorem collectedArguments_eq (hmoves : Moves move passes moved) :
    collectedArguments dialect stage moved =
      (collectedArguments dialect stage passes).map (ArgumentPattern.renumber move) := by
  unfold collectedArguments
  rw [hmoves.sites_eq, List.flatMap_map, List.map_flatMap]
  congr 1
  funext site
  rw [List.map_map]
  apply List.map_congr_left
  intro argument _
  exact site.argumentPattern_renumber move dialect stage argument

theorem collectedFunctions_eq (hmoves : Moves move passes moved) :
    collectedFunctions stage moved =
      (collectedFunctions stage passes).map (Prod.map move id) := by
  unfold collectedFunctions
  rw [hmoves.sites_eq, List.flatMap_map, List.map_flatMap]
  simp only [List.map_map]
  rfl

theorem collectedVariables_eq (hmoves : Moves move passes moved) :
    collectedVariables stage moved =
      (collectedVariables stage passes).map (NamePattern.renumber move) := by
  unfold collectedVariables
  rw [hmoves.sites_eq, List.map_append, List.flatMap_map, List.flatMap_map,
    List.map_flatMap, List.map_flatMap]
  simp only [List.map_map, Site.declared_renumber]
  rfl

theorem flatMap_structs_eq (hmoves : Moves move passes moved) :
    ((sites stage moved).flatMap fun site => site.part.structs) =
      (sites stage passes).flatMap fun site => site.part.structs := by
  rw [hmoves.sites_eq, List.flatMap_map]
  rfl

end Moves

/-! ## Programs at moved positions -/

theorem bindingsAfter_renumber
    (move : Nat → Nat) (earlier arguments : List ArgumentPattern) :
    bindingsAfter (earlier.map (ArgumentPattern.renumber move))
        (arguments.map (ArgumentPattern.renumber move)) =
      (bindingsAfter earlier arguments).map (BindingPattern.renumber move) := by
  induction arguments generalizing earlier with
  | nil =>
      rfl
  | cons argument rest ih =>
      have hslot :
          (argument.renumber move).slotAfter
              (earlier.map (ArgumentPattern.renumber move)) =
            argument.slotAfter earlier := by
        unfold ArgumentPattern.slotAfter
        rw [List.countP_map]
        rfl
      rw [List.map_cons, bindingsAfter, hslot, ← List.map_cons, ih]
      rfl

namespace Moves

variable {move : Nat → Nat} {passes moved : List Pass}

theorem bindingPatterns_eq
    (hmoves : Moves move passes moved) (dialect : Dialect) (stage : Stage) :
    bindingPatterns dialect stage moved =
      (bindingPatterns dialect stage passes).map (BindingPattern.renumber move) := by
  have hdefaults :
      ((Catalog.arguments dialect stage).map Argument.pattern).map
          (ArgumentPattern.renumber move) =
        (Catalog.arguments dialect stage).map Argument.pattern := by
    rw [List.map_map]
    rfl
  have houtcome :
      Merge.outcome ArgumentPattern.name
          ((Catalog.arguments dialect stage).map Argument.pattern)
          (collectedArguments dialect stage moved) =
        (Merge.outcome ArgumentPattern.name
          ((Catalog.arguments dialect stage).map Argument.pattern)
          (collectedArguments dialect stage passes)).map
            (ArgumentPattern.renumber move) := by
    rw [← Merge.outcome_map ArgumentPattern.name ArgumentPattern.name, hdefaults,
      hmoves.collectedArguments_eq]
    · intro first _ second _
      exact (NamePattern.renumber_injective hmoves.injective).eq_iff
    · intro first _ second _ heq
      exact ArgumentPattern.renumber_injective hmoves.injective heq
  unfold bindingPatterns
  rw [houtcome, ← bindingsAfter_renumber]
  rfl

theorem programStructs_eq
    (hmoves : Moves move passes moved) (dialect : Dialect) (stage : Stage) :
    programStructs dialect stage moved = programStructs dialect stage passes := by
  unfold programStructs
  rw [hmoves.flatMap_structs_eq]

theorem programPattern_eq
    (hmoves : Moves move passes moved) (dialect : Dialect) (listIndex : Nat)
    (stage : Stage) :
    programPattern dialect listIndex stage moved =
      (programPattern dialect listIndex stage passes).renumber move := by
  have hfunctions :
      Merge.outcome (fun placed => (placed.1, placed.2.name)) []
          (collectedFunctions stage moved) =
        (Merge.outcome (fun placed => (placed.1, placed.2.name)) []
          (collectedFunctions stage passes)).map (Prod.map move id) := by
    rw [hmoves.collectedFunctions_eq]
    change Merge.outcome _ (List.map (Prod.map move id) []) _ = _
    apply Merge.outcome_map
    · intro first _ second _
      simp [hmoves.injective.eq_iff]
    · intro first _ second _ heq
      exact Function.Injective.prodMap hmoves.injective Function.injective_id heq
  have htemporaries :
      ((sites stage moved).flatMap fun site =>
          (site.declared stage).map (site.temporaryPattern listIndex stage)) =
        ((sites stage passes).flatMap fun site =>
          (site.declared stage).map (site.temporaryPattern listIndex stage)).map
            (Prod.map move id) := by
    rw [hmoves.sites_eq, List.flatMap_map, List.map_flatMap]
    simp only [List.map_map, Site.declared_renumber]
    rfl
  have hinvocations :
      ((sites stage moved).flatMap fun site =>
          site.part.calls.map (site.invocationPattern dialect stage)) =
        ((sites stage passes).flatMap fun site =>
          site.part.calls.map (site.invocationPattern dialect stage)).map
            (InvocationPattern.renumber move) := by
    rw [hmoves.sites_eq, List.flatMap_map, List.map_flatMap]
    congr 1
    funext site
    rw [List.map_map]
    apply List.map_congr_left
    intro call _
    exact site.invocationPattern_renumber move dialect stage call
  unfold programPattern ProgramPattern.renumber
  rw [hmoves.programStructs_eq, hmoves.bindingPatterns_eq, hfunctions, htemporaries,
    hinvocations, hmoves.latest_eq]

/-! ## Collisions at moved positions -/

theorem collisionPattern?_eq
    (hmoves : Moves move passes moved) (dialect : Dialect) (stage : Stage) :
    collisionPattern? dialect stage moved =
      (collisionPattern? dialect stage passes).map
        (Prod.map id (NamePattern.renumber move)) := by
  have hnames {first second : NamePattern}
      (h : first.renumber move = second.renumber move) : first = second :=
    NamePattern.renumber_injective hmoves.injective h
  have hstructs :
      Merge.clash? .struct (fun struct => NamePattern.shared struct.name)
          ((sites stage moved).flatMap fun site => site.part.structs) =
        (Merge.clash? .struct (fun struct => NamePattern.shared struct.name)
          ((sites stage passes).flatMap fun site => site.part.structs)).map
            (Prod.map id (NamePattern.renumber move)) := by
    rw [hmoves.flatMap_structs_eq]
    apply Merge.clash?_rename .struct
    · intro struct _
      rfl
    · intro first _ second _
      exact hnames
  have harguments :
      Merge.clash? .argument ArgumentPattern.name
          (collectedArguments dialect stage moved) =
        (Merge.clash? .argument ArgumentPattern.name
          (collectedArguments dialect stage passes)).map
            (Prod.map id (NamePattern.renumber move)) := by
    rw [hmoves.collectedArguments_eq]
    apply Merge.clash?_map .argument
    · intro argument _
      rfl
    · intro first _ second _
      exact hnames
    · intro first _ second _ heq
      exact ArgumentPattern.renumber_injective hmoves.injective heq
  have hfunctions :
      Merge.clash? .function (fun placed => NamePattern.placed placed.1 placed.2.name)
          (collectedFunctions stage moved) =
        (Merge.clash? .function
          (fun placed => NamePattern.placed placed.1 placed.2.name)
          (collectedFunctions stage passes)).map
            (Prod.map id (NamePattern.renumber move)) := by
    rw [hmoves.collectedFunctions_eq]
    apply Merge.clash?_map .function
    · intro placed _
      rfl
    · intro first _ second _
      exact hnames
    · intro first _ second _ heq
      exact Function.Injective.prodMap hmoves.injective Function.injective_id heq
  have hvariables :
      firstRepeat? [] (collectedVariables stage moved) =
        (firstRepeat? [] (collectedVariables stage passes)).map
          (NamePattern.renumber move) := by
    rw [hmoves.collectedVariables_eq]
    apply firstRepeat?_map
    intro first _ second _
    exact hnames
  unfold collisionPattern?
  rw [hstructs, harguments, hfunctions, hvariables]
  simp only [Option.map_or, Option.map_map]
  rfl

theorem firstError?_eq (hmoves : Moves move passes moved) (dialect : Dialect) :
    firstError? dialect moved =
      (firstError? dialect passes).map (ErrorPattern.renumber move) := by
  unfold firstError?
  rw [hmoves.fault_eq, hmoves.collisionPattern?_eq, hmoves.collisionPattern?_eq]
  simp only [Option.map_or, Option.map_map]
  rfl

theorem renumber_ofPasses
    (hmoves : Moves move passes moved) (dialect : Dialect) (source : Stage → Template) :
    (ShaderPattern.ofPasses dialect passes source).renumber move =
      ShaderPattern.ofPasses dialect moved fun stage => (source stage).renumber move := by
  unfold ShaderPattern.ofPasses ShaderPattern.renumber
  simp only [hmoves.programStructs_eq, hmoves.bindingPatterns_eq, hmoves.parameters_eq]

/-- The shader of the moved passes fits the renumbered pattern of the others. -/
theorem fits_shader
    (hmoves : Moves move passes moved) (dialect : Dialect) (listIndex : Nat) :
    ∃ pattern : ShaderPattern, ∀ naming : Naming,
      naming.Fits pattern ((naming.setting dialect listIndex).shader passes) ∧
      naming.Fits (pattern.renumber move)
        ((naming.setting dialect listIndex).shader moved) := by
  choose source hsource using fun stage =>
    (programPattern dialect listIndex stage passes).uniform_source
  refine ⟨ShaderPattern.ofPasses dialect passes source, ?_⟩
  intro naming
  constructor
  · apply naming.fits_shader
    intro hidentifier stage
    rw [naming.program_eq]
    exact hsource stage naming.stemAt (Naming.solid_stemAt hidentifier)
  · rw [hmoves.renumber_ofPasses]
    apply naming.fits_shader
    intro hidentifier stage
    have hsolid (position : Nat) : Text.Solid ((naming.stemAt ∘ move) position) :=
      Naming.solid_stemAt hidentifier (move position)
    rw [naming.program_eq, hmoves.programPattern_eq, ProgramPattern.under_renumber,
      Template.fill_renumber]
    exact hsource stage (naming.stemAt ∘ move) hsolid

end Moves

end ShaderComposer
