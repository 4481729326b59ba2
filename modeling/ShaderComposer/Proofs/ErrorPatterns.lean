import ShaderComposer.Proofs.FirstConflicts
import ShaderComposer.Proofs.NamingIndependence

/-!
# Errors with open names

Composing reports the fault of a single pass or else the first collision of a stage.
Both name their culprit behind the stem of a pass, and which culprit it is does not
depend on the stems.  So an error, too, is a pattern in which the stems are left
open, and composing under any naming is told by one such pattern or by none.
-/

namespace ShaderComposer

/-- An error whose stems are left open.  The fault of a pass gives its culprit under
the local name. -/
inductive ErrorPattern where
  | collision (kind : DeclarationKind) (name : NamePattern)
  | fault (position : Nat) (cause : CompositionError)

/-- The error with the name of its culprit behind a stem. -/
def CompositionError.behind (stem : String) : CompositionError → CompositionError
  | nameCollision kind name => nameCollision kind (stem ++ name)
  | unboundInput function input => unboundInput (stem ++ function) input
  | undefinedFunction function => undefinedFunction (stem ++ function)
  | unavailableInitializer temporary initializer stage =>
    unavailableInitializer (stem ++ temporary) initializer stage
  | inEffect index cause => inEffect index (cause.behind stem)

def Naming.error (naming : Naming) : ErrorPattern → CompositionError
  | .collision kind name => .nameCollision kind (naming.name name)
  | .fault position cause => .inEffect position (cause.behind (naming.stemAt position))

/-! ## Faults -/

theorem Temporary.fault?_eq_behind (stem : String) (stage : Stage) (temporary : Temporary) :
    temporary.fault? stem stage =
      (temporary.fault? "" stage).map (CompositionError.behind stem) := by
  unfold Temporary.fault?
  split
  · rfl
  · simp only [Option.map_some, CompositionError.behind, String.empty_append]

theorem Call.fault?_eq_behind
    (stem : String) (functions : List ShaderFunction) (call : Call) :
    call.fault? stem functions =
      (call.fault? "" functions).map (CompositionError.behind stem) := by
  unfold Call.fault?
  split
  · rw [Option.map_map]
    simp only [Function.comp_def, CompositionError.behind, String.empty_append]
  · simp only [Option.map_some, CompositionError.behind, String.empty_append]

theorem Part.fault?_eq_behind (stem : String) (stage : Stage) (part : Part) :
    part.fault? stem stage =
      (part.fault? "" stage).map (CompositionError.behind stem) := by
  have htemporary :
      Temporary.fault? stem stage = fun temporary =>
        (temporary.fault? "" stage).map (CompositionError.behind stem) :=
    funext (Temporary.fault?_eq_behind stem stage)
  have hcall :
      Call.fault? stem part.functions = fun call =>
        (call.fault? "" part.functions).map (CompositionError.behind stem) :=
    funext (Call.fault?_eq_behind stem part.functions)
  unfold Part.fault?
  rw [Option.map_or, List.map_findSome?, List.map_findSome?, htemporary, hcall]
  rfl

theorem Pass.fault?_eq_behind (stem : String) (pass : Pass) :
    pass.fault? stem = (pass.fault? "").map (CompositionError.behind stem) := by
  have hpart (stage : Stage) :
      Part.fault? stem stage = fun part =>
        (part.fault? "" stage).map (CompositionError.behind stem) :=
    funext (Part.fault?_eq_behind stem stage)
  unfold Pass.fault?
  rw [Option.map_or, Option.map_bind, Option.map_bind, hpart, hpart]
  rfl

/-- The first fault among passes, of which the first is at `position`. -/
def firstFault? (position : Nat) (passes : List Pass) : Option ErrorPattern :=
  (passes.zipIdx position).findSome? fun entry =>
    (entry.1.fault? "").map (ErrorPattern.fault entry.2)

theorem Naming.faultFrom?_eq
    (naming : Naming) (dialect : Dialect) (listIndex position : Nat)
    (passes : List Pass) :
    (naming.setting dialect listIndex).faultFrom? position passes =
      (firstFault? position passes).map naming.error := by
  induction passes generalizing position with
  | nil =>
      rfl
  | cons pass rest ih =>
      have hstem :
          (naming.setting dialect listIndex).stemAt position = naming.stemAt position := rfl
      rw [Setting.faultFrom?, hstem, Pass.fault?_eq_behind, ih, firstFault?, firstFault?,
        List.zipIdx_cons, List.findSome?_cons]
      cases pass.fault? "" with
      | none =>
          rfl
      | some cause =>
          rfl

/-! ## Collisions -/

def collectedVariables (stage : Stage) (passes : List Pass) : List NamePattern :=
  ((sites stage passes).flatMap fun site =>
      (site.declared stage).map fun temporary => .placed site.position temporary.name) ++
    (sites stage passes).flatMap fun site =>
      site.part.calls.map fun call => .placed site.position call.output

def collisionPattern? (dialect : Dialect) (stage : Stage) (passes : List Pass) :
    Option (DeclarationKind × NamePattern) :=
  (Merge.clash? .struct (fun struct => NamePattern.shared struct.name)
      ((sites stage passes).flatMap fun site => site.part.structs)).or <|
    (Merge.clash? .argument ArgumentPattern.name
        (collectedArguments dialect stage passes)).or <|
      (Merge.clash? .function (fun placed => .placed placed.1 placed.2.name)
          (collectedFunctions stage passes)).or <|
        (firstRepeat? [] (collectedVariables stage passes)).map (Prod.mk .var)

theorem Naming.placed_inj
    (naming : Naming) {first second : Nat} {name₁ name₂ : String}
    (h : naming.name (.placed first name₁) = naming.name (.placed second name₂)) :
    NamePattern.placed first name₁ = NamePattern.placed second name₂ := by
  obtain ⟨rfl, rfl⟩ := naming.stemAt_append_inj h
  rfl

theorem Naming.map_collectedVariables
    (naming : Naming) (dialect : Dialect) (listIndex : Nat) (stage : Stage)
    (passes : List Pass) :
    (collectedVariables stage passes).map naming.name =
      ((naming.setting dialect listIndex).builder stage passes).part.variables := by
  rw [Part.variables, Setting.temporaries_builder, Setting.calls_builder,
    collectedVariables, List.map_append]
  simp only [List.map_flatMap, List.map_map]
  rfl

theorem exists_placed_of_mem_collectedVariables
    {stage : Stage} {passes : List Pass} {name : NamePattern}
    (hname : name ∈ collectedVariables stage passes) :
    ∃ position text, name = .placed position text := by
  rcases List.mem_append.mp hname with hname | hname
  · obtain ⟨site, -, hname⟩ := List.mem_flatMap.mp hname
    obtain ⟨temporary, -, rfl⟩ := List.mem_map.mp hname
    exact ⟨site.position, temporary.name, rfl⟩
  · obtain ⟨site, -, hname⟩ := List.mem_flatMap.mp hname
    obtain ⟨call, -, rfl⟩ := List.mem_map.mp hname
    exact ⟨site.position, call.output, rfl⟩

/-- Names collide under one naming where they collide under every other. -/
theorem Naming.collision?_eq
    (naming : Naming) (dialect : Dialect) (listIndex : Nat) (stage : Stage)
    (passes : List Pass) :
    ((naming.setting dialect listIndex).builder stage passes).collision? =
      (collisionPattern? dialect stage passes).map (Prod.map id naming.name) := by
  let part := ((naming.setting dialect listIndex).builder stage passes).part
  have hstructs :
      Merge.clash? .struct StructDecl.name part.structs =
        (Merge.clash? .struct (fun struct => NamePattern.shared struct.name)
          ((sites stage passes).flatMap fun site => site.part.structs)).map
            (Prod.map id naming.name) := by
    rw [Setting.structs_builder]
    apply Merge.clash?_rename .struct
    · intro struct _
      rfl
    · intro first _ second _ hname
      exact congrArg NamePattern.shared hname
  have harguments :
      Merge.clash? .argument Argument.name part.arguments =
        (Merge.clash? .argument ArgumentPattern.name
          (collectedArguments dialect stage passes)).map (Prod.map id naming.name) := by
    rw [← naming.map_collectedArguments]
    apply Merge.clash?_map .argument
    · intro argument _
      rfl
    · intro first hfirst second hsecond
      exact (naming.name_eq_iff (apt_of_mem (List.mem_append_right _ hfirst))
        (apt_of_mem (List.mem_append_right _ hsecond))).mp
    · intro first hfirst second hsecond
      exact naming.argument_inj hfirst hsecond
  have hfunctions :
      Merge.clash? .function ShaderFunction.name part.functions =
        (Merge.clash? .function (fun placed => .placed placed.1 placed.2.name)
          (collectedFunctions stage passes)).map (Prod.map id naming.name) := by
    rw [← naming.map_collectedFunctions]
    apply Merge.clash?_map .function
    · intro placed _
      rfl
    · intro first _ second _
      exact naming.placed_inj
    · intro first _ second _
      exact naming.function_inj
  have hvariables :
      firstRepeat? [] part.variables =
        (firstRepeat? [] (collectedVariables stage passes)).map naming.name := by
    rw [← naming.map_collectedVariables]
    apply firstRepeat?_map
    intro first hfirst second hsecond hname
    obtain ⟨_, _, rfl⟩ := exists_placed_of_mem_collectedVariables hfirst
    obtain ⟨_, _, rfl⟩ := exists_placed_of_mem_collectedVariables hsecond
    exact naming.placed_inj hname
  unfold Builder.collision? collisionPattern?
  rw [hstructs, harguments, hfunctions, hvariables]
  simp only [Option.map_or, Option.map_map]
  rfl

/-! ## Composing -/

/-- What stops a list of passes: the first fault, or the first collision of the vertex
stage before that of the fragment stage. -/
def firstError? (dialect : Dialect) (passes : List Pass) : Option ErrorPattern :=
  (firstFault? 0 passes).or <|
    ((collisionPattern? dialect .vertex passes).or
      (collisionPattern? dialect .fragment passes)).map
        (Function.uncurry .collision)

theorem Naming.compose_eq
    (naming : Naming) (dialect : Dialect) (listIndex : Nat) (passes : List Pass) :
    (naming.setting dialect listIndex).compose passes =
      okUnless ((firstError? dialect passes).map naming.error)
        ((naming.setting dialect listIndex).shader passes) := by
  let setting := naming.setting dialect listIndex
  have hfault : setting.fault? passes = (firstFault? 0 passes).map naming.error :=
    naming.faultFrom?_eq dialect listIndex 0 passes
  cases herror : firstFault? 0 passes with
  | some error =>
      rw [herror] at hfault
      simp only [Setting.compose, setting, hfault, firstError?, herror]
      rfl
  | none =>
      rw [herror] at hfault
      have hsound : ∀ pass ∈ passes, ¬ pass.Faulty :=
        setting.fault?_eq_none_iff.mp hfault
      have hbuild (stage : Stage) :
          (setting.builder stage passes).build =
            okUnless
              (((collisionPattern? dialect stage passes).map
                (Prod.map id naming.name)).map (Function.uncurry .nameCollision))
              (setting.builder stage passes).program := by
        rw [← naming.collision?_eq dialect listIndex]
        exact setting.build_of_sound hsound stage
      rw [setting.compose_of_sound hsound, hbuild, hbuild, firstError?, herror]
      cases collisionPattern? dialect .vertex passes with
      | some collision =>
          rfl
      | none =>
          cases collisionPattern? dialect .fragment passes with
          | some collision =>
              rfl
          | none =>
              rfl

end ShaderComposer
