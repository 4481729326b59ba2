import ShaderComposer.Effect.Color
import ShaderComposer.Proofs.BuildLaws

/-!
# Which builders are accepted

The conditions under which the pieces of a builder fit are said here of its lists
alone: three of them hold declarations that may not contradict one another, and the
body needs sources that the stage has, variables declared once, functions that are
listed and inputs that are all given.  A build succeeds exactly under these
conditions.  Otherwise it fails with an error that is true of the builder, and no
builder of which an error is true is accepted.
-/

namespace ShaderComposer

theorem Temporary.availableIn_eq_true_iff {temporary : Temporary} {stage : Stage} :
    temporary.availableIn stage = true ↔ temporary.initializer.stage = stage := by
  unfold Temporary.availableIn Initializer.availableIn
  exact decide_eq_true_iff

theorem Call.bound_iff_given (call : Call) :
    call.unbound? = none ↔
      ∀ formal ∈ call.function.inputs,
        ∃ actual, call.inputs.get? formal.name = some actual := by
  rw [Call.unbound?_eq_none_iff]
  simp only [Option.isSome_iff_exists]

namespace Builder

variable {builder : Builder}

theorem exists_build_iff_wellFormed :
    (∃ program, builder.build = .ok program) ↔ builder.WellFormed := by
  constructor
  · rintro ⟨program, hprogram⟩
    exact (build_eq_ok_iff.mp hprogram).1
  · intro hwell
    exact ⟨builder.program, build_eq_ok_iff.mpr ⟨hwell, rfl⟩⟩

/-- An error that is true of a builder keeps it from being built. -/
theorem Reports.exists_build_error
    {error : CompositionError} (hreports : builder.Reports error) :
    ∃ reported, builder.build = .error reported := by
  cases hbuild : builder.build with
  | ok program =>
      have hwell := (build_eq_ok_iff.mp hbuild).1
      exact absurd hwell hreports.not_wellFormed
  | error reported =>
      exact ⟨reported, rfl⟩

/-- A builder is built exactly when its declarations agree and its body can stand;
what a failed build reports is true of the builder, and a builder of which anything
can be reported is not built. -/
theorem build_accepts_exactly_what_fits (builder : Builder) :
    ((∃ program, builder.build = .ok program) ↔
      (∀ first ∈ builder.part.structs, ∀ second ∈ builder.part.structs,
        first.name = second.name → first = second) ∧
      (∀ first ∈ builder.part.arguments, ∀ second ∈ builder.part.arguments,
        first.name = second.name → first = second) ∧
      (∀ first ∈ builder.part.functions, ∀ second ∈ builder.part.functions,
        first.name = second.name → first = second) ∧
      (∀ temporary ∈ builder.part.temporaries,
        temporary.initializer.stage = builder.stage) ∧
      (builder.part.temporaries.map Temporary.name ++
        builder.part.calls.map Call.output).Nodup ∧
      (∀ call ∈ builder.part.calls, ∃ function ∈ builder.part.functions,
        function.name = call.function.name) ∧
      (∀ call ∈ builder.part.calls, ∀ formal ∈ call.function.inputs,
        ∃ actual, call.inputs.get? formal.name = some actual)) ∧
    (∀ error, builder.build = .error error → builder.Reports error) ∧
    (∀ error, builder.Reports error → ∃ reported, builder.build = .error reported) := by
  refine ⟨?_, ?_, ?_⟩
  · rw [exists_build_iff_wellFormed]
    constructor
    · intro hwell
      refine
        ⟨hwell.structs, hwell.arguments, hwell.functions, ?_, hwell.distinct, ?_, ?_⟩
      · intro temporary htemporary
        exact Temporary.availableIn_eq_true_iff.mp (hwell.available temporary htemporary)
      · intro call hcall
        exact List.mem_map.mp (hwell.listed call hcall)
      · intro call hcall
        exact call.bound_iff_given.mp (hwell.bound call hcall)
    · rintro ⟨hstructs, harguments, hfunctions, havailable, hdistinct, hlisted, hgiven⟩
      constructor
      · exact hstructs
      · exact harguments
      · exact hfunctions
      · intro temporary htemporary
        exact Temporary.availableIn_eq_true_iff.mpr (havailable temporary htemporary)
      · intro call hcall
        exact List.mem_map.mpr (hlisted call hcall)
      · intro call hcall
        exact call.bound_iff_given.mpr (hgiven call hcall)
      · exact hdistinct
  · intro error herror
    exact build_error herror
  · intro error hreports
    exact hreports.exists_build_error

end Builder

/-- A call that is given nothing. -/
def Call.bareAdjustment : Call where
  function := Adjustment.brightness.function .gl
  output := "tmp"
  inputs := .empty

/-- A builder that declares its one variable twice and leaves inputs open. -/
def Builder.twiceAdjusted : Builder where
  dialect := .gl
  stage := .fragment
  part := { Adjustment.brightness.part .gl with calls := [Call.bareAdjustment] }

theorem twiceAdjusted_reports_a_fault :
    (∃ error, Builder.twiceAdjusted.build = .error error ∧
      Builder.twiceAdjusted.Reports error) ∧
    Builder.twiceAdjusted.Reports (.unboundInput "brightnessEffect" "inputValue") ∧
    (∃ reported, Builder.twiceAdjusted.build = .error reported) := by
  have hcall : Call.bareAdjustment ∈ Builder.twiceAdjusted.part.calls :=
    List.mem_cons_self
  have hformal : ⟨"vec4", "inputValue"⟩ ∈ Call.bareAdjustment.function.inputs :=
    List.mem_cons_self
  have hopen :
      Builder.twiceAdjusted.Reports (.unboundInput "brightnessEffect" "inputValue") :=
    .unbound hcall hformal (by decide)
  obtain ⟨-, hreal, hrefused⟩ :=
    Builder.build_accepts_exactly_what_fits Builder.twiceAdjusted
  obtain ⟨reported, hreported⟩ := hrefused _ hopen
  exact ⟨⟨reported, hreported, hreal reported hreported⟩, hopen, reported, hreported⟩

end ShaderComposer
