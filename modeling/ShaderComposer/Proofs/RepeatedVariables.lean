import ShaderComposer.Proofs.ChainThreading
import ShaderComposer.Proofs.CollisionFreedom
import ShaderComposer.Proofs.FaultAttribution

/-!
# A variable declared twice, alone and in a list

Temporaries and outputs of a part share one namespace.  Clashes are looked for
among the variables that are really declared, and behind a result the temporaries
that read the chain are not.  So a pass with a repeated name never composes alone,
but it may compose behind another pass, when every repetition goes away with the
temporaries that the result stands in for.  In any other list it is a collision.
-/

namespace ShaderComposer

/-- The variables of a part that are declared wherever it stands. -/
def Part.fixedVariables (stage : Stage) (part : Part) : List String :=
  (part.temporaries.filter fun temporary =>
      !decide (temporary.initializer = Initializer.chainInput stage)).map Temporary.name ++
    part.calls.map Call.output

def Pass.DistinctVariables (pass : Pass) : Prop :=
  ∀ stage part, pass.part? stage = some part → part.variables.Nodup

section Declared

variable {stage : Stage} {passes : List Pass}

theorem Site.locals_of_source_none
    {site : Site} (hsource : site.source = none) :
    site.locals stage = site.part.variables := by
  simp [Site.locals, Site.declared, Site.suppresses, hsource, Part.variables]

theorem Site.locals_of_source_some
    {site : Site} {source : Nat × String} (hsource : site.source = some source) :
    site.locals stage = site.part.fixedVariables stage := by
  simp [Site.locals, Site.declared, Site.suppresses, hsource, Part.fixedVariables]

/-! ## One pass of a list -/

theorem sites_singleton_of_none
    {pass : Pass} (hpart : pass.part? stage = none) : sites stage [pass] = [] := by
  simp [sites, hpart]

/-- What a list of passes declares coherently, each of them does. -/
theorem composable_singleton_iff
    {dialect : Dialect} (hcomposable : Composable dialect stage passes)
    {pass : Pass} (hpass : pass ∈ passes) :
    Composable dialect stage [pass] ↔
      ∀ part, pass.part? stage = some part → part.variables.Nodup := by
  constructor
  · intro halone part hpart
    have hlocals := halone.locals ⟨0, part, none⟩ (by simp [sites_singleton hpart])
    rwa [Site.locals_of_source_none rfl] at hlocals
  · intro hdistinct
    cases hpart : pass.part? stage with
    | none =>
        have hsites := sites_singleton_of_none hpart
        constructor <;> simp [hsites, Merge.coherent_nil]
    | some part =>
        have hsites := sites_singleton hpart
        obtain ⟨position, hposition⟩ := List.getElem?_of_mem hpass
        have hsite := mem_sites_of_getElem? hposition hpart
        have hsubset {α : Type} (pick : Part → List α) :
            ((sites stage [pass]).flatMap fun site => pick site.part) ⊆
              (sites stage passes).flatMap fun site => pick site.part := by
          rw [hsites, List.flatMap_singleton]
          intro item hitem
          exact List.mem_flatMap.mpr ⟨_, hsite, hitem⟩
        constructor
        · exact hcomposable.structs.of_subset (hsubset Part.structs)
        · exact
            hcomposable.shared.of_subset
              (List.filter_subset _ (hsubset Part.arguments))
        · simpa [hsites] using hcomposable.arguments _ hsite
        · simpa [hsites] using hcomposable.functions _ hsite
        · have hlocals : (Site.locals stage ⟨0, part, none⟩).Nodup := by
            rw [Site.locals_of_source_none rfl]
            exact hdistinct part hpart
          simpa [hsites] using hlocals

end Declared

namespace Setting

variable (setting : Setting) {stage : Stage} {passes : List Pass}

theorem composes_alone_iff
    (hcomposes : setting.Composes passes) {pass : Pass} (hpass : pass ∈ passes)
    {alone : Setting} (hdialect : alone.dialect = setting.dialect) :
    alone.Composes [pass] ↔ pass.DistinctVariables := by
  obtain ⟨hsound, hcomposable⟩ := setting.composes_iff.mp hcomposes
  rw [composes_iff, hdialect]
  have hstages :
      (∀ stage, Composable setting.dialect stage [pass]) ↔ pass.DistinctVariables :=
    forall_congr' fun stage => composable_singleton_iff (hcomposable stage) hpass
  rw [hstages, List.forall_mem_singleton]
  exact and_iff_right (hsound pass hpass)

theorem collision_of_repeated_local
    {site : Site} (hsite : site ∈ sites stage passes)
    (hrepeated : ¬ (site.locals stage).Nodup) :
    ¬ setting.Composes passes ∧
      ((∀ other ∈ passes, ¬ other.Faulty) →
        ∃ kind name, setting.compose passes = .error (.nameCollision kind name)) := by
  have hfails : ¬ setting.Composes passes := by
    intro hcomposes
    have hcomposable := (setting.composes_iff.mp hcomposes).2 stage
    exact hrepeated (hcomposable.locals site hsite)
  refine ⟨hfails, ?_⟩
  intro hsound
  exact (setting.compose_cases_of_sound hsound).resolve_left hfails

/-- Of the passes of a list that composes, exactly those compose alone whose
variables are distinct in each stage.  A part with a repeated variable is rejected
as a collision, unless it stands behind a result and nothing is repeated among the
variables that the result does not stand in for. -/
theorem repeated_variables_pass_only_behind_result (passes : List Pass) :
    (setting.Composes passes →
      ∀ pass ∈ passes, ∀ alone : Setting, alone.dialect = setting.dialect →
        (alone.Composes [pass] ↔ pass.DistinctVariables)) ∧
    ∀ position pass stage part,
      passes[position]? = some pass → pass.part? stage = some part →
      ¬ part.variables.Nodup →
        ((∃ result, setting.ResultBefore stage passes position result) ∧
          (part.fixedVariables stage).Nodup) ∨
        (¬ setting.Composes passes ∧
          ((∀ other ∈ passes, ¬ other.Faulty) →
            ∃ kind name,
              setting.compose passes = .error (.nameCollision kind name))) := by
  constructor
  · intro hcomposes pass hpass alone hdialect
    exact setting.composes_alone_iff hcomposes hpass hdialect
  · intro position pass stage part hpass hpart hrepeated
    have hsite := mem_sites_of_getElem? hpass hpart
    by_cases hlocals :
        (Site.locals stage ⟨position, part, latest stage passes position⟩).Nodup
    · left
      cases hsource : latest stage passes position with
      | none =>
          rw [Site.locals_of_source_none hsource] at hlocals
          exact absurd hlocals hrepeated
      | some source =>
          rw [Site.locals_of_source_some hsource] at hlocals
          refine ⟨⟨setting.sourceName source, ?_⟩, hlocals⟩
          rw [resultBefore_iff, hsource]
          rfl
    · exact .inr (setting.collision_of_repeated_local hsite hlocals)

end Setting

def ShaderFunction.tint : ShaderFunction where
  name := "tint"
  body := "return c;"
  inputs := [⟨"vec4", "c"⟩]
  returnType := "vec4"

/-- A pass that tints the color and calls the result `output`. -/
def Pass.tinting (output : String) : Pass where
  fragment :=
    some
      { functions := [.tint]
        calls := [⟨.tint, output, .ofPairs [("c", "color")]⟩]
        temporaries := [⟨"vec4", "color", .previousPass⟩] }

/-- The second pass calls its result like the temporary it reads. -/
def Pass.tintedTwice : List Pass :=
  [Pass.tinting "tinted", Pass.tinting "color"]

theorem tintedTwice_composes_only_together :
    Setting.Composes ⟨.gl, "cc_", 0, 0⟩ Pass.tintedTwice ∧
    ¬ Setting.Composes ⟨.gl, "cc_", 0, 0⟩ [Pass.tinting "color"] ∧
    (∃ kind name,
      Setting.compose ⟨.gl, "cc_", 0, 0⟩ [Pass.tinting "color"] =
        .error (.nameCollision kind name)) := by
  have hcomposes : Setting.Composes ⟨.gl, "cc_", 0, 0⟩ Pass.tintedTwice := by
    decide +kernel
  have hsound : ∀ pass ∈ [Pass.tinting "color"], ¬ pass.Faulty := by
    decide +kernel
  have hrepeated : ¬ (Pass.tinting "color").DistinctVariables := by
    intro hdistinct
    exact absurd (hdistinct .fragment _ rfl) (by decide)
  have halone :=
    (Setting.repeated_variables_pass_only_behind_result ⟨.gl, "cc_", 0, 0⟩
      Pass.tintedTwice).1 hcomposes (Pass.tinting "color") (by decide)
      ⟨.gl, "cc_", 0, 0⟩ rfl
  refine ⟨hcomposes, fun h => hrepeated (halone.mp h), ?_⟩
  have hfirst :=
    (Setting.repeated_variables_pass_only_behind_result ⟨.gl, "cc_", 0, 0⟩
      [Pass.tinting "color"]).2 0 (Pass.tinting "color") .fragment _ rfl rfl (by decide)
  rcases hfirst with ⟨⟨result, earlier, output, hbefore, -⟩, -⟩ | ⟨-, hcollision⟩
  · omega
  · exact hcollision hsound

/-- That a list composes does not say that each of its passes does. -/
theorem not_composes_alone_of_composes :
    ¬ ∀ (setting : Setting) (passes : List Pass),
      setting.Composes passes → ∀ pass ∈ passes, setting.Composes [pass] := by
  intro halone
  have hcomposes : Setting.Composes ⟨.gl, "cc_", 0, 0⟩ Pass.tintedTwice := by
    decide +kernel
  have hsecond : ¬ Setting.Composes ⟨.gl, "cc_", 0, 0⟩ [Pass.tinting "color"] := by
    decide +kernel
  exact hsecond (halone _ _ hcomposes (Pass.tinting "color") (by decide))

end ShaderComposer
