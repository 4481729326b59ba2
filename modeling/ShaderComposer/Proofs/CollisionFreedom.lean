import ShaderComposer.Effect.Color
import ShaderComposer.Proofs.ComposedStage
import Mathlib.Data.List.Pairwise

/-!
# Passes that compose alone compose together

Mangling keeps the functions, variables and arguments of different passes apart,
whatever local names they share.  Only what keeps its name can clash across
passes: structs, and arguments under a name of the catalog.  Standing behind
other passes takes declarations away from a pass and adds none.
-/

namespace ShaderComposer

/-- Two parts of a stage agree on the names that mangling leaves alone. -/
def Part.Compatible (dialect : Dialect) (stage : Stage) (first second : Part) :
    Prop :=
  (∀ struct ∈ first.structs, ∀ other ∈ second.structs,
    struct.name = other.name → struct = other) ∧
  (∀ argument ∈ first.arguments, ∀ other ∈ second.arguments,
    Catalog.holds dialect stage argument.name = true →
      argument.name = other.name → argument = other)

instance (dialect : Dialect) (stage : Stage) (first second : Part) :
    Decidable (first.Compatible dialect stage second) :=
  inferInstanceAs (Decidable (_ ∧ _))

theorem Part.Compatible.symm
    {dialect : Dialect} {stage : Stage} {first second : Part}
    (hcompatible : first.Compatible dialect stage second) :
    second.Compatible dialect stage first := by
  constructor
  · intro struct hstruct other hother hname
    exact (hcompatible.1 other hother struct hstruct hname.symm).symm
  · intro argument hargument other hother hholds hname
    exact
      (hcompatible.2 other hother argument hargument (hname ▸ hholds)
        hname.symm).symm

section Alone

variable {stage : Stage} {passes : List Pass}

theorem sites_singleton
    {pass : Pass} {part : Part} (hpart : pass.part? stage = some part) :
    sites stage [pass] = [⟨0, part, none⟩] := by
  simp [sites, hpart, latest]

theorem map_part_sites (stage : Stage) (passes : List Pass) :
    (sites stage passes).map Site.part =
      passes.filterMap fun pass => pass.part? stage := by
  have hpasses :
      (passes.zipIdx.map Prod.fst).filterMap (fun pass => pass.part? stage) =
        passes.filterMap fun pass => pass.part? stage := by
    rw [List.zipIdx_map_fst]
  rw [← hpasses, sites, List.map_filterMap, List.filterMap_map]
  congr 1
  funext entry
  simp [Function.comp_def]

theorem nodup_locals_of_alone
    {site : Site}
    (halone : (Site.locals stage ⟨0, site.part, none⟩).Nodup) :
    (site.locals stage).Nodup := by
  have hall :
      Site.declared stage ⟨0, site.part, none⟩ = site.part.temporaries := by
    simp [Site.declared, Site.suppresses]
  have hsublist :
      (site.locals stage).Sublist (Site.locals stage ⟨0, site.part, none⟩) := by
    unfold Site.locals
    rw [hall]
    exact ((List.filter_sublist).map Temporary.name).append (List.Sublist.refl _)
  exact halone.sublist hsublist

theorem pairwise_compatible_sites
    {dialect : Dialect}
    (hcompatible :
      (passes.filterMap fun pass => pass.part? stage).Pairwise
        (Part.Compatible dialect stage))
    {first second : Site}
    (hfirst : first ∈ sites stage passes)
    (hsecond : second ∈ sites stage passes) (hne : first ≠ second) :
    first.part.Compatible dialect stage second.part := by
  rw [← map_part_sites, List.pairwise_map] at hcompatible
  have : Std.Symm fun site other : Site =>
      site.part.Compatible dialect stage other.part :=
    ⟨fun _ _ h => h.symm⟩
  exact hcompatible.forall hfirst hsecond hne

end Alone

theorem composable_of_each_alone
    {dialect : Dialect} {stage : Stage} {passes : List Pass}
    (halone : ∀ pass ∈ passes, Composable dialect stage [pass])
    (hcompatible :
      (passes.filterMap fun pass => pass.part? stage).Pairwise
        (Part.Compatible dialect stage)) :
    Composable dialect stage passes := by
  have hsite (site : Site) (hmem : site ∈ sites stage passes) :
      ∃ pass, sites stage [pass] = [⟨0, site.part, none⟩] ∧
        Composable dialect stage [pass] := by
    obtain ⟨pass, hpass, hpart⟩ := exists_pass_of_mem_sites hmem
    exact ⟨pass, sites_singleton hpart, halone pass hpass⟩
  have harguments (site : Site) (hmem : site ∈ sites stage passes) :
      Merge.Coherent Argument.name site.part.arguments := by
    obtain ⟨pass, hsites, hcomposable⟩ := hsite site hmem
    exact hcomposable.arguments ⟨0, site.part, none⟩ (by simp [hsites])
  constructor
  · intro first hfirst second hsecond hname
    obtain ⟨site, hmem, hfirst⟩ := List.mem_flatMap.mp hfirst
    obtain ⟨site', hmem', hsecond⟩ := List.mem_flatMap.mp hsecond
    by_cases heq : site = site'
    · subst heq
      obtain ⟨pass, hsites, hcomposable⟩ := hsite site hmem
      have hstructs := hcomposable.structs
      rw [hsites, List.flatMap_singleton] at hstructs
      exact hstructs first hfirst second hsecond hname
    · exact
        (pairwise_compatible_sites hcompatible hmem hmem' heq).1
          first hfirst second hsecond hname
  · intro first hfirst second hsecond hname
    obtain ⟨hfirst, hholds⟩ := List.mem_filter.mp hfirst
    obtain ⟨hsecond, -⟩ := List.mem_filter.mp hsecond
    obtain ⟨site, hmem, hfirst⟩ := List.mem_flatMap.mp hfirst
    obtain ⟨site', hmem', hsecond⟩ := List.mem_flatMap.mp hsecond
    by_cases heq : site = site'
    · subst heq
      exact harguments site hmem first hfirst second hsecond hname
    · exact
        (pairwise_compatible_sites hcompatible hmem hmem' heq).2
          first hfirst second hsecond hholds hname
  · exact harguments
  · intro site hmem
    obtain ⟨pass, hsites, hcomposable⟩ := hsite site hmem
    exact hcomposable.functions ⟨0, site.part, none⟩ (by simp [hsites])
  · intro site hmem
    obtain ⟨pass, hsites, hcomposable⟩ := hsite site hmem
    exact nodup_locals_of_alone (hcomposable.locals _ (by simp [hsites]))

/-- Passes that compose alone, and that agree on structs and on the arguments of
the catalog, compose together. -/
theorem Setting.composes_of_each_alone
    (setting : Setting) {passes : List Pass}
    (halone : ∀ pass ∈ passes, setting.Composes [pass])
    (hcompatible :
      ∀ stage, (passes.filterMap fun pass => pass.part? stage).Pairwise
        (Part.Compatible setting.dialect stage)) :
    setting.Composes passes := by
  rw [composes_iff]
  constructor
  · intro pass hpass
    exact (setting.composes_iff.mp (halone pass hpass)).1 pass (by simp)
  · intro stage
    apply composable_of_each_alone _ (hcompatible stage)
    intro pass hpass
    exact (setting.composes_iff.mp (halone pass hpass)).2 stage

/-- An adjustment that brings a struct and redeclares an argument of the
catalog. -/
def Pass.redeclaring : Pass where
  fragment :=
    some
      { Adjustment.brightness.part .metal with
        arguments :=
          [⟨"constant float&", "u_brightness", .buffer⟩,
            ⟨"texture2d<float>", "cc_MainTexture", .texture⟩]
        structs := [⟨"Tint", "half4 tint;"⟩] }

theorem composes_redeclaring_twice :
    (∀ pass ∈ [Pass.redeclaring, Pass.redeclaring],
      Setting.Composes ⟨.metal, "cc_", 0, 9⟩ [pass]) ∧
    (∀ stage,
      ([Pass.redeclaring, Pass.redeclaring].filterMap
          fun pass => pass.part? stage).Pairwise
        (Part.Compatible .metal stage)) ∧
    Setting.Composes ⟨.metal, "cc_", 0, 9⟩ [Pass.redeclaring, Pass.redeclaring] := by
  have halone :
      ∀ pass ∈ [Pass.redeclaring, Pass.redeclaring],
        Setting.Composes ⟨.metal, "cc_", 0, 9⟩ [pass] := by
    decide +kernel
  have hcompatible (stage : Stage) :
      ([Pass.redeclaring, Pass.redeclaring].filterMap
          fun pass => pass.part? stage).Pairwise
        (Part.Compatible .metal stage) := by
    cases stage <;> decide +kernel
  exact ⟨halone, hcompatible,
    Setting.composes_of_each_alone ⟨.metal, "cc_", 0, 9⟩ halone hcompatible⟩

end ShaderComposer
