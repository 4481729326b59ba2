import ShaderComposer.Proofs.ChainBuilds

/-!
# Results that a later render pass discards

What a stage writes back is the result of the last call in its list, whatever the
number of the list.  A list without a call writes back the stage's input, and for a
fragment this is the main texture also behind other render passes, although there
the temporaries read the pass before.  So a stack keeps the results of all its
render passes only if every list behind the first computes something, and an
identity pass behind a render pass of its own brings the original picture back.
-/

namespace ShaderComposer

/-- Some pass of a list makes a call in the stage. -/
def Computes (stage : Stage) (passes : List Pass) : Prop :=
  ∃ pass ∈ passes, ∃ part, pass.part? stage = some part ∧ part.calls ≠ []

theorem untouched_ne_previousPass (dialect : Dialect) :
    Program.untouched dialect .fragment ≠ Initializer.previousPass.expression dialect := by
  cases dialect <;> decide

namespace Setting

variable (setting : Setting) {stage : Stage} {passes : List Pass}

theorem calls_builder_eq_nil_iff :
    (setting.builder stage passes).part.calls = [] ↔ ¬ Computes stage passes := by
  rw [calls_builder, List.flatMap_eq_nil_iff]
  constructor
  · rintro hnone ⟨pass, hpass, part, hpart, hcalls⟩
    obtain ⟨position, hposition⟩ := List.getElem?_of_mem hpass
    have hempty := hnone _ (mem_sites_of_getElem? hposition hpart)
    exact hcalls (List.map_eq_nil_iff.mp hempty)
  · intro hnone site hsite
    obtain ⟨pass, hpass, hpart⟩ := exists_pass_of_mem_sites hsite
    have hempty : site.part.calls = [] := by
      by_contra hcalls
      exact hnone ⟨pass, hpass, site.part, hpart, hcalls⟩
    rw [hempty, List.map_nil]

theorem result_of_not_computes
    {shader : Shader} (hshader : setting.compose passes = .ok shader)
    (hnone : ¬ Computes stage passes) :
    (shader.program stage).result = Program.untouched setting.dialect stage := by
  obtain ⟨-, hprogram⟩ := setting.wellFormed_of_compose hshader stage
  have hcalls := setting.calls_builder_eq_nil_iff.mpr hnone
  have houtput : (setting.builder stage passes).program.output = none := by
    change Part.output? _ = none
    rw [Part.output?, hcalls]
    rfl
  rw [hprogram, Program.result, houtput]
  rfl

theorem result_of_computes
    {shader : Shader} (hshader : setting.compose passes = .ok shader)
    (hcomputes : Computes stage passes) :
    ∃ invocation, (shader.program stage).invocations.getLast? = some invocation ∧
      (shader.program stage).result = invocation.output := by
  obtain ⟨-, hprogram⟩ := setting.wellFormed_of_compose hshader stage
  have hcalls : (setting.builder stage passes).part.calls ≠ [] := by
    intro hempty
    exact setting.calls_builder_eq_nil_iff.mp hempty hcomputes
  have hlast := List.getLast?_eq_some_getLast hcalls
  have hinvocation :
      (setting.builder stage passes).program.invocations.getLast? =
        some ((setting.builder stage passes).part.calls.getLast hcalls).filled := by
    change (List.map Call.filled _).getLast? = _
    rw [List.getLast?_map, hlast]
    rfl
  have houtput :
      (setting.builder stage passes).program.output =
        some ((setting.builder stage passes).part.calls.getLast hcalls).output := by
    change Part.output? _ = _
    rw [Part.output?, hlast]
    rfl
  rw [hprogram]
  refine ⟨_, hinvocation, ?_⟩
  rw [Program.result, houtput]
  rfl

theorem builder_of_no_part
    (hnone : ∀ pass ∈ passes, pass.part? stage = none) :
    setting.builder stage passes = ⟨setting.dialect, stage, Part.empty⟩ := by
  have hsites : sites stage passes = [] := by
    rw [List.eq_nil_iff_forall_not_mem]
    intro site hsite
    obtain ⟨pass, hpass, hpart⟩ := exists_pass_of_mem_sites hsite
    rw [hnone pass hpass] at hpart
    contradiction
  rw [builder, links_eq, hsites]
  rfl

theorem program_eq_passThrough
    {shader passThrough : Shader} (hshader : setting.compose passes = .ok shader)
    (hpassThrough : Shader.passThrough setting.dialect = .ok passThrough)
    (hnone : ∀ pass ∈ passes, pass.part? stage = none) :
    shader.program stage = passThrough.program stage := by
  have hhere := (setting.wellFormed_of_compose hshader stage).2
  have hempty := (wellFormed_of_compose _ hpassThrough stage).2
  rw [setting.builder_of_no_part hnone] at hhere
  rw [builder_of_no_part _ (by simp)] at hempty
  exact hhere.trans hempty.symm

end Setting

namespace EffectStack

variable (stack : EffectStack) {dialect : Dialect} {shaders : List Shader}

theorem exists_compose_of_build
    (hbuild : stack.build dialect = .ok shaders)
    {number : Nat} {list : List Pass} (hlist : (stack.lists dialect)[number]? = some list) :
    ∃ shader setting, shaders[number]? = some shader ∧
      setting.dialect = dialect ∧ Setting.compose setting list = .ok shader := by
  have hlists : stack.lists dialect ≠ [] := by
    intro hnil
    simp [hnil] at hlist
  rw [stack.build_of_lists_ne_nil hlists] at hbuild
  obtain ⟨shader, hshader, hcomposed⟩ := getElem?_composeFrom hbuild hlist
  exact ⟨shader, _, hshader, rfl, hcomposed⟩

theorem not_sampled_of_not_computes
    (hbuild : stack.build dialect = .ok shaders)
    {number : Nat} {list : List Pass} (hlist : (stack.lists dialect)[number]? = some list)
    (hnone : ¬ Computes .fragment list) :
    ∃ shader, shaders[number]? = some shader ∧
      shader.fragment.result ≠ Initializer.previousPass.expression dialect := by
  obtain ⟨shader, setting, hshader, rfl, hcomposed⟩ :=
    stack.exists_compose_of_build hbuild hlist
  have hwritten := setting.result_of_not_computes hcomposed hnone
  have hne := untouched_ne_previousPass setting.dialect
  rw [← hwritten] at hne
  exact ⟨shader, hshader, hne⟩

/-- Every render pass behind the first that makes no call in the fragment stage writes
back what the pass before it has left. -/
def KeepsResults (stack : EffectStack) (dialect : Dialect) (shaders : List Shader) : Prop :=
  ∀ (number : Nat) (list : List Pass) (shader : Shader),
    0 < number → (stack.lists dialect)[number]? = some list →
      shaders[number]? = some shader → ¬ Computes .fragment list →
        shader.fragment.result = Initializer.previousPass.expression dialect

/-- A pass of its own behind the lists of a stack that end in one. -/
theorem lists_push_of_apart
    {effect : Effect} {pass : Pass} (hpasses : effect.passes dialect = [pass])
    (hlast : (stack.sharing dialect).getLast? = some false) :
    (stack.push effect).lists dialect = stack.lists dialect ++ [[pass]] := by
  have hgrown :
      taggedPasses dialect (stack.effects ++ [effect]) =
        taggedPasses dialect stack.effects ++ [(pass, effect.shares dialect)] := by
    simp [taggedPasses, tag, hpasses]
  have hapart :
      ∀ first ∈ (taggedPasses dialect stack.effects).getLast?,
        ∀ second ∈ [(pass, effect.shares dialect)].head?, shared first second = false := by
    intro first hfirst second _
    rw [← map_snd_taggedPasses, List.getLast?_map, hfirst] at hlast
    have hshares : first.2 = false := Option.some.inj hlast
    rw [shared, hshares, Bool.false_and]
  rw [lists_eq_cut, lists_eq_cut, push, hgrown, cut_append_of_apart hapart]
  rfl

/-- An identity behind an effect with render passes of its own leaves these as they
are, and writes over their results: its fragment program is the one of no effects. -/
theorem build_push_identity
    (hbuild : stack.build dialect = .ok shaders)
    (hlast : (stack.sharing dialect).getLast? = some false)
    {effect : Effect} (hpasses : effect.passes dialect = [.identity]) :
    ∃ shader passThrough,
      (stack.push effect).build dialect = .ok (shaders ++ [shader]) ∧
        Shader.passThrough dialect = .ok passThrough ∧
        shader.fragment = passThrough.fragment := by
  have hlists := stack.lists_push_of_apart hpasses hlast
  have hfilled : stack.lists dialect ≠ [] := by
    intro hnil
    rw [← map_snd_taggedPasses, List.getLast?_map] at hlast
    have htagged : taggedPasses dialect stack.effects = [] := by
      rw [← List.map_eq_nil_iff (f := Prod.fst), map_fst_taggedPasses, ← flatten_lists,
        hnil, List.flatten_nil]
    simp [htagged] at hlast
  have hself : ∀ pass ∈ [Pass.identity], pass.SelfContained := by
    simpa using Pass.selfContained_identity
  have hnone : ∀ pass ∈ [Pass.identity], pass.part? .fragment = none := by
    simp [Pass.part?, Pass.identity]
  obtain ⟨shader, hshader⟩ :=
    Setting.composes_of_selfContained
      ⟨dialect, stack.stem, 0 + (stack.lists dialect).length,
        0 + (stack.lists dialect).flatten.length⟩ hself
  obtain ⟨passThrough, hpassThrough⟩ := exists_passThrough dialect
  rw [stack.build_of_lists_ne_nil hfilled] at hbuild
  refine ⟨shader, passThrough, ?_, hpassThrough, ?_⟩
  · rw [build_of_lists_ne_nil _ (by simp [hlists]), hlists]
    exact composeFrom_concat hbuild hshader
  · exact Setting.program_eq_passThrough _ hshader hpassThrough hnone

/-- A list writes back the result of its last fragment call.  One without a call
writes back the main texture under the color, wherever it stands, and one without a
fragment part has the fragment program of no effects at all.  So results are kept
exactly in a stack where every later list makes a call, and not where an identity
follows a render pass of its own. -/
theorem build_discards_unless_computing
    (hbuild : stack.build dialect = .ok shaders) :
    (∀ (number : Nat) (list : List Pass), (stack.lists dialect)[number]? = some list →
      ∃ shader, shaders[number]? = some shader ∧
        (¬ Computes .fragment list →
          shader.fragment.result = Program.untouched dialect .fragment) ∧
        (Computes .fragment list →
          ∃ invocation, shader.fragment.invocations.getLast? = some invocation ∧
            shader.fragment.result = invocation.output) ∧
        ((∀ pass ∈ list, pass.fragment = none) →
          ∃ passThrough, Shader.passThrough dialect = .ok passThrough ∧
            shader.fragment = passThrough.fragment)) ∧
    (stack.KeepsResults dialect shaders ↔
      ∀ (number : Nat) (list : List Pass),
        0 < number → (stack.lists dialect)[number]? = some list →
          Computes .fragment list) ∧
    ((stack.sharing dialect).getLast? = some false →
      ∀ effect : Effect, effect.passes dialect = [.identity] →
        ∃ shader passThrough,
          (stack.push effect).build dialect = .ok (shaders ++ [shader]) ∧
            Shader.passThrough dialect = .ok passThrough ∧
            shader.fragment = passThrough.fragment) := by
  refine ⟨?_, ?_, ?_⟩
  · intro number list hlist
    obtain ⟨shader, setting, hshader, rfl, hcomposed⟩ :=
      stack.exists_compose_of_build hbuild hlist
    refine ⟨shader, hshader, ?_, ?_, ?_⟩
    · intro hnone
      exact setting.result_of_not_computes hcomposed hnone
    · intro hcomputes
      exact setting.result_of_computes hcomposed hcomputes
    · intro hnone
      obtain ⟨passThrough, hpassThrough⟩ := exists_passThrough setting.dialect
      have hpart : ∀ pass ∈ list, pass.part? .fragment = none := hnone
      have hsame := setting.program_eq_passThrough hcomposed hpassThrough hpart
      exact ⟨passThrough, hpassThrough, hsame⟩
  · constructor
    · intro hkeeps number list hlater hlist
      by_contra hnone
      obtain ⟨shader, hshader, hne⟩ := stack.not_sampled_of_not_computes hbuild hlist hnone
      exact hne (hkeeps number list shader hlater hlist hshader hnone)
    · intro hall number list shader hlater hlist _ hnone
      exact absurd (hall number list hlater hlist) hnone
  · intro hlast effect hpasses
    exact stack.build_push_identity hbuild hlast hpasses

end EffectStack

/-- Blurs of these radii; all but those of radius zero have two render passes. -/
def EffectStack.blurring (radii : List Nat) : EffectStack where
  effects := radii.map fun radius => ReferenceBlur.effect { radius := radius }

theorem exists_build_blurring (radii : List Nat) (dialect : Dialect) :
    ∃ shaders, (EffectStack.blurring radii).build dialect = .ok shaders := by
  have hself :
      ∀ pass ∈ (EffectStack.blurring radii).passes dialect, pass.SelfContained := by
    intro pass hpass
    obtain ⟨effect, heffect, hmem⟩ := List.mem_flatMap.mp hpass
    obtain ⟨radius, -, rfl⟩ := List.mem_map.mp heffect
    exact ReferenceBlur.selfContained_passes { radius := radius } dialect pass hmem
  have hstem : Text.isIdentifier defaultStem = true := by decide
  obtain ⟨shaders, hbuild, -⟩ :=
    (EffectStack.blurring radii).build_of_selfContained hstem hself
  exact ⟨shaders, hbuild⟩

theorem not_computes_identity : ¬ Computes .fragment [Pass.identity] := by
  rintro ⟨pass, hpass, part, hpart, -⟩
  rw [List.mem_singleton.mp hpass] at hpart
  contradiction

theorem blurring_discards_blur :
    ∃ shaders shader, (EffectStack.blurring [2]).build .gl = .ok shaders ∧
      (EffectStack.blurring [2, 0]).build .gl = .ok (shaders ++ [shader]) ∧
      shader.fragment.result =
        "cc_FragColor * texture2D(cc_MainTexture, cc_FragTexCoord1)" ∧
      ¬ (EffectStack.blurring [2, 0]).KeepsResults .gl (shaders ++ [shader]) := by
  obtain ⟨shaders, hbuild⟩ := exists_build_blurring [2] .gl
  have hlast : ((EffectStack.blurring [2]).sharing .gl).getLast? = some false := rfl
  obtain ⟨-, -, hpush⟩ :=
    (EffectStack.blurring [2]).build_discards_unless_computing hbuild
  obtain ⟨shader, passThrough, hpushed, hpassThrough, hsame⟩ :=
    hpush hlast (ReferenceBlur.effect { radius := 0 }) rfl
  have hgrown : (EffectStack.blurring [2, 0]).build .gl = .ok (shaders ++ [shader]) := hpushed
  obtain ⟨-, hkeeps, -⟩ :=
    (EffectStack.blurring [2, 0]).build_discards_unless_computing hgrown
  refine ⟨shaders, shader, hbuild, hgrown, ?_, ?_⟩
  · have hnone : ¬ Computes .fragment [] := by simp [Computes]
    rw [hsame]
    exact Setting.result_of_not_computes _ hpassThrough hnone
  · intro hkept
    exact not_computes_identity (hkeeps.mp hkept 2 _ (by decide) rfl)

theorem not_builds_keep_results :
    ¬ ∀ (stack : EffectStack) (dialect : Dialect) (shaders : List Shader),
      stack.build dialect = .ok shaders → stack.KeepsResults dialect shaders := by
  intro hkeep
  obtain ⟨shaders, hbuild⟩ := exists_build_blurring [2, 0] .gl
  have hidentity :
      ((EffectStack.blurring [2, 0]).lists .gl)[2]? = some [Pass.identity] := rfl
  obtain ⟨shader, hshader, hne⟩ :=
    (EffectStack.blurring [2, 0]).not_sampled_of_not_computes hbuild hidentity
      not_computes_identity
  have hkept := hkeep _ .gl shaders hbuild
  exact hne (hkept 2 _ shader (by decide) hidentity hshader not_computes_identity)

end ShaderComposer
