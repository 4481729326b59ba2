import ShaderComposer.Chain.Reader
import ShaderComposer.Proofs.SelfContained
import ShaderComposer.Proofs.StackNumbering

/-!
# Every valid chain builds

All effects that a chain can name are made of self-contained passes, with any
settings and in both dialects.  So each list of passes composes wherever it stands,
and the stack of the chain builds.  The index in front of a local name tells the
passes of the whole stack apart, which keeps the parameters of all its shaders
apart too.
-/

namespace ShaderComposer

/-- What a renderer relies on in the shaders of a stack: every value finds its one
buffer, a name stands for one value in all of them, and the shading language takes
the names. -/
structure Bindable (shaders : List Shader) : Prop where
  bound : ∀ shader ∈ shaders, shader.BindsParameters
  apart : ((shaders.flatMap Shader.parameters).map BoundParameter.name).Nodup
  named :
    ∀ shader ∈ shaders, ∀ stage, (shader.program stage).NamedByIdentifiers

/-! ## Stacks of self-contained passes -/

namespace EffectStack

variable (stack : EffectStack) {dialect : Dialect} {stem : String}

theorem map_name_boundParameters
    {pass : Pass} (hpass : pass.SelfContained) (index : Nat) :
    (boundParameters dialect stem index pass).map BoundParameter.name =
      (pass.parameters.map Parameter.name).map (effectStem stem index ++ ·) := by
  unfold boundParameters
  rw [List.map_map, List.map_map]
  apply List.map_congr_left
  intro parameter hparameter
  have hfree : Catalog.Free parameter.name :=
    hpass.catalogFree.parameters parameter hparameter
  simp [hfree dialect .vertex, hfree dialect .fragment]

theorem nodup_boundParameters
    {passes : List Pass} (hpasses : ∀ pass ∈ passes, pass.SelfContained)
    (start : Nat) :
    (((passes.zipIdx start).flatMap fun entry =>
        boundParameters dialect stem entry.2 entry.1).map BoundParameter.name).Nodup := by
  have hself {entry : Pass × Nat} (hentry : entry ∈ passes.zipIdx start) :
      entry.1.SelfContained :=
    hpasses entry.1 (List.fst_mem_of_mem_zipIdx hentry)
  rw [List.map_flatMap, List.nodup_flatMap]
  constructor
  · intro entry hentry
    rw [map_name_boundParameters (hself hentry)]
    apply List.Nodup.map _ (hself hentry).distinct
    intro first second hname
    exact (effectStem_append_inj hname).2
  · apply (pairwise_snd_zipIdx passes start).imp_of_mem
    intro first second hfirst hsecond hlt
    simp only [Function.onFun, map_name_boundParameters (hself hfirst),
      map_name_boundParameters (hself hsecond), List.disjoint_left]
    intro name hname hname'
    obtain ⟨local₁, -, rfl⟩ := List.mem_map.mp hname
    obtain ⟨local₂, -, heq⟩ := List.mem_map.mp hname'
    have hindex : second.2 = first.2 := (effectStem_append_inj heq).1
    omega

theorem build_of_selfContained
    (hstem : Text.isIdentifier stack.stem = true)
    (hpasses : ∀ pass ∈ stack.passes dialect, pass.SelfContained) :
    ∃ shaders, stack.build dialect = .ok shaders ∧ Bindable shaders := by
  have hlists :
      ∀ list ∈ stack.renderLists dialect, ∀ pass ∈ list, pass.SelfContained := by
    intro list hlist pass hpass
    apply hpasses
    rw [← flatten_renderLists]
    exact List.mem_flatten.mpr ⟨list, hlist, hpass⟩
  have hcomposes :
      ∀ list ∈ stack.renderLists dialect, ∀ setting : Setting, setting.Composes list :=
    fun list hlist setting => setting.composes_of_selfContained (hlists list hlist)
  obtain ⟨shaders, hshaders⟩ := exists_composeFrom hcomposes dialect stack.stem 0 0
  refine ⟨shaders, ?_, ?_, ?_, ?_⟩
  · rw [build_eq_composeFrom, hshaders]
  · intro shader hshader
    obtain ⟨list, hlist, number, start, hcomposed⟩ :=
      exists_compose_of_mem_composeFrom hshaders hshader
    exact Setting.bindsParameters_of_compose _ (hlists list hlist) hcomposed
  · rw [parameters_composeFrom_eq hshaders, flatten_renderLists]
    exact nodup_boundParameters hpasses 0
  · intro shader hshader stage
    obtain ⟨list, hlist, number, start, hcomposed⟩ :=
      exists_compose_of_mem_composeFrom hshaders hshader
    exact
      Setting.namedByIdentifiers_of_compose ⟨dialect, stack.stem, number, start⟩ hstem
        (hlists list hlist) hcomposed stage

end EffectStack

/-! ## Chains -/

theorem ReferenceBlur.selfContained_passes
    (blur : ReferenceBlur) (dialect : Dialect) :
    ∀ pass ∈ blur.passes dialect, pass.SelfContained := by
  unfold passes
  split
  · simpa using Pass.selfContained_identity
  · simpa using
      ⟨selfContained_axisPass dialect blur.params blur.activeThreshold 1.0 0.0,
        selfContained_axisPass dialect blur.params none 0.0 1.0⟩

theorem ChainEffect.selfContained_passes
    (effect : ChainEffect) (dialect : Dialect) :
    ∀ pass ∈ effect.effect.passes dialect, pass.SelfContained := by
  cases effect with
  | blur radius linearFiltering threshold =>
      exact ReferenceBlur.selfContained_passes _ dialect
  | adjust adjustment amount =>
      simpa [ChainEffect.effect, Adjustment.effect] using
        adjustment.selfContained_pass (Adjustment.condition amount) dialect

namespace Chain

theorem isIdentifier_stem_of_valid {chain : Chain} (hvalid : chain.Valid) :
    Text.isIdentifier chain.stem = true := by
  unfold Valid fault? at hvalid
  split at hvalid
  · contradiction
  · split at hvalid
    · contradiction
    · next hstem => simpa using hstem

theorem valid_of_parse
    {text : String} {chain : Chain} (hparse : parse text = .ok chain) : chain.Valid := by
  unfold parse at hparse
  split at hparse
  · contradiction
  · split at hparse
    · contradiction
    · next hvalid =>
      obtain rfl := Except.ok.inj hparse
      exact hvalid

/-- Whatever chain is accepted, its stack builds in both dialects, and the shaders
can be bound. -/
theorem build_of_parse
    {text : String} {chain : Chain} (hparse : parse text = .ok chain) (dialect : Dialect) :
    ∃ shaders, chain.stack.build dialect = .ok shaders ∧ Bindable shaders := by
  apply EffectStack.build_of_selfContained
  · exact isIdentifier_stem_of_valid (valid_of_parse hparse)
  · intro pass hpass
    obtain ⟨effect, heffect, hmem⟩ := List.mem_flatMap.mp hpass
    obtain ⟨chainEffect, -, rfl⟩ := List.mem_map.mp heffect
    exact chainEffect.selfContained_passes dialect pass hmem

end Chain

/-- Two adjustments of one kind, which use the same local names, around a blur. -/
def Chain.repeatingText : String :=
  "\x7b\"version\": \"1\", \"manglePrefix\": \"fx\", \"effects\": [" ++
    "\x7b\"type\": \"Contrast\", \"contrast\": 0.5\x7d, " ++
    "\x7b\"type\": \"BlurReference\", \"blurRadius\": 2\x7d, " ++
    "\x7b\"type\": \"Contrast\", \"contrast\": -1\x7d]\x7d"

theorem repeating_chain_builds :
    ∃ chain, Chain.parse Chain.repeatingText = .ok chain ∧
      chain.stem = "fx" ∧ chain.effects.length = 3 ∧
      ∀ dialect, ∃ shaders, chain.stack.build dialect = .ok shaders ∧ Bindable shaders := by
  have haccepted :
      ((Chain.parse Chain.repeatingText).toOption.map fun chain =>
          (chain.stem, chain.effects.length)) =
        some ("fx", 3) := by
    decide +kernel
  cases hparse : Chain.parse Chain.repeatingText with
  | error error =>
      rw [hparse] at haccepted
      contradiction
  | ok chain =>
      rw [hparse] at haccepted
      obtain ⟨hstem, heffects⟩ := Prod.mk.inj (Option.some.inj haccepted)
      exact ⟨chain, rfl, hstem, heffects, Chain.build_of_parse hparse⟩

end ShaderComposer
