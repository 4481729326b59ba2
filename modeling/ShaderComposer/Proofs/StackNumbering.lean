import ShaderComposer.Effect.Color
import ShaderComposer.Proofs.ParameterNames
import ShaderComposer.Proofs.StackGrouping

/-!
# How the passes of a stack are numbered

Every list is composed on its own, and within it passes are numbered from the
start of the list.  The start moves on by the length of each list, so the number
that a pass gets in the end is its position in the whole stack, however the stack
is cut.
-/

namespace ShaderComposer

namespace EffectStack

variable (stack : EffectStack) {dialect : Dialect} {stem : String}

/-! ## One shader for each list -/

theorem composeFrom_cons_eq_ok_iff
    {listIndex startIndex : Nat} {list : List Pass} {rest : List (List Pass)}
    {shaders : List Shader} :
    composeFrom dialect stem listIndex startIndex (list :: rest) = .ok shaders ↔
      ∃ shader others,
        Setting.compose ⟨dialect, stem, listIndex, startIndex⟩ list = .ok shader ∧
        composeFrom dialect stem (listIndex + 1) (startIndex + list.length) rest =
          .ok others ∧
        shaders = shader :: others := by
  rw [composeFrom]
  cases hshader : Setting.compose ⟨dialect, stem, listIndex, startIndex⟩ list with
  | error error =>
      simp [bind, Except.bind]
  | ok shader =>
      cases hothers :
          composeFrom dialect stem (listIndex + 1) (startIndex + list.length) rest with
      | error error =>
          simp [bind, Except.bind]
      | ok others =>
          simp [bind, Except.bind, pure, Except.pure, eq_comm]

theorem length_composeFrom
    {listIndex startIndex : Nat} {lists : List (List Pass)} {shaders : List Shader}
    (hshaders :
      composeFrom dialect stem listIndex startIndex lists = .ok shaders) :
    shaders.length = lists.length := by
  induction lists generalizing listIndex startIndex shaders with
  | nil =>
      obtain rfl : [] = shaders := by simpa [composeFrom] using hshaders
      rfl
  | cons list rest ih =>
      obtain ⟨shader, others, -, hothers, rfl⟩ := composeFrom_cons_eq_ok_iff.mp hshaders
      rw [List.length_cons, List.length_cons, ih hothers]

/-- The shader of a list starts to count where the lists before it end. -/
theorem getElem?_composeFrom
    {listIndex startIndex : Nat} {lists : List (List Pass)} {shaders : List Shader}
    (hshaders :
      composeFrom dialect stem listIndex startIndex lists = .ok shaders)
    {number : Nat} {list : List Pass} (hlist : lists[number]? = some list) :
    ∃ shader, shaders[number]? = some shader ∧
      Setting.compose
          ⟨dialect, stem, listIndex + number,
            startIndex + (lists.take number).flatten.length⟩ list =
        .ok shader := by
  induction lists generalizing listIndex startIndex shaders number with
  | nil =>
      simp at hlist
  | cons head rest ih =>
      obtain ⟨shader, others, hshader, hothers, rfl⟩ :=
        composeFrom_cons_eq_ok_iff.mp hshaders
      cases number with
      | zero =>
          obtain rfl : head = list := by simpa using hlist
          exact ⟨shader, rfl, hshader⟩
      | succ number =>
          obtain ⟨other, hother, hcomposed⟩ := ih hothers hlist
          have hindex : listIndex + 1 + number = listIndex + (number + 1) := by omega
          rw [hindex, Nat.add_assoc, ← List.length_append, ← List.flatten_cons,
            ← List.take_succ_cons] at hcomposed
          exact ⟨other, hother, hcomposed⟩

theorem exists_compose_of_mem_composeFrom
    {listIndex startIndex : Nat} {lists : List (List Pass)} {shaders : List Shader}
    (hshaders :
      composeFrom dialect stem listIndex startIndex lists = .ok shaders)
    {shader : Shader} (hshader : shader ∈ shaders) :
    ∃ list ∈ lists, ∃ number start,
      Setting.compose ⟨dialect, stem, number, start⟩ list = .ok shader := by
  induction lists generalizing listIndex startIndex shaders with
  | nil =>
      obtain rfl : [] = shaders := by simpa [composeFrom] using hshaders
      contradiction
  | cons list rest ih =>
      obtain ⟨first, others, hfirst, hothers, rfl⟩ :=
        composeFrom_cons_eq_ok_iff.mp hshaders
      rcases List.mem_cons.mp hshader with rfl | hother
      · exact ⟨list, List.mem_cons_self, listIndex, startIndex, hfirst⟩
      · obtain ⟨found, hfound, number, start, hcomposed⟩ := ih hothers hother
        exact ⟨found, List.mem_cons_of_mem list hfound, number, start, hcomposed⟩

/-- A further list starts to count where the lists before it end. -/
theorem composeFrom_concat
    {listIndex startIndex : Nat} {lists : List (List Pass)} {shaders : List Shader}
    (hshaders :
      composeFrom dialect stem listIndex startIndex lists = .ok shaders)
    {list : List Pass} {shader : Shader}
    (hshader :
      Setting.compose
          ⟨dialect, stem, listIndex + lists.length,
            startIndex + lists.flatten.length⟩ list =
        .ok shader) :
    composeFrom dialect stem listIndex startIndex (lists ++ [list]) =
      .ok (shaders ++ [shader]) := by
  induction lists generalizing listIndex startIndex shaders with
  | nil =>
      obtain rfl : [] = shaders := by simpa [composeFrom] using hshaders
      exact composeFrom_cons_eq_ok_iff.mpr ⟨shader, [], hshader, rfl, rfl⟩
  | cons head rest ih =>
      obtain ⟨first, others, hfirst, hothers, rfl⟩ :=
        composeFrom_cons_eq_ok_iff.mp hshaders
      have hindex : listIndex + (head :: rest).length = listIndex + 1 + rest.length := by
        rw [List.length_cons]
        omega
      have hstart :
          startIndex + (head :: rest).flatten.length =
            startIndex + head.length + rest.flatten.length := by
        rw [List.flatten_cons, List.length_append]
        omega
      rw [hindex, hstart] at hshader
      exact composeFrom_cons_eq_ok_iff.mpr
        ⟨first, others ++ [shader], hfirst, ih hothers hshader, rfl⟩

/-- Lists that compose wherever they stand compose one after the other. -/
theorem exists_composeFrom
    {lists : List (List Pass)}
    (hlists : ∀ list ∈ lists, ∀ setting : Setting, setting.Composes list)
    (dialect : Dialect) (stem : String) (listIndex startIndex : Nat) :
    ∃ shaders, composeFrom dialect stem listIndex startIndex lists = .ok shaders := by
  induction lists generalizing listIndex startIndex with
  | nil =>
      exact ⟨[], rfl⟩
  | cons list rest ih =>
      obtain ⟨shader, hshader⟩ :=
        hlists list List.mem_cons_self ⟨dialect, stem, listIndex, startIndex⟩
      have hrest : ∀ list ∈ rest, ∀ setting : Setting, setting.Composes list :=
        fun other hother => hlists other (List.mem_cons_of_mem list hother)
      obtain ⟨others, hothers⟩ := ih hrest (listIndex + 1) (startIndex + list.length)
      exact ⟨shader :: others,
        composeFrom_cons_eq_ok_iff.mpr ⟨shader, others, hshader, hothers, rfl⟩⟩

/-! ## Parameters -/

/-- What a pass hands to the renderer if its number in the stack is `index`. -/
def boundParameters (dialect : Dialect) (stem : String) (index : Nat) (pass : Pass) :
    List BoundParameter :=
  pass.parameters.map fun parameter =>
    { shaderIndex := index
      localName := parameter.name
      name :=
        if Catalog.holds dialect .vertex parameter.name ||
            Catalog.holds dialect .fragment parameter.name then
          parameter.name
        else effectStem stem index ++ parameter.name
      value := parameter.value }

theorem parameters_compose_eq
    {listIndex startIndex : Nat} {list : List Pass} {shader : Shader}
    (hshader : Setting.compose ⟨dialect, stem, listIndex, startIndex⟩ list = .ok shader) :
    shader.parameters =
      (list.zipIdx startIndex).flatMap fun entry =>
        boundParameters dialect stem entry.2 entry.1 := by
  have hshift :
      list.zipIdx startIndex =
        list.zipIdx.map fun entry => (entry.1, startIndex + entry.2) :=
    List.zipIdx_eq_map_add
  rw [Setting.parameters_of_compose _ hshader, Setting.parametersFrom_eq, hshift,
    List.flatMap_map]
  rfl

theorem parameters_composeFrom_eq
    {listIndex startIndex : Nat} {lists : List (List Pass)} {shaders : List Shader}
    (hshaders :
      composeFrom dialect stem listIndex startIndex lists = .ok shaders) :
    shaders.flatMap Shader.parameters =
      (lists.flatten.zipIdx startIndex).flatMap fun entry =>
        boundParameters dialect stem entry.2 entry.1 := by
  induction lists generalizing listIndex startIndex shaders with
  | nil =>
      obtain rfl : [] = shaders := by simpa [composeFrom] using hshaders
      rfl
  | cons list rest ih =>
      obtain ⟨shader, others, hshader, hothers, rfl⟩ :=
        composeFrom_cons_eq_ok_iff.mp hshaders
      rw [List.flatMap_cons, parameters_compose_eq hshader, ih hothers,
        List.flatten_cons, List.zipIdx_append, List.flatMap_append]

/-! ## Building a stack -/

/-- Passes stay in their order, no list is empty, and two neighbours are in one
list if and only if each of them is the only pass of a joinable effect. -/
structure Grouped (stack : EffectStack) (dialect : Dialect) : Prop where
  flatten : (stack.lists dialect).flatten = stack.passes dialect
  filled : [] ∉ stack.lists dialect
  together :
    ∀ position, position + 1 < (stack.passes dialect).length →
      (StandTogether (stack.lists dialect) position ↔
        (stack.sharing dialect)[position]? = some true ∧
          (stack.sharing dialect)[position + 1]? = some true)

/-- Each list has its shader, in which a pass is called by its position in the
whole stack, as it is in the parameters of all shaders. -/
structure NumberedThrough (stack : EffectStack) (dialect : Dialect)
    (shaders : List Shader) : Prop where
  lists :
    ∀ (number : Nat) (list : List Pass), (stack.lists dialect)[number]? = some list →
      ∃ shader, shaders[number]? = some shader ∧
        Setting.compose
            ⟨dialect, stack.stem, number,
              ((stack.lists dialect).take number).flatten.length⟩ list =
          .ok shader
  passes :
    ∀ (index : Nat) (pass : Pass), (stack.passes dialect)[index]? = some pass →
      ∃ number shader,
        StandsIn (stack.lists dialect) number index ∧
        shaders[number]? = some shader ∧
        ∀ stage part, pass.part? stage = some part →
          (shader.program stage).Holds (effectStem stack.stem index) part
  parameters :
    shaders.flatMap Shader.parameters =
      (stack.passes dialect).zipIdx.flatMap fun entry =>
        boundParameters dialect stack.stem entry.2 entry.1

theorem grouped (dialect : Dialect) : stack.Grouped dialect where
  flatten := stack.flatten_lists dialect
  filled := stack.nil_not_mem_lists dialect
  together _ hposition := stack.standTogether_lists_iff dialect hposition

theorem numberedThrough_of_composeFrom
    {shaders : List Shader}
    (hshaders :
      composeFrom dialect stack.stem 0 0 (stack.lists dialect) = .ok shaders) :
    stack.NumberedThrough dialect shaders := by
  have hlists :=
    @getElem?_composeFrom dialect stack.stem 0 0 (stack.lists dialect) shaders hshaders
  simp only [Nat.zero_add] at hlists
  refine ⟨fun number list => hlists, ?_, ?_⟩
  · intro index pass hpass
    rw [← flatten_lists] at hpass
    obtain ⟨number, list, offset, hlist, hoffset, rfl, hstands⟩ := exists_standsIn hpass
    obtain ⟨shader, hshader, hcomposed⟩ := hlists hlist
    refine ⟨number, shader, hstands, hshader, ?_⟩
    intro stage part hpart
    exact Setting.holds_of_compose _ hcomposed hoffset hpart
  · rw [parameters_composeFrom_eq hshaders, flatten_lists]

theorem build_of_lists_nil (hlists : stack.lists dialect = []) :
    stack.build dialect = (Shader.passThrough dialect).map fun shader => [shader] := by
  rw [build, hlists]
  rfl

theorem build_of_lists_ne_nil (hlists : stack.lists dialect ≠ []) :
    stack.build dialect = composeFrom dialect stack.stem 0 0 (stack.lists dialect) := by
  rw [build]
  split
  · contradiction
  · rfl

/-- The lists that become render passes, an empty one if there is no pass at all. -/
def renderLists (stack : EffectStack) (dialect : Dialect) : List (List Pass) :=
  if stack.lists dialect = [] then [[]] else stack.lists dialect

theorem renderLists_of_nil (hlists : stack.lists dialect = []) :
    stack.renderLists dialect = [[]] :=
  if_pos hlists

theorem renderLists_of_ne_nil (hlists : stack.lists dialect ≠ []) :
    stack.renderLists dialect = stack.lists dialect :=
  if_neg hlists

theorem flatten_renderLists :
    (stack.renderLists dialect).flatten = stack.passes dialect := by
  rw [← flatten_lists]
  by_cases hlists : stack.lists dialect = []
  · rw [stack.renderLists_of_nil hlists, hlists]
    rfl
  · rw [stack.renderLists_of_ne_nil hlists]

theorem build_eq_composeFrom :
    stack.build dialect =
      composeFrom dialect stack.stem 0 0 (stack.renderLists dialect) := by
  by_cases hlists : stack.lists dialect = []
  · rw [stack.renderLists_of_nil hlists, build, hlists]
    rfl
  · rw [stack.renderLists_of_ne_nil hlists, stack.build_of_lists_ne_nil hlists]

theorem exists_passThrough (dialect : Dialect) :
    ∃ shader, Shader.passThrough dialect = .ok shader := by
  have hcomposes : Setting.Composes ⟨dialect, defaultStem, 0, 0⟩ [] := by
    cases dialect with
    | gl =>
        decide +kernel
    | metal =>
        decide +kernel
  exact ⟨_, Setting.Composes.compose_eq _ hcomposes⟩

theorem numberedThrough_of_lists_nil
    (hlists : stack.lists dialect = [])
    {shader : Shader} (hshader : Shader.passThrough dialect = .ok shader) :
    stack.NumberedThrough dialect [shader] := by
  have hpasses : stack.passes dialect = [] := by
    rw [← flatten_lists, hlists, List.flatten_nil]
  have hparameters : shader.parameters = [] :=
    Setting.parameters_of_compose _ hshader
  constructor
  · intro number list hlist
    simp [hlists] at hlist
  · intro index pass hpass
    simp [hpasses] at hpass
  · rw [hpasses, List.flatMap_singleton, hparameters]
    rfl

/-- The lists of a stack keep its passes in order and are cut exactly where sharing
ends.  Without any there is one render pass, which changes nothing.  Whenever the
stack is built, each list becomes a shader and its passes are numbered through. -/
theorem build_groups_and_numbers_through (dialect : Dialect) :
    stack.Grouped dialect ∧
    (stack.lists dialect = [] →
      ∃ shader, Shader.passThrough dialect = .ok shader ∧
        stack.build dialect = .ok [shader]) ∧
    ∀ shaders, stack.build dialect = .ok shaders →
      (stack.lists dialect ≠ [] →
        shaders.length = (stack.lists dialect).length) ∧
      stack.NumberedThrough dialect shaders := by
  refine ⟨stack.grouped dialect, ?_, ?_⟩
  · intro hlists
    obtain ⟨shader, hshader⟩ := exists_passThrough dialect
    refine ⟨shader, hshader, ?_⟩
    rw [stack.build_of_lists_nil hlists, hshader]
    rfl
  · intro shaders hbuild
    by_cases hlists : stack.lists dialect = []
    · obtain ⟨shader, hshader⟩ := exists_passThrough dialect
      rw [stack.build_of_lists_nil hlists, hshader] at hbuild
      obtain rfl : [shader] = shaders := by simpa [Except.map] using hbuild
      exact ⟨fun hne => absurd hlists hne, stack.numberedThrough_of_lists_nil hlists hshader⟩
    · rw [stack.build_of_lists_ne_nil hlists] at hbuild
      exact
        ⟨fun _ => length_composeFrom hbuild, stack.numberedThrough_of_composeFrom hbuild⟩

end EffectStack

/-- Two adjustments that share a render pass, with an effect between them that does
nothing, an effect of two passes, and an adjustment behind it. -/
def EffectStack.mixed : EffectStack where
  effects :=
    [Adjustment.brightness.effect 0.5,
      ⟨"Nothing", true, fun _ => []⟩,
      Adjustment.contrast.effect 0.25,
      ⟨"Twice", true, fun dialect =>
        [Adjustment.saturation.pass 0.5 dialect, Adjustment.saturation.pass 0.25 dialect]⟩,
      Adjustment.saturation.effect 0.75]

theorem mixed_groups_and_numbers_through :
    ∃ shaders, EffectStack.mixed.build .gl = .ok shaders ∧
      EffectStack.mixed.lists .gl ≠ [] ∧ shaders.length = 4 ∧
      StandTogether (EffectStack.mixed.lists .gl) 0 ∧
      ¬ StandTogether (EffectStack.mixed.lists .gl) 1 ∧
      ¬ StandTogether (EffectStack.mixed.lists .gl) 2 ∧
      EffectStack.mixed.NumberedThrough .gl shaders := by
  have hbuilt : (EffectStack.mixed.build .gl).toOption.isSome = true := by
    decide +kernel
  have hlength : (EffectStack.mixed.lists .gl).length = 4 := by
    decide +kernel
  have hlists : EffectStack.mixed.lists .gl ≠ [] := by
    intro hnil
    rw [hnil] at hlength
    contradiction
  obtain ⟨hgrouped, -, hnumbered⟩ :=
    EffectStack.mixed.build_groups_and_numbers_through .gl
  cases hbuild : EffectStack.mixed.build .gl with
  | error error =>
      rw [hbuild] at hbuilt
      contradiction
  | ok shaders =>
      obtain ⟨hshaders, hthrough⟩ := hnumbered shaders hbuild
      have htogether : StandTogether (EffectStack.mixed.lists .gl) 0 :=
        (hgrouped.together 0 (by decide +kernel)).mpr (by decide +kernel)
      have hbefore : ¬ StandTogether (EffectStack.mixed.lists .gl) 1 := by
        rw [hgrouped.together 1 (by decide +kernel)]
        decide +kernel
      have hinside : ¬ StandTogether (EffectStack.mixed.lists .gl) 2 := by
        rw [hgrouped.together 2 (by decide +kernel)]
        decide +kernel
      exact
        ⟨shaders, rfl, hlists, (hshaders hlists).trans hlength, htogether, hbefore,
          hinside, hthrough⟩

end ShaderComposer
