import ShaderComposer.Proofs.FirstConflicts
import ShaderComposer.Proofs.ParameterNames

/-!
# What the index of a list decides

The index is looked at in one place: in a list other than the first, every source of
a fragment temporary is promoted, not the chain's input alone.  Promotion stays in
the stage, so no check notices it; it changes no name, so nothing is merged, resolved
or found twice in another way.  Composing a later list is therefore composing the
first one and promoting what its fragment program declares.

In the text the difference is smaller still.  The chain's input reads the same
before and after its promotion, so only the declarations that start from the color
or from the picture of the first list are written in another way.
-/

namespace ShaderComposer

def Temporary.promoted (temporary : Temporary) : Temporary :=
  { temporary with initializer := temporary.initializer.promote }

def Part.promoted (part : Part) : Part :=
  { part with temporaries := part.temporaries.map Temporary.promoted }

def Builder.promoted (builder : Builder) : Builder :=
  { builder with part := builder.part.promoted }

def Program.promoted (program : Program) : Program :=
  { program with temporaries := program.temporaries.map Temporary.promoted }

def Shader.promoted (shader : Shader) : Shader :=
  { shader with fragment := shader.fragment.promoted }

theorem Initializer.isReserved_promote
    {initializer : Initializer} (hstage : initializer.availableIn .fragment = true) :
    initializer.promote.isReserved = true := by
  cases initializer with
  | vertexAttributes =>
      contradiction
  | fragColor => rfl
  | mainTexture => rfl
  | previousPass => rfl
  | reserved0 => rfl
  | reserved1 => rfl
  | reserved2 => rfl

/-! ## What is collected for a later list -/

namespace Setting

variable (setting : Setting) {stage : Stage} {passes : List Pass}

def atList (index : Nat) : Setting :=
  { setting with listIndex := index }

theorem source_manglingAt (stage : Stage) (site : Site) (initializer : Initializer) :
    (setting.manglingAt stage site).source initializer =
      if stage = .fragment &&
          (decide (initializer = Initializer.chainInput stage) ||
            decide (0 < setting.listIndex)) then
        initializer.promote
      else initializer := rfl

theorem declare_atList_later
    {later : Nat} (hlater : 0 < later) (site : Site) (temporary : Temporary) :
    ((setting.atList later).manglingAt .fragment site).declare temporary =
      (((setting.atList 0).manglingAt .fragment site).declare temporary).promoted := by
  have hsource :
      ((setting.atList later).manglingAt .fragment site).source temporary.initializer =
        (((setting.atList 0).manglingAt .fragment site).source
          temporary.initializer).promote := by
    rw [source_manglingAt, source_manglingAt]
    simp only [atList, hlater, decide_true, Bool.or_true, Bool.and_true, if_true,
      lt_self_iff_false, decide_false, Bool.or_false]
    split
    · exact (Initializer.promote_promote temporary.initializer).symm
    · rfl
  unfold Mangling.declare Temporary.promoted
  rw [hsource]
  rfl

/-- Only the temporaries of what is collected can depend on the index. -/
theorem builder_atList (index : Nat) (stage : Stage) (passes : List Pass) :
    (setting.atList index).builder stage passes =
      { setting.builder stage passes with
        part :=
          { (setting.builder stage passes).part with
            temporaries :=
              ((setting.atList index).builder stage passes).part.temporaries } } := by
  let part := ((setting.atList index).builder stage passes).part
  let here := (setting.builder stage passes).part
  have hfunctions : part.functions = here.functions := by
    rw [functions_builder, functions_builder]
    rfl
  have hcalls : part.calls = here.calls := by
    rw [calls_builder, calls_builder]
    rfl
  have harguments : part.arguments = here.arguments := by
    rw [arguments_builder, arguments_builder]
    rfl
  have hstructs : part.structs = here.structs := by
    rw [structs_builder, structs_builder]
  calc (setting.atList index).builder stage passes
      = ⟨setting.dialect, stage,
          ⟨part.functions, part.calls, part.temporaries, part.arguments, part.structs⟩⟩ := rfl
    _ = ⟨setting.dialect, stage,
          ⟨here.functions, here.calls, part.temporaries, here.arguments, here.structs⟩⟩ := by
        rw [hfunctions, hcalls, harguments, hstructs]

theorem builder_atList_vertex (index : Nat) (passes : List Pass) :
    (setting.atList index).builder .vertex passes = setting.builder .vertex passes := by
  have htemporaries :
      ((setting.atList index).builder .vertex passes).part.temporaries =
        (setting.builder .vertex passes).part.temporaries := by
    rw [temporaries_builder, temporaries_builder]
    rfl
  rw [builder_atList, htemporaries]

theorem builder_atList_later {later : Nat} (hlater : 0 < later) (passes : List Pass) :
    (setting.atList later).builder .fragment passes =
      ((setting.atList 0).builder .fragment passes).promoted := by
  have htemporaries :
      (((setting.atList 0).atList later).builder .fragment passes).part.temporaries =
        ((setting.atList 0).builder .fragment passes).part.temporaries.map
          Temporary.promoted := by
    rw [temporaries_builder, temporaries_builder, List.map_flatMap]
    congr 1
    funext site
    rw [List.map_map]
    apply List.map_congr_left
    intro temporary _
    exact setting.declare_atList_later hlater site temporary
  change ((setting.atList 0).atList later).builder .fragment passes = _
  rw [builder_atList, htemporaries]
  rfl

end Setting

/-! ## Building and composing -/

theorem Builder.collision?_promoted (builder : Builder) :
    builder.promoted.collision? = builder.collision? := by
  have hvariables : builder.promoted.part.variables = builder.part.variables := by
    unfold Part.variables
    simp only [promoted, Part.promoted, List.map_map]
    rfl
  unfold collision?
  rw [hvariables]
  rfl

namespace Setting

variable (setting : Setting) {passes : List Pass}

theorem fault?_atList (index : Nat) (passes : List Pass) :
    (setting.atList index).fault? passes = setting.fault? passes := by
  apply faultFrom?_congr
  rfl

theorem parametersFrom_atList (index position : Nat) (passes : List Pass) :
    (setting.atList index).parametersFrom position passes =
      setting.parametersFrom position passes := by
  rw [parametersFrom_eq, parametersFrom_eq]
  rfl

/-- A later list composes as the first one does, with promoted sources. -/
theorem compose_atList_later {later : Nat} (hlater : 0 < later) (passes : List Pass) :
    (setting.atList later).compose passes =
      ((setting.atList 0).compose passes).map Shader.promoted := by
  cases hfault : setting.fault? passes with
  | some fault =>
      have herror (index : Nat) :
          (setting.atList index).compose passes = .error fault := by
        simp only [compose, fault?_atList, hfault]
      rw [herror, herror]
      rfl
  | none =>
      have hsound : ∀ pass ∈ passes, ¬ pass.Faulty :=
        setting.fault?_eq_none_iff.mp hfault
      have hfragment :
          ((setting.atList later).builder .fragment passes).build =
            ((setting.atList 0).builder .fragment passes).build.map Program.promoted := by
        rw [build_of_sound _ hsound, build_of_sound _ hsound,
          setting.builder_atList_later hlater, Builder.collision?_promoted]
        cases ((setting.atList 0).builder .fragment passes).collision? with
        | none =>
            rfl
        | some collision =>
            rfl
      rw [compose_of_sound _ hsound, compose_of_sound _ hsound, hfragment,
        builder_atList_vertex, builder_atList_vertex, parametersFrom_atList,
        parametersFrom_atList]
      cases (setting.builder .vertex passes).build with
      | error error =>
          rfl
      | ok vertex =>
          cases ((setting.atList 0).builder .fragment passes).build with
          | error error =>
              rfl
          | ok fragment =>
              rfl

end Setting

/-! ## The text of a later list -/

namespace Temporary

/-- The line that declares a temporary whose name is put behind a stem. -/
def lineBehind (stem : String) (dialect : Dialect) (temporary : Temporary) : String :=
  { temporary with name := stem ++ temporary.name }.declaration dialect

/-- The temporary as later lists write it: what starts from the color or the picture
of the first list is promoted. -/
def inLaterList (temporary : Temporary) : Temporary :=
  if temporary.initializer = .fragColor ∨ temporary.initializer = .mainTexture then
    temporary.promoted
  else temporary

end Temporary

theorem Text.exists_joinWith_concat (separator : String) (pieces : List String) :
    ∃ front, ∀ last, joinWith separator (pieces ++ [last]) = front ++ last := by
  induction pieces with
  | nil =>
      refine ⟨"", ?_⟩
      intro last
      rw [String.empty_append]
      rfl
  | cons piece rest ih =>
      obtain ⟨front, hfront⟩ := ih
      refine ⟨piece ++ separator ++ front, ?_⟩
      intro last
      have hstep :
          joinWith separator (piece :: (rest ++ [last])) =
            piece ++ separator ++ joinWith separator (rest ++ [last]) := by
        cases rest with
        | nil => rfl
        | cons next rest => rfl
      rw [List.cons_append, hstep, hfront, ← String.append_assoc]

namespace Program

def linesBelowTemporaries (program : Program) : List String :=
  program.invocations.map Invocation.statement ++
    writeBack program.dialect program.stage program.result

theorem mainLines_eq (program : Program) :
    program.mainLines =
      (program.temporaries.map fun temporary => temporary.declaration program.dialect) ++
        program.linesBelowTemporaries := by
  unfold mainLines body linesBelowTemporaries
  rw [List.map_append, List.map_map, List.map_map, List.append_assoc]
  rfl

/-- Promotion leaves the text in front of the main body and behind it as it is. -/
theorem exists_source_around_body (program : Program) :
    ∃ front back,
      program.source =
        front ++ Text.indent 1 (Text.joinWith "\n" program.mainLines) ++ back ∧
      program.promoted.source =
        front ++ Text.indent 1 (Text.joinWith "\n" program.promoted.mainLines) ++ back := by
  obtain ⟨sections, hsections, hpromoted⟩ :
      ∃ sections : List String,
        program.sections =
            sections ++
              [program.entry ++ "\n\x7b\n" ++
                Text.indent 1 (Text.joinWith "\n" program.mainLines) ++ "\n\x7d"] ∧
          program.promoted.sections =
            sections ++
              [program.entry ++ "\n\x7b\n" ++
                Text.indent 1 (Text.joinWith "\n" program.promoted.mainLines) ++
                  "\n\x7d"] :=
    ⟨_, rfl, rfl⟩
  obtain ⟨front, hfront⟩ := Text.exists_joinWith_concat "\n\n" sections
  refine ⟨front ++ (program.entry ++ "\n\x7b\n"), "\n\x7d" ++ "\n", ?_, ?_⟩
  · unfold source
    rw [hsections, hfront]
    simp only [String.append_assoc]
  · unfold source
    rw [hpromoted, hfront]
    simp only [String.append_assoc]

end Program

/-! ## What the index decides -/

namespace Setting

variable (setting : Setting) {passes : List Pass}

/-- The temporaries a list declares in its fragment stage, with their positions. -/
def fragmentDeclared (passes : List Pass) : List (Nat × Temporary) :=
  (sites .fragment passes).flatMap fun site =>
    (site.declared .fragment).map (Prod.mk site.position)

/-- A shader of the first list and one of a later list of the same passes: only the
declarations that start from the color or the picture of the first list differ. -/
structure OnlyPromoted (passes : List Pass) (first later : Shader) : Prop where
  vertex : later.vertex = first.vertex
  bindings : later.fragment.bindings = first.fragment.bindings
  structs : later.structs = first.structs
  parameters : later.parameters = first.parameters
  source :
    ∃ front back,
      first.fragment.source =
        front ++ Text.indent 1 (Text.joinWith "\n" first.fragment.mainLines) ++ back ∧
      later.fragment.source =
        front ++ Text.indent 1 (Text.joinWith "\n" later.fragment.mainLines) ++ back
  lines :
    ∃ below : List String,
      first.fragment.mainLines =
        ((fragmentDeclared passes).map fun entry =>
          entry.2.lineBehind (setting.stemAt entry.1) setting.dialect) ++ below ∧
      later.fragment.mainLines =
        ((fragmentDeclared passes).map fun entry =>
          entry.2.inLaterList.lineBehind (setting.stemAt entry.1) setting.dialect) ++
            below
  reserved :
    ∀ temporary ∈ later.fragment.temporaries, temporary.initializer.isReserved = true

/-- What is written of each declared temporary is told by the temporary of its part. -/
theorem map_temporaries_fragment
    {write : Temporary → String} {line : Nat × Temporary → String}
    (hline :
      ∀ (site : Site) (temporary : Temporary),
        write ((setting.manglingAt .fragment site).declare temporary) =
          line (site.position, temporary)) :
    (setting.builder .fragment passes).part.temporaries.map write =
      (fragmentDeclared passes).map line := by
  rw [temporaries_builder, fragmentDeclared, List.map_flatMap, List.map_flatMap]
  simp only [List.map_map, Function.comp_def, hline]

theorem declaration_first (site : Site) (temporary : Temporary) :
    (((setting.atList 0).manglingAt .fragment site).declare temporary).declaration
        setting.dialect =
      temporary.lineBehind (setting.stemAt site.position) setting.dialect := by
  have hexpression :
      (((setting.atList 0).manglingAt .fragment site).source
          temporary.initializer).expression setting.dialect =
        temporary.initializer.expression setting.dialect := by
    cases temporary.initializer <;> cases setting.dialect <;> rfl
  unfold Temporary.lineBehind Temporary.declaration Mangling.declare
  rw [hexpression]
  rfl

/-- The promoted chain's input is written as the chain's input, so a declaration that
was promoted in the first list already does not read differently in a later one. -/
theorem declaration_first_promoted (site : Site) (temporary : Temporary) :
    (((setting.atList 0).manglingAt .fragment site).declare temporary).promoted.declaration
        setting.dialect =
      temporary.inLaterList.lineBehind (setting.stemAt site.position) setting.dialect := by
  have hexpression :
      (((setting.atList 0).manglingAt .fragment site).source
          temporary.initializer).promote.expression setting.dialect =
        temporary.inLaterList.initializer.expression setting.dialect := by
    unfold Temporary.inLaterList
    cases htemporary : temporary.initializer <;> cases setting.dialect <;>
      simp [source_manglingAt, Temporary.promoted, htemporary] <;> rfl
  have hname : temporary.inLaterList.name = temporary.name := by
    unfold Temporary.inLaterList
    split <;> rfl
  have htype : temporary.inLaterList.type = temporary.type := by
    unfold Temporary.inLaterList
    split <;> rfl
  unfold Temporary.lineBehind Temporary.declaration
  rw [← hexpression, hname, htype]
  rfl

theorem onlyPromoted_shader (hsound : ∀ pass ∈ passes, ¬ pass.Faulty) :
    setting.OnlyPromoted passes ((setting.atList 0).shader passes)
      ((setting.atList 0).shader passes).promoted where
  vertex := rfl
  bindings := rfl
  structs := rfl
  parameters := rfl
  source := Program.exists_source_around_body _
  lines := by
    let first := ((setting.atList 0).builder .fragment passes).program
    have hfirst :
        (first.temporaries.map fun temporary => temporary.declaration setting.dialect) =
          (fragmentDeclared passes).map fun entry =>
            entry.2.lineBehind (setting.stemAt entry.1) setting.dialect :=
      (setting.atList 0).map_temporaries_fragment setting.declaration_first
    have hlater :
        (first.promoted.temporaries.map fun temporary =>
            temporary.declaration setting.dialect) =
          (fragmentDeclared passes).map fun entry =>
            entry.2.inLaterList.lineBehind (setting.stemAt entry.1) setting.dialect := by
      have hwritten :
          (first.temporaries.map fun temporary =>
              temporary.promoted.declaration setting.dialect) =
            (fragmentDeclared passes).map fun entry =>
              entry.2.inLaterList.lineBehind (setting.stemAt entry.1) setting.dialect :=
        (setting.atList 0).map_temporaries_fragment setting.declaration_first_promoted
      rw [← hwritten]
      exact List.map_map
    refine ⟨first.linesBelowTemporaries, ?_, ?_⟩
    · rw [← hfirst]
      exact first.mainLines_eq
    · rw [← hlater]
      exact first.promoted.mainLines_eq
  reserved := by
    intro temporary htemporary
    obtain ⟨original, horiginal, rfl⟩ := List.mem_map.mp htemporary
    exact Initializer.isReserved_promote
      ((setting.atList 0).available_builder hsound horiginal)

/-- All later lists compose the passes in one way, and the first list in another that
differs from it in the promoted declarations only. -/
theorem compose_index_only_promotes (passes : List Pass) :
    (∀ first second, 0 < first → 0 < second →
      (setting.atList first).compose passes = (setting.atList second).compose passes) ∧
    ∀ later, 0 < later →
      (∃ error,
        (setting.atList 0).compose passes = .error error ∧
        (setting.atList later).compose passes = .error error) ∨
      ∃ shader shader',
        (setting.atList 0).compose passes = .ok shader ∧
        (setting.atList later).compose passes = .ok shader' ∧
        setting.OnlyPromoted passes shader shader' := by
  constructor
  · intro first second hfirst hsecond
    rw [setting.compose_atList_later hfirst, setting.compose_atList_later hsecond]
  · intro later hlater
    have hcompose := setting.compose_atList_later hlater passes
    cases hfirst : (setting.atList 0).compose passes with
    | error error =>
        rw [hfirst] at hcompose
        exact .inl ⟨error, rfl, hcompose⟩
    | ok shader =>
        rw [hfirst] at hcompose
        obtain ⟨hsound, -, rfl⟩ := (setting.atList 0).compose_eq_ok_iff.mp hfirst
        exact .inr ⟨_, _, rfl, hcompose, setting.onlyPromoted_shader hsound⟩

end Setting

/-- A pass that reads the color, the picture and what the passes before have left. -/
def Pass.sampling : Pass where
  fragment :=
    some
      { temporaries :=
          [⟨"vec4", "tint", .fragColor⟩, ⟨"vec4", "picture", .mainTexture⟩,
            ⟨"vec4", "below", .previousPass⟩] }

theorem sampling_is_promoted_in_a_later_list :
    (0 < 1 ∧ 0 < 2 ∧
      Setting.compose (Setting.atList ⟨.gl, "cc_", 0, 0⟩ 1) [Pass.sampling] =
        Setting.compose (Setting.atList ⟨.gl, "cc_", 0, 0⟩ 2) [Pass.sampling]) ∧
    ∃ shader shader',
      Setting.compose (Setting.atList ⟨.gl, "cc_", 0, 0⟩ 0) [Pass.sampling] = .ok shader ∧
      Setting.compose (Setting.atList ⟨.gl, "cc_", 0, 0⟩ 2) [Pass.sampling] =
        .ok shader' ∧
      Setting.OnlyPromoted ⟨.gl, "cc_", 0, 0⟩ [Pass.sampling] shader shader' ∧
      shader.fragment.mainLines ≠ shader'.fragment.mainLines := by
  have hindex :=
    Setting.compose_index_only_promotes ⟨.gl, "cc_", 0, 0⟩ [Pass.sampling]
  have hcomposes :
      Setting.Composes (Setting.atList ⟨.gl, "cc_", 0, 0⟩ 0) [Pass.sampling] := by
    decide +kernel
  have hlines :
      (Setting.shader (Setting.atList ⟨.gl, "cc_", 0, 0⟩ 0)
          [Pass.sampling]).fragment.mainLines ≠
        (Setting.shader (Setting.atList ⟨.gl, "cc_", 0, 0⟩ 2)
          [Pass.sampling]).fragment.mainLines := by
    decide +kernel
  have hfirst := Setting.Composes.compose_eq _ hcomposes
  refine ⟨⟨by decide, by decide, hindex.1 1 2 (by decide) (by decide)⟩, ?_⟩
  rcases hindex.2 2 (by decide) with
    ⟨error, herror, -⟩ | ⟨shader, shader', hshader, hshader', honly⟩
  · rw [hfirst] at herror
    contradiction
  · refine ⟨shader, shader', hshader, hshader', honly, ?_⟩
    rw [((Setting.atList ⟨.gl, "cc_", 0, 0⟩ 0).compose_eq_ok_iff.mp hshader).2.2,
      ((Setting.atList ⟨.gl, "cc_", 0, 0⟩ 2).compose_eq_ok_iff.mp hshader').2.2]
    exact hlines

end ShaderComposer
