import ShaderComposer.Proofs.ComposedStage
import ShaderComposer.Proofs.MergeSpecification

/-!
# The structs of both stages

Each stage merges its structs for itself, and the two results are joined by name,
what the fragment stage has before what the vertex stage has.  So the joined list
has no name twice and holds all structs of the fragment program.  A struct of the
vertex program is missing exactly when the fragment program gives its name another
body.  Composing does not fail then, although one stage with both bodies would be
refused.  Whether it happens is told from the passes: either both stages bring the
name, or only one of them overrides a struct of the catalog.
-/

namespace ShaderComposer

/-! ## Declarations in the text -/

namespace Text

theorem toList_infix_joinWith
    (separator : String) {piece : String} {pieces : List String} (hpiece : piece ∈ pieces) :
    piece.toList <:+: (joinWith separator pieces).toList := by
  induction pieces with
  | nil =>
      simp at hpiece
  | cons first rest ih =>
      cases rest with
      | nil =>
          rw [List.mem_singleton.mp hpiece]
          exact List.infix_rfl
      | cons next rest =>
          simp only [joinWith, String.toList_append]
          rcases List.mem_cons.mp hpiece with rfl | hlater
          · rw [List.append_assoc]
            exact (List.prefix_append _ _).isInfix
          · exact (ih hlater).trans (List.suffix_append _ _).isInfix

end Text

namespace Program

/-- Every struct of a program is declared in its source. -/
theorem declaration_infix_source
    {program : Program} {struct : StructDecl} (hstruct : struct ∈ program.structs) :
    struct.declaration.toList <:+: program.source.toList := by
  have hlisted : struct.declaration ∈ program.structs.map StructDecl.declaration :=
    List.mem_map_of_mem hstruct
  have hsection :
      Text.joinWith "\n\n" (program.structs.map StructDecl.declaration) ∈
        program.sections := by
    have hfilled : (program.structs.map StructDecl.declaration).isEmpty = false := by
      simp [List.ne_nil_of_mem hstruct]
    simp [sections, optionalSection, hfilled]
  unfold source
  rw [String.toList_append]
  exact
    ((Text.toList_infix_joinWith _ hlisted).trans
      (Text.toList_infix_joinWith _ hsection)).trans (List.prefix_append _ _).isInfix

end Program

/-! ## Joining two programs -/

namespace Setting

variable {vertex fragment : Program} {struct : StructDecl}

theorem mem_sharedStructs :
    struct ∈ sharedStructs vertex fragment ↔
      struct ∈ fragment.structs ∨
        (struct ∈ vertex.structs ∧
          struct.name ∉ fragment.structs.map StructDecl.name) := by
  unfold sharedStructs
  rw [List.mem_append, List.mem_filter, Bool.not_eq_true', List.contains_eq_mem,
    decide_eq_false_iff_not]

theorem nodup_map_name_sharedStructs
    (hvertex : (vertex.structs.map StructDecl.name).Nodup)
    (hfragment : (fragment.structs.map StructDecl.name).Nodup) :
    ((sharedStructs vertex fragment).map StructDecl.name).Nodup := by
  unfold sharedStructs
  rw [List.map_append]
  apply hfragment.append
  · exact hvertex.sublist (List.filter_sublist.map StructDecl.name)
  · intro name hname hrest
    obtain ⟨other, hother, rfl⟩ := List.mem_map.mp hrest
    have hfree := (List.mem_filter.mp hother).2
    simp only [Bool.not_eq_true', List.contains_eq_mem, decide_eq_false_iff_not] at hfree
    exact hfree hname

/-- A struct of the vertex program is kept unless its name has another body in the
fragment program. -/
theorem vertex_mem_sharedStructs_iff
    (hfragment : (fragment.structs.map StructDecl.name).Nodup)
    (hstruct : struct ∈ vertex.structs) :
    struct ∈ sharedStructs vertex fragment ↔
      ∀ other ∈ fragment.structs, other.name = struct.name → other = struct := by
  rw [mem_sharedStructs]
  constructor
  · rintro (hkept | ⟨-, hfree⟩) other hother hname
    · exact List.inj_on_of_nodup_map hfragment hother hkept hname
    · exact absurd (hname ▸ List.mem_map_of_mem hother) hfree
  · intro hsame
    by_cases hname : struct.name ∈ fragment.structs.map StructDecl.name
    · obtain ⟨other, hother, hname⟩ := List.mem_map.mp hname
      exact .inl (hsame other hother hname ▸ hother)
    · exact .inr ⟨hstruct, hname⟩

end Setting

/-! ## What the passes bring -/

/-- Some part of the stage has the struct. -/
def Brings (stage : Stage) (passes : List Pass) (struct : StructDecl) : Prop :=
  ∃ pass ∈ passes, ∃ part, pass.part? stage = some part ∧ struct ∈ part.structs

/-- No name of a struct stands for two bodies in the two stages. -/
structure StructsAgree (dialect : Dialect) (passes : List Pass) : Prop where
  brought :
    ∀ first, Brings .vertex passes first → ∀ second, Brings .fragment passes second →
      first.name = second.name → first = second
  vertexOverrides :
    ∀ struct, Brings .vertex passes struct → ∀ default ∈ Catalog.structs dialect,
      struct.name = default.name → struct ≠ default →
        ∃ other, Brings .fragment passes other ∧ other.name = default.name
  fragmentOverrides :
    ∀ struct, Brings .fragment passes struct → ∀ default ∈ Catalog.structs dialect,
      struct.name = default.name → struct ≠ default →
        ∃ other, Brings .vertex passes other ∧ other.name = default.name

namespace Setting

variable (setting : Setting) {stage : Stage} {passes : List Pass}

theorem mem_structs_builder {struct : StructDecl} :
    struct ∈ (setting.builder stage passes).part.structs ↔ Brings stage passes struct := by
  rw [structs_builder, List.mem_flatMap]
  constructor
  · rintro ⟨site, hsite, hstruct⟩
    obtain ⟨pass, hpass, hpart, -⟩ := mem_sites.mp hsite
    exact ⟨pass, List.mem_of_getElem? hpass, site.part, hpart, hstruct⟩
  · rintro ⟨pass, hpass, part, hpart, hstruct⟩
    obtain ⟨position, hposition⟩ := List.getElem?_of_mem hpass
    exact ⟨_, mem_sites_of_getElem? hposition hpart, hstruct⟩

/-- A program declares what its stage brings, and the catalog's structs that nothing
overrides. -/
theorem mem_structs_program
    (hwell : (setting.builder stage passes).WellFormed) {struct : StructDecl} :
    struct ∈ (setting.builder stage passes).program.structs ↔
      Brings stage passes struct ∨
        (struct ∈ Catalog.structs setting.dialect ∧
          ∀ other, Brings stage passes other → other.name ≠ struct.name) := by
  have hstructs :
      (setting.builder stage passes).program.structs =
        Merge.outcome StructDecl.name (Catalog.structs setting.dialect)
          (setting.builder stage passes).part.structs := rfl
  rw [hstructs, Merge.mem_outcome_iff hwell.structs, mem_structs_builder]
  simp [mem_structs_builder]

theorem nodup_map_name_structs
    (hwell : (setting.builder stage passes).WellFormed) :
    ((setting.builder stage passes).program.structs.map StructDecl.name).Nodup :=
  Merge.nodup_map_name_outcome (Catalog.nodup_structNames setting.dialect) hwell.structs

theorem eq_of_mem_catalog
    {dialect : Dialect} {first second : StructDecl}
    (hfirst : first ∈ Catalog.structs dialect) (hsecond : second ∈ Catalog.structs dialect)
    (hname : first.name = second.name) : first = second :=
  List.inj_on_of_nodup_map (Catalog.nodup_structNames dialect) hfirst hsecond hname

/-- The two programs agree on all names they share exactly when the passes do. -/
theorem programs_agree_iff
    (hvertex : (setting.builder .vertex passes).WellFormed)
    (hfragment : (setting.builder .fragment passes).WellFormed) :
    (∀ first ∈ (setting.builder .vertex passes).program.structs,
      ∀ second ∈ (setting.builder .fragment passes).program.structs,
        second.name = first.name → second = first) ↔
      StructsAgree setting.dialect passes := by
  simp only [setting.mem_structs_program hvertex, setting.mem_structs_program hfragment]
  constructor
  · intro hagree
    constructor
    · intro first hfirst second hsecond hname
      exact (hagree first (.inl hfirst) second (.inl hsecond) hname.symm).symm
    · intro struct hstruct default hdefault hname hne
      by_contra hnone
      refine hne (hagree struct (.inl hstruct) default (.inr ⟨hdefault, ?_⟩) hname.symm).symm
      intro other hother hsame
      exact hnone ⟨other, hother, hsame⟩
    · intro struct hstruct default hdefault hname hne
      by_contra hnone
      refine hne (hagree default (.inr ⟨hdefault, ?_⟩) struct (.inl hstruct) hname)
      intro other hother hsame
      exact hnone ⟨other, hother, hsame⟩
  · intro hagree first hfirst second hsecond hname
    rcases hfirst with hfirst | ⟨hfirst, hfree⟩
    · rcases hsecond with hsecond | ⟨hsecond, hfree'⟩
      · exact (hagree.brought first hfirst second hsecond hname.symm).symm
      · by_contra hne
        obtain ⟨other, hother, hsame⟩ :=
          hagree.vertexOverrides first hfirst second hsecond hname.symm (Ne.symm hne)
        exact hfree' other hother hsame
    · rcases hsecond with hsecond | ⟨hsecond, -⟩
      · by_contra hne
        obtain ⟨other, hother, hsame⟩ :=
          hagree.fragmentOverrides second hsecond first hfirst hname hne
        exact hfree other hother hsame
      · exact eq_of_mem_catalog hsecond hfirst hname

/-- The structs of a composed shader have distinct names and describe its fragment
source.  They describe its vertex source too, but for the structs to whose names the
fragment stage gives another body; composing goes on regardless, and there are none
exactly when the stages agree. -/
theorem compose_structs_describe_unless_split
    {shader : Shader} (hshader : setting.compose passes = .ok shader) :
    (shader.structs.map StructDecl.name).Nodup ∧
    (∀ stage, ∀ struct ∈ (shader.program stage).structs,
      struct.declaration.toList <:+: (shader.program stage).source.toList) ∧
    (∀ struct ∈ shader.fragment.structs, struct ∈ shader.structs) ∧
    (∀ struct ∈ shader.vertex.structs,
      (struct ∈ shader.structs ↔
        ∀ other ∈ shader.fragment.structs, other.name = struct.name → other = struct)) ∧
    ((∀ struct ∈ shader.vertex.structs, struct ∈ shader.structs) ↔
      StructsAgree setting.dialect passes) := by
  have hvertex := (setting.wellFormed_of_compose hshader .vertex).1
  have hfragment := (setting.wellFormed_of_compose hshader .fragment).1
  obtain ⟨-, -, rfl⟩ := setting.compose_eq_ok_iff.mp hshader
  have hdistinct := setting.nodup_map_name_structs hfragment
  have hkept {struct : StructDecl}
      (hstruct : struct ∈ (setting.builder .vertex passes).program.structs) :=
    vertex_mem_sharedStructs_iff hdistinct hstruct
  refine ⟨?_, ?_, ?_, ?_, ?_⟩
  · exact nodup_map_name_sharedStructs (setting.nodup_map_name_structs hvertex) hdistinct
  · intro stage struct hstruct
    exact Program.declaration_infix_source hstruct
  · intro struct hstruct
    exact mem_sharedStructs.mpr (.inl hstruct)
  · intro struct hstruct
    exact hkept hstruct
  · rw [← setting.programs_agree_iff hvertex hfragment]
    exact forall₂_congr fun struct hstruct => hkept hstruct

end Setting

/-- A pass whose two stages know different structs under one name. -/
def Pass.splitStruct : Pass where
  vertex := some { structs := [⟨"Params", "float a;"⟩] }
  fragment := some { structs := [⟨"Params", "float b;"⟩] }

theorem splitStruct_describes_fragment_only :
    ∃ shader, Setting.compose ⟨.gl, "cc_", 0, 0⟩ [Pass.splitStruct] = .ok shader ∧
      shader.vertex.structs = [⟨"Params", "float a;"⟩] ∧
      shader.fragment.structs = [⟨"Params", "float b;"⟩] ∧
      shader.structs = [⟨"Params", "float b;"⟩] ∧
      (shader.structs.map StructDecl.name).Nodup ∧
      ¬ StructsAgree .gl [Pass.splitStruct] := by
  have hshader :
      Setting.compose ⟨.gl, "cc_", 0, 0⟩ [Pass.splitStruct] =
        .ok (Setting.shader ⟨.gl, "cc_", 0, 0⟩ [Pass.splitStruct]) :=
    Setting.Composes.compose_eq _ (by decide +kernel)
  obtain ⟨hdistinct, -, -, -, hagree⟩ :=
    Setting.compose_structs_describe_unless_split _ hshader
  refine ⟨_, hshader, by decide +kernel, by decide +kernel, by decide +kernel,
    hdistinct, ?_⟩
  rw [← hagree]
  decide +kernel

/-- A struct that the vertex source declares need not be among a shader's structs. -/
theorem not_structs_describe_both :
    ¬ ∀ (setting : Setting) (passes : List Pass) (shader : Shader),
      setting.compose passes = .ok shader →
        (shader.structs.map StructDecl.name).Nodup ∧
        ∀ stage, ∀ struct ∈ (shader.program stage).structs, struct ∈ shader.structs := by
  intro hdescribe
  have hshader :
      Setting.compose ⟨.gl, "cc_", 0, 0⟩ [Pass.splitStruct] =
        .ok (Setting.shader ⟨.gl, "cc_", 0, 0⟩ [Pass.splitStruct]) :=
    Setting.Composes.compose_eq _ (by decide +kernel)
  have hvertex := (hdescribe _ _ _ hshader).2 .vertex
  revert hvertex
  decide +kernel

end ShaderComposer
