import ShaderComposer.Proofs.MergeSpecification
import ShaderComposer.Proofs.StackNumbering

/-!
# Slots of bindings

The bindings of a program are its merged arguments, numbered apart by qualifier.
Merging gives every name once and the names of the catalog first, so a binding is
found by its name, and numbering from left to right gives each qualifier the slots
from zero on without a gap.  The text declares the bindings one for one: Metal with
the slot behind each parameter of the entry point, GL without it as a uniform.

A slot is settled by the qualifiers in front of it.  Overriding a default by an
argument of the same qualifier moves nothing, and arguments under new names come
behind everything that was bound before.
-/

namespace ShaderComposer

namespace Binding

def ofQualifier (qualifier : Qualifier) (bindings : List Binding) : List Binding :=
  bindings.filter fun binding => binding.argument.qualifier = qualifier

/-- The name of a binding and where the renderer finds it. -/
def place (binding : Binding) : String × Option Nat :=
  (binding.name, binding.slot)

/-! ## Numbering -/

section Numbering

variable {qualifier : Qualifier}

theorem assignAfter_append (earlier first rest : List Argument) :
    assignAfter earlier (first ++ rest) =
      assignAfter earlier first ++ assignAfter (first.reverse ++ earlier) rest := by
  induction first generalizing earlier with
  | nil =>
      rfl
  | cons argument first ih =>
      simp only [List.cons_append, assignAfter, ih, List.reverse_cons,
        List.append_assoc, List.nil_append]

/-- What is bound behind the others leaves their slots as they are. -/
theorem assign_prefix
    {first second : List Argument} (hbegins : first <+: second) :
    assign first <+: assign second := by
  obtain ⟨rest, rfl⟩ := hbegins
  rw [assign, assign, assignAfter_append]
  exact List.prefix_append _ _

/-- The arguments of a qualifier are numbered on from those before. -/
theorem map_slot_ofQualifier_assignAfter
    (hslot : qualifier.hasSlot = true) (earlier arguments : List Argument) :
    (ofQualifier qualifier (assignAfter earlier arguments)).map slot =
      (List.range'
        (earlier.countP fun other => other.qualifier = qualifier)
        (arguments.countP fun other => other.qualifier = qualifier)).map some := by
  unfold ofQualifier
  induction arguments generalizing earlier with
  | nil =>
      rfl
  | cons argument rest ih =>
      rw [assignAfter]
      by_cases hsame : argument.qualifier = qualifier
      · have hfirst : slotAfter earlier argument =
            some (earlier.countP fun other => other.qualifier = qualifier) := by
          simp [slotAfter, hsame, hslot]
        rw [List.filter_cons_of_pos (by simpa using hsame), List.map_cons, ih,
          List.countP_cons_of_pos (by simpa using hsame),
          List.countP_cons_of_pos (by simpa using hsame), List.range'_succ,
          List.map_cons, hfirst]
      · rw [List.filter_cons_of_neg (by simpa using hsame), ih,
          List.countP_cons_of_neg (by simpa using hsame),
          List.countP_cons_of_neg (by simpa using hsame)]

theorem map_slot_ofQualifier_assign
    (hslot : qualifier.hasSlot = true) (arguments : List Argument) :
    (ofQualifier qualifier (assign arguments)).map slot =
      (List.range (ofQualifier qualifier (assign arguments)).length).map some := by
  have hslots := map_slot_ofQualifier_assignAfter hslot [] arguments
  have hlength := congrArg List.length hslots
  rw [List.length_map, List.length_map, List.length_range'] at hlength
  rw [assign, hslots, hlength, List.countP_nil, ← List.range_eq_range']

theorem exists_slot_eq_slotAfter
    {earlier arguments : List Argument} {binding : Binding}
    (hbinding : binding ∈ assignAfter earlier arguments) :
    ∃ before, binding.slot = slotAfter before binding.argument := by
  induction arguments generalizing earlier with
  | nil =>
      contradiction
  | cons argument rest ih =>
      rcases List.mem_cons.mp hbinding with rfl | hrest
      · exact ⟨earlier, rfl⟩
      · exact ih hrest

theorem slotAfter_congr
    {earlier earlier' : List Argument} {argument argument' : Argument}
    (hearlier : earlier.map Argument.qualifier = earlier'.map Argument.qualifier)
    (hargument : argument.qualifier = argument'.qualifier) :
    slotAfter earlier argument = slotAfter earlier' argument' := by
  have hcount (arguments : List Argument) :
      (arguments.countP fun other => other.qualifier = argument'.qualifier) =
        (arguments.map Argument.qualifier).countP
          fun other => other = argument'.qualifier := by
    rw [List.countP_map]
    rfl
  unfold slotAfter
  rw [hargument, hcount, hcount, hearlier]

theorem slot_eq_none_of_mem_ofQualifier
    (hslot : qualifier.hasSlot = false)
    {arguments : List Argument} {binding : Binding}
    (hbinding : binding ∈ ofQualifier qualifier (assign arguments)) :
    binding.slot = none := by
  obtain ⟨hmem, hsame⟩ := List.mem_filter.mp hbinding
  obtain ⟨before, hafter⟩ := exists_slot_eq_slotAfter hmem
  have hqualifier : binding.argument.qualifier = qualifier := of_decide_eq_true hsame
  rw [hafter, slotAfter, hqualifier, hslot]
  rfl

/-- Slots depend on the qualifiers alone. -/
theorem map_slot_assignAfter_congr
    {earlier earlier' arguments arguments' : List Argument}
    (hearlier : earlier.map Argument.qualifier = earlier'.map Argument.qualifier)
    (harguments :
      arguments.map Argument.qualifier = arguments'.map Argument.qualifier) :
    (assignAfter earlier arguments).map slot =
      (assignAfter earlier' arguments').map slot := by
  induction arguments generalizing earlier earlier' arguments' with
  | nil =>
      rw [List.map_nil, eq_comm, List.map_eq_nil_iff] at harguments
      rw [harguments]
      rfl
  | cons argument rest ih =>
      cases arguments' with
      | nil =>
          contradiction
      | cons argument' rest' =>
          obtain ⟨hfirst, hrest⟩ := List.cons.inj harguments
          have hnext :
              (argument :: earlier).map Argument.qualifier =
                (argument' :: earlier').map Argument.qualifier := by
            rw [List.map_cons, List.map_cons, hfirst, hearlier]
          rw [assignAfter, assignAfter, List.map_cons, List.map_cons,
            slotAfter_congr hearlier hfirst, ih hnext hrest]

/-- Names and qualifiers settle where arguments are bound. -/
theorem map_place_assign_congr
    {first second : List Argument}
    (hname : first.map Argument.name = second.map Argument.name)
    (hqualifier : first.map Argument.qualifier = second.map Argument.qualifier) :
    (assign first).map place = (assign second).map place := by
  have hplaces (arguments : List Argument) :
      (assign arguments).map place =
        (arguments.map Argument.name).zip ((assign arguments).map slot) := by
    have hnames : arguments.map Argument.name = (assign arguments).map name := by
      conv_lhs => rw [← map_argument_assign arguments]
      rw [List.map_map]
      rfl
    rw [hnames, List.zip_map']
    rfl
  have hslots : (assign first).map slot = (assign second).map slot :=
    map_slot_assignAfter_congr rfl hqualifier
  rw [hplaces, hplaces, hname, hslots]

end Numbering

/-! ## Declarations -/

/-- The place of a binding among the parameters of an entry point. -/
def placement (binding : Binding) : String :=
  match binding.slot with
  | some slot => binding.argument.qualifier.name ++ "(" ++ toString slot ++ ")"
  | none => binding.argument.qualifier.name

def parameter (binding : Binding) : String :=
  binding.argument.type ++ " " ++ binding.name ++ " [[" ++ binding.placement ++ "]]"

def isUniform (binding : Binding) : Bool :=
  binding.argument.qualifier = .buffer || binding.argument.qualifier = .texture

def uniformLine (binding : Binding) : String :=
  "uniform " ++ binding.argument.type ++ " " ++ binding.name ++ ";"

theorem declaration?_metal
    {arguments : List Argument} {binding : Binding}
    (hbinding : binding ∈ assign arguments) :
    binding.declaration? .metal = some binding.parameter := by
  obtain ⟨before, hslot⟩ := exists_slot_eq_slotAfter hbinding
  have hplacement :
      binding.argument.qualifier.placement (binding.slot.getD 0) = binding.placement := by
    unfold placement
    rw [hslot]
    unfold slotAfter
    cases binding.argument.qualifier <;> rfl
  unfold parameter
  rw [← hplacement]
  rfl

theorem declaration?_gl (binding : Binding) :
    binding.declaration? .gl =
      if binding.isUniform then some binding.uniformLine else none := by
  obtain ⟨⟨type, name, qualifier⟩, slot⟩ := binding
  cases qualifier <;> rfl

end Binding

/-! ## Bindings in the text -/

namespace Program

/-- The text of a program with given uniforms and a given first line of its entry
point. -/
def writtenWith (program : Program) (uniforms : List String) (entry : String) : String :=
  Text.joinWith "\n\n"
    ([header program.dialect program.stage] ++
      optionalSection "\n\n" (program.structs.map StructDecl.declaration) ++
      optionalSection "\n" uniforms ++
      optionalSection "\n\n" (program.functions.map ShaderFunction.definition) ++
      [entry ++ "\n\x7b\n" ++
        Text.indent 1 (Text.joinWith "\n" program.mainLines) ++ "\n\x7d"]) ++ "\n"

def entryOpening : Stage → String
  | .vertex => "vertex CCFragData ShaderVertexFunction(\n    "
  | .fragment => "fragment half4 ShaderFragmentFunction(\n    "

/-- No two bindings share a name or a slot, slots leave no gap, and the text declares
the bindings in their order under the slots they have. -/
structure BindsUnambiguously (program : Program) : Prop where
  distinct : (program.bindings.map Binding.name).Nodup
  catalogFirst :
    Catalog.argumentNames program.dialect program.stage <+:
      program.bindings.map Binding.name
  numbered :
    ∀ qualifier ∈ [Qualifier.buffer, .texture, .sampler],
      (Binding.ofQualifier qualifier program.bindings).map Binding.slot =
        (List.range (Binding.ofQualifier qualifier program.bindings).length).map some
  unnumbered :
    ∀ qualifier ∈ [Qualifier.stageIn, .vertexId],
      ∀ binding ∈ Binding.ofQualifier qualifier program.bindings, binding.slot = none
  uniforms :
    program.dialect = .gl →
      program.source =
        program.writtenWith
          ((program.bindings.filter Binding.isUniform).map Binding.uniformLine)
          "void main()"
  parameters :
    program.dialect = .metal →
      program.source =
        program.writtenWith []
          (entryOpening program.stage ++
            Text.joinWith ",\n    " (program.bindings.map Binding.parameter) ++ ")")

theorem source_of_gl {program : Program} (hdialect : program.dialect = .gl) :
    program.source =
      program.writtenWith
        ((program.bindings.filter Binding.isUniform).map Binding.uniformLine)
        "void main()" := by
  have huniforms :
      program.argumentDeclarations =
        (program.bindings.filter Binding.isUniform).map Binding.uniformLine := by
    unfold argumentDeclarations
    simp only [hdialect, Binding.declaration?_gl]
    rw [← List.filterMap_eq_map, List.filterMap_filter]
    rfl
  unfold source sections writtenWith entry
  rw [huniforms, hdialect]

theorem source_of_metal
    {program : Program} (hdialect : program.dialect = .metal)
    {arguments : List Argument} (hbindings : program.bindings = Binding.assign arguments) :
    program.source =
      program.writtenWith []
        (entryOpening program.stage ++
          Text.joinWith ",\n    " (program.bindings.map Binding.parameter) ++ ")") := by
  have hparameters :
      program.argumentDeclarations = program.bindings.map Binding.parameter := by
    unfold argumentDeclarations
    rw [← List.filterMap_eq_map]
    apply List.filterMap_congr
    intro binding hbinding
    rw [hbindings] at hbinding
    rw [hdialect, Binding.declaration?_metal hbinding]
    rfl
  have hentry :
      program.entry =
        entryOpening program.stage ++
          Text.joinWith ",\n    " (program.bindings.map Binding.parameter) ++ ")" := by
    unfold entry entry.parameters
    rw [hdialect, hparameters]
    cases program.stage with
    | vertex =>
        simp only [entryOpening, ← String.append_assoc]
        rfl
    | fragment =>
        simp only [entryOpening, ← String.append_assoc]
        rfl
  unfold source sections writtenWith
  rw [hentry, hdialect]
  rfl

end Program

/-! ## The bindings of a builder -/

namespace Builder

variable {builder : Builder}

theorem bindsUnambiguously_program (hwell : builder.WellFormed) :
    builder.program.BindsUnambiguously := by
  constructor
  · exact hwell.nodup_map_name_bindings
  · rw [map_name_bindings]
    exact Merge.map_name_prefix_outcome
  · intro qualifier hqualifier
    have hslot : ∀ qualifier ∈ [Qualifier.buffer, .texture, .sampler],
        qualifier.hasSlot = true := by
      decide
    exact Binding.map_slot_ofQualifier_assign (hslot qualifier hqualifier) _
  · intro qualifier hqualifier binding hbinding
    have hslot : ∀ qualifier ∈ [Qualifier.stageIn, .vertexId],
        qualifier.hasSlot = false := by
      decide
    exact Binding.slot_eq_none_of_mem_ofQualifier (hslot qualifier hqualifier) hbinding
  · exact Program.source_of_gl
  · intro hdialect
    exact Program.source_of_metal hdialect rfl

/-! ## Slots that stay -/

/-- Overriding defaults by arguments of their qualifiers moves none of them. -/
theorem places_of_defaults_prefix
    (hqualifiers :
      ∀ argument ∈ builder.part.arguments,
        ∀ default ∈ Catalog.arguments builder.dialect builder.stage,
          argument.name = default.name → argument.qualifier = default.qualifier) :
    (Binding.assign (Catalog.arguments builder.dialect builder.stage)).map Binding.place <+:
      builder.program.bindings.map Binding.place := by
  let defaults := Catalog.arguments builder.dialect builder.stage
  let forced := defaults.map (Merge.inForce Argument.name builder.part.arguments)
  have hqualifier : forced.map Argument.qualifier = defaults.map Argument.qualifier := by
    rw [List.map_map]
    apply List.map_congr_left
    intro default hdefault
    rcases Merge.standsFor_inForce Argument.name builder.part.arguments default with
      ⟨hmem, hname⟩ | ⟨hsame, -⟩
    · exact hqualifiers _ hmem default hdefault hname
    · rw [Function.comp_apply, hsame]
  have hname : forced.map Argument.name = defaults.map Argument.name :=
    Merge.map_name_forced Argument.name defaults builder.part.arguments
  have hplaces :
      (Binding.assign defaults).map Binding.place =
        (Binding.assign forced).map Binding.place :=
    Binding.map_place_assign_congr hname.symm hqualifier.symm
  have hbegins : Binding.assign forced <+: builder.program.bindings :=
    Binding.assign_prefix (List.prefix_append _ _)
  rw [hplaces]
  exact hbegins.map Binding.place

theorem bindings_of_no_arguments (harguments : builder.part.arguments = []) :
    builder.program.bindings =
      Binding.assign (Catalog.arguments builder.dialect builder.stage) := by
  have hnone :=
    (Merge.tracks_initial Argument.name
      (Catalog.arguments builder.dialect builder.stage)).items
  rw [← harguments] at hnone
  exact congrArg Binding.assign hnone.symm

theorem foldl_append
    (builder : Builder) (parts : List Part) :
    (parts.foldl append builder).dialect = builder.dialect ∧
      (parts.foldl append builder).stage = builder.stage ∧
      (parts.foldl append builder).part.arguments =
        builder.part.arguments ++ parts.flatMap Part.arguments := by
  induction parts generalizing builder with
  | nil =>
      simp
  | cons part rest ih =>
      obtain ⟨hdialect, hstage, harguments⟩ := ih (builder.append part)
      refine ⟨hdialect, hstage, ?_⟩
      rw [List.foldl_cons, harguments, List.flatMap_cons, ← List.append_assoc]
      rfl

/-- Parts that override no default are bound behind what is there. -/
theorem bindings_prefix_append
    {parts : List Part}
    (hnew :
      ∀ part ∈ parts, ∀ argument ∈ part.arguments,
        argument.name ∉ Catalog.argumentNames builder.dialect builder.stage) :
    builder.program.bindings <+: (parts.foldl append builder).program.bindings := by
  obtain ⟨hdialect, hstage, harguments⟩ := builder.foldl_append parts
  have hgrown :
      (parts.foldl append builder).program.bindings =
        Binding.assign
          (Merge.outcome Argument.name
            (Catalog.arguments builder.dialect builder.stage)
            (builder.part.arguments ++ parts.flatMap Part.arguments)) := by
    rw [← harguments, ← hdialect, ← hstage]
    rfl
  rw [hgrown]
  apply Binding.assign_prefix
  apply Merge.outcome_prefix_append_of_new
  intro argument hargument
  obtain ⟨part, hpart, hargument⟩ := List.mem_flatMap.mp hargument
  exact hnew part hpart argument hargument

/-- The bindings of a built program are found by their names and told apart by their
slots, and the text says so.  A default is where the pass-through shader has it
unless a default changes its qualifier, and what is appended under new names moves
nothing. -/
theorem build_binds_unambiguously
    {program : Program} (hprogram : builder.build = .ok program) :
    program.dialect = builder.dialect ∧ program.stage = builder.stage ∧
    program.BindsUnambiguously ∧
    ((∀ argument ∈ builder.part.arguments,
        ∀ default ∈ Catalog.arguments builder.dialect builder.stage,
          argument.name = default.name → argument.qualifier = default.qualifier) →
      ∃ passThrough, Shader.passThrough builder.dialect = .ok passThrough ∧
        (passThrough.program builder.stage).bindings.map Binding.place <+:
          program.bindings.map Binding.place) ∧
    (∀ (parts : List Part) (grown : Program),
      (parts.foldl append builder).build = .ok grown →
      (∀ part ∈ parts, ∀ argument ∈ part.arguments,
        argument.name ∉ Catalog.argumentNames builder.dialect builder.stage) →
      program.bindings <+: grown.bindings) := by
  obtain ⟨hwell, rfl⟩ := build_eq_ok_iff.mp hprogram
  refine ⟨rfl, rfl, bindsUnambiguously_program hwell, ?_, ?_⟩
  · intro hqualifiers
    obtain ⟨passThrough, hpassThrough⟩ :=
      EffectStack.exists_passThrough builder.dialect
    refine ⟨passThrough, hpassThrough, ?_⟩
    rw [(Setting.wellFormed_of_compose _ hpassThrough builder.stage).2,
      bindings_of_no_arguments rfl]
    exact places_of_defaults_prefix hqualifiers
  · intro parts grown hgrown hnew
    obtain ⟨-, rfl⟩ := build_eq_ok_iff.mp hgrown
    exact bindings_prefix_append hnew

end Builder

/-- A part that overrides a texture of the catalog and brings an argument of its own. -/
def Part.retextured : Part where
  arguments :=
    [⟨"texture2d<float>", "cc_MainTexture", .texture⟩, ⟨"constant float&", "u_amount", .buffer⟩]

/-- A part with an argument that others may have too. -/
def Part.phased : Part where
  arguments :=
    [⟨"constant float&", "u_amount", .buffer⟩, ⟨"constant float&", "u_phase", .buffer⟩]

def Builder.retextured : Builder := ⟨.metal, .fragment, Part.retextured⟩

theorem retextured_binds_unambiguously :
    ∃ program grown passThrough,
      Builder.retextured.build = .ok program ∧
      program.BindsUnambiguously ∧
      ([Part.phased].foldl Builder.append Builder.retextured).build = .ok grown ∧
      program.bindings <+: grown.bindings ∧
      Shader.passThrough .metal = .ok passThrough ∧
      passThrough.fragment.bindings.map Binding.place <+:
        program.bindings.map Binding.place := by
  have hbuilds :
      (∃ program, Builder.retextured.build = .ok program) ∧
        ∃ grown, ([Part.phased].foldl Builder.append Builder.retextured).build = .ok grown :=
    ⟨⟨_, rfl⟩, _, rfl⟩
  obtain ⟨⟨program, hprogram⟩, grown, hgrown⟩ := hbuilds
  obtain ⟨-, -, hbinds, hdefaults, hbegins⟩ := Builder.build_binds_unambiguously hprogram
  obtain ⟨passThrough, hpassThrough, hplaces⟩ := hdefaults (by decide)
  have hnew := hbegins [Part.phased] grown hgrown (by decide)
  exact ⟨program, grown, passThrough, hprogram, hbinds, hgrown, hnew, hpassThrough, hplaces⟩

end ShaderComposer
