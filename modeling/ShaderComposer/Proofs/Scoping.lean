import ShaderComposer.Proofs.ContributedParts

/-!
# Every line uses what stands above it

The body of a program first declares the temporaries of all passes and then makes
their calls, pass by pass.  What a call names is settled pass by pass as well, by
another route: a name of the pass becomes its mangled name, or the result that
stands in for it.  If the names of each part are distinct and its calls read
outputs of calls above them only, the two routes meet: whatever a line names is
declared by a line above it or bound.
-/

namespace ShaderComposer

/-- Every output of the part that a call of it reads is that of a call above. -/
def Part.ReadsBackwards (part : Part) : Prop :=
  ∀ index < part.calls.length, ∀ call ∈ part.calls[index]?,
    ∀ formal ∈ call.function.inputs, ∀ name ∈ call.inputs.get? formal.name,
      name ∈ part.calls.map Call.output →
        name ∈ (part.calls.take index).map Call.output

instance (part : Part) : Decidable part.ReadsBackwards :=
  inferInstanceAs (Decidable (∀ index < part.calls.length, _))

/-- The names that may be used below the given lines of a program. -/
def Program.inScope (program : Program) (above : List Statement) : List String :=
  above.map Statement.target ++ program.bindings.map Binding.name

/-- A program makes a call of `part`, whose names are behind `stem`, on a line of
its own, and each name of the part that the call is given stands there for
something in scope which neither this line nor one below declares. -/
def Program.CallsInScope (program : Program) (stem : String) (part : Part)
    (call : Call) : Prop :=
  ∃ above invocation below,
    program.body = above ++ Statement.invoke invocation :: below ∧
    invocation.output = stem ++ call.output ∧
    invocation.function = stem ++ call.function.name ∧
    ∀ (place : Nat) (formal : Formal) (name : String),
      call.function.inputs[place]? = some formal →
        call.inputs.get? formal.name = some name → name ∈ part.localNames →
          ∃ expression ∈ program.inScope above,
            invocation.arguments[place]? = some expression ∧
            expression ∉ (Statement.invoke invocation :: below).map Statement.target

/-! ## Local names -/

section LocalNames

variable {part : Part}

theorem not_argument_of_output
    (hdistinct : part.localNames.Nodup) {name : String}
    (houtput : name ∈ part.calls.map Call.output) :
    name ∉ part.arguments.map Argument.name := by
  intro hargument
  unfold Part.localNames at hdistinct
  have hdisjoint := (List.nodup_append.mp hdistinct).2.2
  exact hdisjoint name (List.mem_append_right _ hargument) name houtput rfl

theorem resolve_output
    (mangling : Mangling) {name : String}
    (houtput : name ∈ part.calls.map Call.output) :
    mangling.resolve part name = mangling.mangle name := by
  unfold Mangling.resolve
  rw [if_pos (List.contains_iff_mem.mpr houtput)]

theorem resolve_argument
    (hdistinct : part.localNames.Nodup) (mangling : Mangling)
    {argument : Argument} (hmem : argument ∈ part.arguments) :
    mangling.resolve part argument.name = (mangling.argument argument).name := by
  have hargument : argument.name ∈ part.arguments.map Argument.name :=
    List.mem_map_of_mem hmem
  have houtput : argument.name ∉ part.calls.map Call.output := fun houtput =>
    not_argument_of_output hdistinct houtput hargument
  unfold Mangling.resolve Mangling.argument
  rw [if_neg (fun h => houtput (List.contains_iff_mem.mp h)),
    List.contains_iff_mem.mpr hargument, Bool.true_and]
  cases hkeeps : mangling.keeps argument.name with
  | false =>
      rfl
  | true =>
      have hnone :
          part.temporaries.reverse.find?
            (fun temporary => temporary.name = argument.name) = none := by
        rw [List.find?_eq_none]
        intro temporary htemporary hname
        have hsame : temporary.name = argument.name := of_decide_eq_true hname
        have hnot :=
          Setting.not_argument_of_temporary hdistinct (List.mem_reverse.mp htemporary)
        rw [hsame] at hnot
        exact hnot hargument
      rw [hnone]
      rfl

end LocalNames

namespace Setting

variable (setting : Setting) {stage : Stage} {passes : List Pass}

/-! ## Variables and bindings -/

/-- A name is that of a temporary for which the result of an earlier pass stands
in. -/
def Suppressed (stage : Stage) (passes : List Pass) (name : String) : Prop :=
  ∃ position pass part,
    passes[position]? = some pass ∧ pass.part? stage = some part ∧
    (∃ result, setting.ResultBefore stage passes position result) ∧
    ∃ temporary ∈ part.temporaries,
      temporary.initializer = Initializer.chainInput stage ∧
      name = setting.stemAt position ++ temporary.name

theorem temporary_not_bound
    {site : Site} (hsite : site ∈ sites stage passes)
    (hdistinct : site.part.localNames.Nodup)
    {temporary : Temporary} (hmem : temporary ∈ site.part.temporaries) :
    setting.stemAt site.position ++ temporary.name ∉
      (setting.builder stage passes).program.bindings.map Binding.name := by
  intro hbound
  exact
    not_argument_of_temporary hdistinct hmem
      (setting.argument_of_stemAt_mem_bindings hsite hbound)

theorem target_not_bound
    (hdistinct : ∀ site ∈ sites stage passes, site.part.localNames.Nodup)
    {statement : Statement}
    (hstatement : statement ∈ (setting.builder stage passes).program.body) :
    statement.target ∉
      (setting.builder stage passes).program.bindings.map Binding.name := by
  have hvariable :
      statement.target ∈ (setting.builder stage passes).part.variables := by
    rw [← Builder.map_target_body]
    exact List.mem_map_of_mem hstatement
  rw [(setting.variables_builder stage passes).mem_iff] at hvariable
  obtain ⟨site, hsite, hlocal⟩ := List.mem_flatMap.mp hvariable
  obtain ⟨name, hname, htarget⟩ := List.mem_map.mp hlocal
  rw [← htarget, mangle_manglingAt]
  rcases List.mem_append.mp hname with hdeclared | houtput
  · obtain ⟨temporary, hkept, rfl⟩ := List.mem_map.mp hdeclared
    exact
      setting.temporary_not_bound hsite (hdistinct site hsite)
        (List.mem_filter.mp hkept).1
  · intro hbound
    exact
      not_argument_of_output (hdistinct site hsite) houtput
        (setting.argument_of_stemAt_mem_bindings hsite hbound)

theorem suppressed_not_inScope
    (hdistinct : ∀ site ∈ sites stage passes, site.part.localNames.Nodup)
    {name : String} (hsuppressed : setting.Suppressed stage passes name) :
    name ∉
      (setting.builder stage passes).program.inScope
        (setting.builder stage passes).program.body := by
  obtain ⟨position, pass, part, hpass, hpart, ⟨result, hresult⟩, temporary, hmem,
    hchain, rfl⟩ := hsuppressed
  have hsite := mem_sites_of_getElem? hpass hpart
  have hsuppresses :
      (⟨position, part, latest stage passes position⟩ : Site).suppresses stage
        temporary = true := by
    rw [resultBefore_iff] at hresult
    obtain ⟨source, hsource, -⟩ := Option.map_eq_some_iff.mp hresult
    simp [Site.suppresses, hchain, hsource]
  have hbound := setting.temporary_not_bound hsite (hdistinct _ hsite) hmem
  intro hscope
  rcases List.mem_append.mp hscope with hdeclared | hbinding
  · obtain ⟨statement, hstatement, hsame⟩ := List.mem_map.mp hdeclared
    have hdifferent :=
      setting.target_ne_of_suppressed hsite (hdistinct _ hsite) hmem hsuppresses
        hstatement
    exact hdifferent hsame
  · exact hbound hbinding

/-! ## The line of a call -/

def line (stage : Stage) (site : Site) (call : Call) : Statement :=
  .invoke ((setting.manglingAt stage site).call site.part call).filled

theorem body_builder (stage : Stage) (passes : List Pass) :
    (setting.builder stage passes).program.body =
      (setting.builder stage passes).part.temporaries.map Statement.declare ++
        (sites stage passes).flatMap fun site =>
          site.part.calls.map (setting.line stage site) := by
  have hinvocations :
      (setting.builder stage passes).program.invocations.map Statement.invoke =
        ((setting.builder stage passes).part.calls.map Call.filled).map
          Statement.invoke := rfl
  unfold Program.body
  rw [hinvocations, calls_builder, List.map_flatMap, List.map_flatMap]
  simp only [List.map_map]
  rfl

theorem output_mem_map_line
    (stage : Stage) (site : Site) {calls : List Call} {call : Call} (hcall : call ∈ calls) :
    setting.stemAt site.position ++ call.output ∈
      (calls.map (setting.line stage site)).map Statement.target := by
  rw [List.map_map]
  exact List.mem_map.mpr ⟨call, hcall, rfl⟩

theorem mem_before_of_position_lt
    {before after : List Site} {site : Site}
    (hsplit : sites stage passes = before ++ site :: after)
    {other : Site} (hother : other ∈ sites stage passes)
    (hlt : other.position < site.position) : other ∈ before := by
  have hordered := pairwise_sites stage passes
  rw [hsplit] at hother hordered
  have hrest := List.pairwise_cons.mp (List.pairwise_append.mp hordered).2.1
  rcases List.mem_append.mp hother with hbefore | hfrom
  · exact hbefore
  · rcases List.mem_cons.mp hfrom with rfl | hafter
    · omega
    · have hgt := hrest.1 other hafter
      omega

/-- What is declared above a call of a site: the temporaries of all sites, the
outputs of the sites before, and those of the calls before it. -/
structure Precedes (stage : Stage) (passes : List Pass) (site : Site) (index : Nat)
    (above : List Statement) : Prop where
  temporaries :
    ∀ temporary ∈ (setting.builder stage passes).part.temporaries,
      temporary.name ∈ above.map Statement.target
  earlier :
    ∀ other ∈ sites stage passes, other.position < site.position →
      ∀ call ∈ other.part.calls,
        setting.stemAt other.position ++ call.output ∈ above.map Statement.target
  calls :
    ∀ call ∈ site.part.calls.take index,
      setting.stemAt site.position ++ call.output ∈ above.map Statement.target

theorem precedes_of_split
    {before after : List Site} {site : Site}
    (hsplit : sites stage passes = before ++ site :: after) (index : Nat) :
    setting.Precedes stage passes site index
      ((setting.builder stage passes).part.temporaries.map Statement.declare ++
        (before.flatMap fun other => other.part.calls.map (setting.line stage other)) ++
        (site.part.calls.take index).map (setting.line stage site)) := by
  constructor
  · intro temporary htemporary
    have hdeclared :
        temporary.name ∈
          ((setting.builder stage passes).part.temporaries.map
            Statement.declare).map Statement.target := by
      rw [List.map_map]
      exact List.mem_map_of_mem htemporary
    simp only [List.map_append, List.mem_append]
    exact .inl (.inl hdeclared)
  · intro other hother hlt call hcall
    have hbefore := mem_before_of_position_lt hsplit hother hlt
    have houtput := setting.output_mem_map_line stage other hcall
    simp only [List.map_append, List.map_flatMap, List.mem_append, List.mem_flatMap]
    exact .inl (.inr ⟨other, hbefore, houtput⟩)
  · intro call hcall
    have houtput := setting.output_mem_map_line stage site hcall
    simp only [List.map_append, List.mem_append]
    exact .inr houtput

theorem body_eq_append
    {site : Site} (hsite : site ∈ sites stage passes)
    {index : Nat} {call : Call} (hcall : site.part.calls[index]? = some call) :
    ∃ above below,
      (setting.builder stage passes).program.body =
        above ++ setting.line stage site call :: below ∧
      setting.Precedes stage passes site index above := by
  obtain ⟨before, after, hsplit⟩ := List.append_of_mem hsite
  have hcalls :
      site.part.calls = site.part.calls.take index ++
        call :: site.part.calls.drop (index + 1) := by
    obtain ⟨hlt, rfl⟩ := List.getElem?_eq_some_iff.mp hcall
    rw [← List.drop_eq_getElem_cons, List.take_append_drop]
  have hlines := congrArg (List.map (setting.line stage site)) hcalls
  rw [List.map_append, List.map_cons] at hlines
  refine
    ⟨_, (site.part.calls.drop (index + 1)).map (setting.line stage site) ++
        after.flatMap fun other => other.part.calls.map (setting.line stage other),
      ?_, setting.precedes_of_split hsplit index⟩
  rw [body_builder, hsplit, List.flatMap_append, List.flatMap_cons, hlines]
  simp only [List.append_assoc, List.cons_append]

/-! ## What a local name stands for is in scope -/

theorem standIn_mem_above
    {site : Site} (hsite : site ∈ sites stage passes) {index : Nat}
    {above : List Statement}
    (hprecedes : setting.Precedes stage passes site index above)
    {source : Nat × String} (hsource : site.source = some source) :
    setting.sourceName source ∈ above.map Statement.target := by
  obtain ⟨pass, -, -, hlatest⟩ := mem_sites.mp hsite
  rw [hsource] at hlatest
  obtain ⟨hlt, houtput, -⟩ := latest_eq_some_iff.mp hlatest.symm
  obtain ⟨earlier, hearlier, hcomputes⟩ := Option.bind_eq_some_iff.mp houtput
  obtain ⟨part, hpart, hlast⟩ := Option.bind_eq_some_iff.mp hcomputes
  obtain ⟨call, hcall, hname⟩ := Option.map_eq_some_iff.mp hlast
  have howner := mem_sites_of_getElem? hearlier hpart
  have habove :=
    hprecedes.earlier _ howner hlt call (List.mem_of_getLast? hcall)
  rw [hname] at habove
  exact habove

theorem resolve_temporary_mem_above
    {site : Site} (hsite : site ∈ sites stage passes)
    (hdistinct : site.part.localNames.Nodup) {index : Nat}
    {above : List Statement}
    (hprecedes : setting.Precedes stage passes site index above)
    {temporary : Temporary} (hmem : temporary ∈ site.part.temporaries) :
    (setting.manglingAt stage site).resolve site.part temporary.name ∈
      above.map Statement.target := by
  rw [resolve_temporary hdistinct _ hmem]
  cases hkept : site.suppresses stage temporary with
  | true =>
      obtain ⟨hchain, hsome⟩ :
          temporary.initializer = Initializer.chainInput stage ∧
            site.source.isSome = true := by
        simpa [Site.suppresses] using hkept
      obtain ⟨source, hsource⟩ := Option.isSome_iff_exists.mp hsome
      rw [standIn?_manglingAt, if_pos hchain, hsource]
      exact setting.standIn_mem_above hsite hprecedes hsource
  | false =>
      have hnone : (setting.manglingAt stage site).standIn? temporary = none := by
        rw [standIn?_manglingAt]
        split
        · next hchain =>
          have hsource : site.source = none := by
            simpa [Site.suppresses, hchain] using hkept
          rw [hsource]
          rfl
        · rfl
      rw [hnone]
      exact
        hprecedes.temporaries _ (setting.temporaries_mem_builder hsite hmem hkept)

theorem resolve_mem_inScope
    {site : Site} (hsite : site ∈ sites stage passes)
    (hdistinct : site.part.localNames.Nodup) {index : Nat}
    {above : List Statement}
    (hprecedes : setting.Precedes stage passes site index above)
    {name : String} (hname : name ∈ site.part.localNames)
    (hbackwards :
      name ∈ site.part.calls.map Call.output →
        name ∈ (site.part.calls.take index).map Call.output) :
    (setting.manglingAt stage site).resolve site.part name ∈
      (setting.builder stage passes).program.inScope above := by
  rcases List.mem_append.mp hname with hdeclared | houtput
  · rcases List.mem_append.mp hdeclared with htemporary | hargument
    · obtain ⟨temporary, hmem, rfl⟩ := List.mem_map.mp htemporary
      exact
        List.mem_append_left _
          (setting.resolve_temporary_mem_above hsite hdistinct hprecedes hmem)
    · obtain ⟨argument, hmem, rfl⟩ := List.mem_map.mp hargument
      rw [resolve_argument hdistinct _ hmem,
        setting.argument_manglingAt stage passes]
      refine List.mem_append_right _ (setting.mem_map_name_bindings.mpr (.inr ?_))
      exact ⟨site, hsite, argument, hmem, rfl⟩
  · rw [resolve_output _ houtput]
    obtain ⟨call, hcall, rfl⟩ := List.mem_map.mp (hbackwards houtput)
    exact List.mem_append_left _ (hprecedes.calls call hcall)

/-! ## The body of a composed program -/

/-- What is in scope above a line is not declared on it or below. -/
theorem inScope_not_declared_below
    (hwell : (setting.builder stage passes).WellFormed)
    (hdistinct : ∀ site ∈ sites stage passes, site.part.localNames.Nodup)
    {above below : List Statement}
    (hbody : (setting.builder stage passes).program.body = above ++ below)
    {expression : String}
    (hscope :
      expression ∈ (setting.builder stage passes).program.inScope above) :
    expression ∉ below.map Statement.target := by
  have htargets : ((above ++ below).map Statement.target).Nodup := by
    rw [← hbody, Builder.map_target_body]
    exact hwell.distinct
  rw [List.map_append] at htargets
  intro hbelow
  rcases List.mem_append.mp hscope with habove | hbound
  · exact (List.nodup_append.mp htargets).2.2 _ habove _ hbelow rfl
  · obtain ⟨statement, hstatement, rfl⟩ := List.mem_map.mp hbelow
    have hmem : statement ∈ (setting.builder stage passes).program.body := by
      rw [hbody]
      exact List.mem_append_right _ hstatement
    exact setting.target_not_bound hdistinct hmem hbound

theorem callsInScope_program
    (hwell : (setting.builder stage passes).WellFormed)
    (hdistinct : ∀ site ∈ sites stage passes, site.part.localNames.Nodup)
    {site : Site} (hsite : site ∈ sites stage passes)
    (hbackwards : site.part.ReadsBackwards)
    {call : Call} (hcall : call ∈ site.part.calls) :
    (setting.builder stage passes).program.CallsInScope
      (setting.stemAt site.position) site.part call := by
  obtain ⟨index, hindex⟩ := List.mem_iff_getElem?.mp hcall
  obtain ⟨above, below, hbody, hprecedes⟩ := setting.body_eq_append hsite hindex
  refine ⟨above, _, below, hbody, rfl, rfl, ?_⟩
  intro place formal name hformal hactual hlocal
  have hread :
      name ∈ site.part.calls.map Call.output →
        name ∈ (site.part.calls.take index).map Call.output :=
    hbackwards index (List.getElem?_eq_some_iff.mp hindex).1 call hindex formal
      (List.mem_of_getElem? hformal) name hactual
  have hscope :=
    setting.resolve_mem_inScope hsite (hdistinct site hsite) hprecedes hlocal hread
  exact
    ⟨_, hscope, arguments_filled_call _ _ _ hformal hactual,
      setting.inScope_not_declared_below hwell hdistinct hbody hscope⟩

/-- If the names of every part are distinct and its calls read backwards, then no
two lines of a composed program declare one variable, every call of a pass is made
where all that it names is in scope, and a temporary for which a result stands in
is in scope nowhere. -/
theorem compose_well_scoped
    {shader : Shader} (hshader : setting.compose passes = .ok shader)
    (hparts : ∀ pass ∈ passes, ∀ stage part, pass.part? stage = some part →
      part.localNames.Nodup ∧ part.ReadsBackwards)
    (stage : Stage) :
    ((shader.program stage).body.map Statement.target).Nodup ∧
    (∀ position pass part,
      passes[position]? = some pass → pass.part? stage = some part →
      ∀ call ∈ part.calls,
        (shader.program stage).CallsInScope (setting.stemAt position) part call) ∧
    ∀ name, setting.Suppressed stage passes name →
      name ∉ (shader.program stage).inScope (shader.program stage).body := by
  obtain ⟨hwell, hprogram⟩ := setting.wellFormed_of_compose hshader stage
  have hsites (site : Site) (hsite : site ∈ sites stage passes) :
      site.part.localNames.Nodup ∧ site.part.ReadsBackwards := by
    obtain ⟨pass, hpass, hpart, -⟩ := mem_sites.mp hsite
    exact hparts pass (List.mem_of_getElem? hpass) stage site.part hpart
  have hdistinct (site : Site) (hsite : site ∈ sites stage passes) :
      site.part.localNames.Nodup :=
    (hsites site hsite).1
  rw [hprogram]
  refine ⟨?_, ?_, ?_⟩
  · rw [Builder.map_target_body]
    exact hwell.distinct
  · intro position pass part hpass hpart call hcall
    have hsite := mem_sites_of_getElem? hpass hpart
    have hscoped :=
      setting.callsInScope_program hwell hdistinct hsite (hsites _ hsite).2 hcall
    exact hscoped
  · intro name hsuppressed
    exact setting.suppressed_not_inScope hdistinct hsuppressed

end Setting

/-- Two calls, the second of which takes an output, a temporary and an argument. -/
def Part.glow : Part where
  functions :=
    [⟨"dim", "return 0.5 * c;", [⟨"vec4", "c"⟩], "vec4"⟩,
      ⟨"blend", "return mix(a, b, k);",
        [⟨"vec4", "a"⟩, ⟨"vec4", "b"⟩, ⟨"float", "k"⟩], "vec4"⟩]
  calls :=
    [⟨⟨"dim", "return 0.5 * c;", [⟨"vec4", "c"⟩], "vec4"⟩, "dimmed",
        .ofPairs [("c", "color")]⟩,
      ⟨⟨"blend", "return mix(a, b, k);",
          [⟨"vec4", "a"⟩, ⟨"vec4", "b"⟩, ⟨"float", "k"⟩], "vec4"⟩, "glowing",
        .ofPairs [("a", "dimmed"), ("b", "color"), ("k", "u_glow")]⟩]
  temporaries := [⟨"vec4", "color", .previousPass⟩]
  arguments := [⟨"float", "u_glow", .buffer⟩]

def Pass.glowingTwice : List Pass :=
  [{ fragment := some .glow }, { fragment := some .glow }]

theorem glowingTwice_well_scoped :
    Setting.compose ⟨.gl, "cc_", 0, 0⟩ Pass.glowingTwice =
      .ok (Setting.shader ⟨.gl, "cc_", 0, 0⟩ Pass.glowingTwice) ∧
    (∀ pass ∈ Pass.glowingTwice, ∀ stage part, pass.part? stage = some part →
      part.localNames.Nodup ∧ part.ReadsBackwards) ∧
    (∀ call ∈ Part.glow.calls,
      (Setting.shader ⟨.gl, "cc_", 0, 0⟩ Pass.glowingTwice).fragment.CallsInScope
        "cc_1_" Part.glow call) ∧
    "cc_1_color" ∉
      (Setting.shader ⟨.gl, "cc_", 0, 0⟩ Pass.glowingTwice).fragment.inScope
        (Setting.shader ⟨.gl, "cc_", 0, 0⟩ Pass.glowingTwice).fragment.body := by
  have hcomposes : Setting.Composes ⟨.gl, "cc_", 0, 0⟩ Pass.glowingTwice := by
    decide +kernel
  have hshader := Setting.Composes.compose_eq _ hcomposes
  have hparts :
      ∀ pass ∈ Pass.glowingTwice, ∀ stage part, pass.part? stage = some part →
        part.localNames.Nodup ∧ part.ReadsBackwards := by
    intro pass hpass stage part hpart
    have hglow : part = Part.glow := by
      cases stage with
      | vertex =>
          simp [Pass.glowingTwice] at hpass
          simp [hpass, Pass.part?] at hpart
      | fragment =>
          simp [Pass.glowingTwice] at hpass
          simp [hpass, Pass.part?] at hpart
          exact hpart.symm
    rw [hglow]
    decide +kernel
  have hsuppressed :
      Setting.Suppressed ⟨.gl, "cc_", 0, 0⟩ .fragment Pass.glowingTwice
        "cc_1_color" := by
    refine
      ⟨1, _, Part.glow, rfl, rfl, ⟨"cc_0_glowing", 0, "glowing", by decide, rfl, ?_, rfl⟩,
        ⟨"vec4", "color", .previousPass⟩, by decide, rfl, rfl⟩
    intro between hafter hbefore
    omega
  obtain ⟨-, hcalls, hnowhere⟩ :=
    Setting.compose_well_scoped ⟨.gl, "cc_", 0, 0⟩ hshader hparts .fragment
  exact ⟨hshader, hparts, hcalls 1 _ Part.glow rfl rfl, hnowhere _ hsuppressed⟩

end ShaderComposer
