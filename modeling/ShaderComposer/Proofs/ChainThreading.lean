import ShaderComposer.Effect.Color
import ShaderComposer.Proofs.ComposedStage

/-!
# How a chain is threaded

The closest result before a pass stands in for the temporaries through which the
pass reads the input of a stage: they are not declared, and what names them names
the result.  Without such a result they are declared under their mangled names.
The last result of all is what the stage writes back.
-/

namespace ShaderComposer

def Part.localNames (part : Part) : List String :=
  part.temporaries.map Temporary.name ++ part.arguments.map Argument.name ++
    part.calls.map Call.output

/-- In a program every call of `part`, its names behind `stem`, is one line of
the body, and an actual input `name` stands there as `expression`. -/
def Program.Renders (program : Program) (stem : String) (part : Part)
    (name expression : String) : Prop :=
  ∀ call ∈ part.calls, ∃ invocation,
    Statement.invoke invocation ∈ program.body ∧
    invocation.output = stem ++ call.output ∧
    invocation.function = stem ++ call.function.name ∧
    (∀ statement ∈ program.body, statement.target = stem ++ call.output →
      statement = .invoke invocation) ∧
    ∀ (index : Nat) (formal : Formal),
      call.function.inputs[index]? = some formal →
        call.inputs.get? formal.name = some name →
          invocation.arguments[index]? = some expression

namespace Setting

variable (setting : Setting) {stage : Stage} {passes : List Pass}

/-- What the closest pass before `position` that calls something in the stage has
computed last, under its mangled name. -/
def ResultBefore (stage : Stage) (passes : List Pass) (position : Nat)
    (result : String) : Prop :=
  ∃ earlier output, earlier < position ∧
    outputAt stage passes earlier = some output ∧
    (∀ between, earlier < between → between < position →
      outputAt stage passes between = none) ∧
    result = setting.stemAt earlier ++ output

theorem resultBefore_iff {position : Nat} {result : String} :
    setting.ResultBefore stage passes position result ↔
      (latest stage passes position).map setting.sourceName = some result := by
  rw [Option.map_eq_some_iff]
  constructor
  · rintro ⟨earlier, output, hlt, houtput, hbetween, rfl⟩
    exact ⟨(earlier, output),
      latest_eq_some_iff.mpr ⟨hlt, houtput, hbetween⟩, rfl⟩
  · rintro ⟨⟨earlier, output⟩, hlatest, rfl⟩
    obtain ⟨hlt, houtput, hbetween⟩ := latest_eq_some_iff.mp hlatest
    exact ⟨earlier, output, hlt, houtput, hbetween, rfl⟩

theorem not_resultBefore_iff {position : Nat} :
    (¬ ∃ result, setting.ResultBefore stage passes position result) ↔
      latest stage passes position = none := by
  simp only [resultBefore_iff]
  cases latest stage passes position with
  | none =>
      simp
  | some source =>
      simp

/-! ## What a temporary's name stands for -/

theorem temporary_eq_of_name
    {part : Part} (hdistinct : part.localNames.Nodup)
    {first second : Temporary}
    (hfirst : first ∈ part.temporaries) (hsecond : second ∈ part.temporaries)
    (hname : first.name = second.name) : first = second := by
  have htemporaries : (part.temporaries.map Temporary.name).Nodup := by
    unfold Part.localNames at hdistinct
    exact (List.nodup_append.mp (List.nodup_append.mp hdistinct).1).1
  exact List.inj_on_of_nodup_map htemporaries hfirst hsecond hname

theorem not_argument_of_temporary
    {part : Part} (hdistinct : part.localNames.Nodup)
    {temporary : Temporary} (hmem : temporary ∈ part.temporaries) :
    temporary.name ∉ part.arguments.map Argument.name := by
  intro hargument
  unfold Part.localNames at hdistinct
  have hdisjoint := (List.nodup_append.mp (List.nodup_append.mp hdistinct).1).2.2
  exact hdisjoint _ (List.mem_map_of_mem hmem) _ hargument rfl

theorem not_output_of_temporary
    {part : Part} (hdistinct : part.localNames.Nodup)
    {temporary : Temporary} (hmem : temporary ∈ part.temporaries) :
    temporary.name ∉ part.calls.map Call.output := by
  intro houtput
  unfold Part.localNames at hdistinct
  have hdisjoint := (List.nodup_append.mp hdistinct).2.2
  exact hdisjoint _ (List.mem_append_left _ (List.mem_map_of_mem hmem)) _ houtput rfl

theorem resolve_temporary
    {part : Part} (hdistinct : part.localNames.Nodup) (mangling : Mangling)
    {temporary : Temporary} (hmem : temporary ∈ part.temporaries) :
    mangling.resolve part temporary.name =
      (mangling.standIn? temporary).getD (mangling.mangle temporary.name) := by
  have hargument := not_argument_of_temporary hdistinct hmem
  have houtput := not_output_of_temporary hdistinct hmem
  have hfind :
      part.temporaries.reverse.find? (fun other => other.name = temporary.name) =
        some temporary := by
    cases hother : part.temporaries.reverse.find? fun other =>
        other.name = temporary.name with
    | none =>
        have hnone :=
          List.find?_eq_none.mp hother temporary (List.mem_reverse.mpr hmem)
        simp at hnone
    | some other =>
        have hname : other.name = temporary.name := by
          simpa using List.find?_some hother
        have hothermem : other ∈ part.temporaries :=
          List.mem_reverse.mp (List.mem_of_find?_eq_some hother)
        rw [temporary_eq_of_name hdistinct hothermem hmem hname]
  unfold Mangling.resolve
  rw [if_neg (fun h => houtput (List.contains_iff_mem.mp h))]
  have hcondition :
      ((part.arguments.map Argument.name).contains temporary.name &&
        !mangling.keeps temporary.name) = false := by
    rw [Bool.and_eq_false_iff]
    left
    simpa using hargument
  rw [hcondition, hfind]
  rfl

/-! ## Lines of the body -/

theorem calls_mem_builder
    {site : Site} (hsite : site ∈ sites stage passes)
    {call : Call} (hcall : call ∈ site.part.calls) :
    (setting.manglingAt stage site).call site.part call ∈
      (setting.builder stage passes).part.calls := by
  rw [calls_builder]
  exact List.mem_flatMap.mpr ⟨site, hsite, List.mem_map_of_mem hcall⟩

theorem arguments_filled_call
    (mangling : Mangling) (part : Part) (call : Call)
    {index : Nat} {formal : Formal} {name : String}
    (hformal : call.function.inputs[index]? = some formal)
    (hactual : call.inputs.get? formal.name = some name) :
    (mangling.call part call).filled.arguments[index]? =
      some (mangling.resolve part name) := by
  simp [Call.filled, Call.arguments, Mangling.call, Mangling.function,
    hformal, hactual]

theorem renders_program
    (hwell : (setting.builder stage passes).WellFormed)
    {site : Site} (hsite : site ∈ sites stage passes) {name expression : String}
    (hresolve :
      (setting.manglingAt stage site).resolve site.part name = expression) :
    (setting.builder stage passes).program.Renders
      (setting.stemAt site.position) site.part name expression := by
  intro call hcall
  have hline :=
    Builder.invoke_mem_body (setting.calls_mem_builder hsite hcall)
  refine ⟨((setting.manglingAt stage site).call site.part call).filled,
    hline, rfl, rfl, ?_, ?_⟩
  · intro statement hstatement htarget
    exact hwell.eq_of_target_eq hstatement hline htarget
  · intro index formal hformal hactual
    rw [arguments_filled_call _ _ _ hformal hactual, hresolve]

theorem target_ne_of_suppressed
    {site : Site} (hsite : site ∈ sites stage passes)
    (hdistinct : site.part.localNames.Nodup)
    {temporary : Temporary} (hmem : temporary ∈ site.part.temporaries)
    (hsuppressed : site.suppresses stage temporary = true)
    {statement : Statement}
    (hstatement : statement ∈ (setting.builder stage passes).program.body) :
    statement.target ≠ setting.stemAt site.position ++ temporary.name := by
  intro htarget
  have hvariable :
      statement.target ∈ (setting.builder stage passes).part.variables := by
    rw [← Builder.map_target_body]
    exact List.mem_map_of_mem hstatement
  rw [(setting.variables_builder stage passes).mem_iff] at hvariable
  obtain ⟨owner, howner, hlocal⟩ := List.mem_flatMap.mp hvariable
  obtain ⟨name, hname, hmangled⟩ := List.mem_map.mp hlocal
  rw [htarget] at hmangled
  obtain ⟨rfl, rfl⟩ := setting.mangle_inj howner hsite hmangled
  rcases List.mem_append.mp hname with hdeclared | houtput
  · obtain ⟨other, hother, hsame⟩ := List.mem_map.mp hdeclared
    obtain ⟨hothermem, hkept⟩ := List.mem_filter.mp hother
    obtain rfl := temporary_eq_of_name hdistinct hothermem hmem hsame
    rw [hsuppressed] at hkept
    contradiction
  · exact not_output_of_temporary hdistinct hmem houtput

/-! ## The chain of a composed shader -/

theorem holdsStemMark_untouched (dialect : Dialect) (stage : Stage) :
    holdsStemMark (Program.untouched dialect stage).toList = false := by
  cases dialect <;> cases stage <;> decide

/-- No result reads like the expression that is written back without any. -/
theorem ne_untouched_of_resultBefore
    {position : Nat} {result : String}
    (hresult : setting.ResultBefore stage passes position result) :
    result ≠ Program.untouched setting.dialect stage := by
  obtain ⟨earlier, output, -, -, -, rfl⟩ := hresult
  intro heq
  have hmark := holdsStemMark_untouched setting.dialect stage
  rw [← heq] at hmark
  have hmangled :=
    holdsStemMark_mangled setting.stem (setting.startIndex + earlier) output
  exact absurd (hmangled.symm.trans hmark) (by decide)

/-- In a stage of a composed shader, a pass behind a result reads that result
through its chain inputs, which no line declares; a pass with no result before it
declares them.  The body ends with the last result of all, or without any with
the dialect's own expression. -/
theorem compose_threads_chain
    {shader : Shader} (hshader : setting.compose passes = .ok shader)
    (stage : Stage) :
    (∀ position pass part,
      passes[position]? = some pass → pass.part? stage = some part →
      part.localNames.Nodup →
      ∀ temporary ∈ part.temporaries,
        temporary.initializer = Initializer.chainInput stage →
      (∀ result, setting.ResultBefore stage passes position result →
        (∀ statement ∈ (shader.program stage).body,
          statement.target ≠ setting.stemAt position ++ temporary.name) ∧
        (shader.program stage).Renders (setting.stemAt position) part
          temporary.name result) ∧
      ((¬ ∃ result, setting.ResultBefore stage passes position result) →
        Statement.declare
            { type := temporary.type
              name := setting.stemAt position ++ temporary.name
              initializer :=
                if stage = .fragment then temporary.initializer.promote
                else temporary.initializer } ∈
          (shader.program stage).body ∧
        (shader.program stage).Renders (setting.stemAt position) part
          temporary.name (setting.stemAt position ++ temporary.name))) ∧
    (∀ result, setting.ResultBefore stage passes passes.length result →
      result ≠ Program.untouched setting.dialect stage ∧
      (shader.program stage).mainLines =
        (shader.program stage).body.map (Statement.text setting.dialect) ++
          Program.writeBack setting.dialect stage result) ∧
    ((¬ ∃ result, setting.ResultBefore stage passes passes.length result) →
      (shader.program stage).mainLines =
        (shader.program stage).body.map (Statement.text setting.dialect) ++
          Program.writeBack setting.dialect stage
            (Program.untouched setting.dialect stage)) := by
  obtain ⟨hwell, hprogram⟩ := setting.wellFormed_of_compose hshader stage
  rw [hprogram]
  refine ⟨?_, ?_, ?_⟩
  · intro position pass part hpass hpart hdistinct temporary hmem hchain
    have hsite :
        (⟨position, part, latest stage passes position⟩ : Site) ∈
          sites stage passes :=
      mem_sites.mpr ⟨pass, hpass, hpart, rfl⟩
    have hresolve :=
      resolve_temporary hdistinct
        (setting.manglingAt stage ⟨position, part, latest stage passes position⟩)
        hmem
    rw [standIn?_manglingAt, if_pos hchain] at hresolve
    constructor
    · intro result hresult
      rw [resultBefore_iff] at hresult
      constructor
      · intro statement hstatement
        refine setting.target_ne_of_suppressed hsite hdistinct hmem ?_ hstatement
        obtain ⟨source, hsource, -⟩ := Option.map_eq_some_iff.mp hresult
        simp [Site.suppresses, hchain, hsource]
      · apply setting.renders_program hwell hsite
        rw [hresolve, hresult]
        rfl
    · intro hnone
      rw [not_resultBefore_iff] at hnone
      constructor
      · apply Builder.declare_mem_body
        rw [temporaries_builder]
        refine List.mem_flatMap.mpr ⟨_, hsite, List.mem_map.mpr ⟨temporary, ?_, ?_⟩⟩
        · simp [Site.declared, Site.suppresses, hmem, hnone]
        · have hreads :
              (setting.manglingAt stage
                ⟨position, part, latest stage passes position⟩).readsChain
                  temporary.initializer = true :=
            decide_eq_true hchain
          simp only [Mangling.declare, Mangling.source, hreads, Bool.true_or,
            Bool.and_true, decide_eq_true_eq]
          rfl
      · apply setting.renders_program hwell hsite
        rw [hresolve, hnone]
        rfl
  · intro result hresult
    refine ⟨setting.ne_untouched_of_resultBefore hresult, ?_⟩
    rw [resultBefore_iff] at hresult
    rw [mainLines_program, hresult]
    rfl
  · intro hnone
    rw [not_resultBefore_iff] at hnone
    rw [mainLines_program, hnone]
    rfl

end Setting

/-- Two adjustments with a pass between them that computes nothing. -/
def Pass.adjustedTwice : List Pass :=
  [Adjustment.brightness.pass 0.5 .gl, Pass.identity,
    Adjustment.contrast.pass 0.25 .gl]

theorem compose_threads_adjustedTwice :
    Setting.compose ⟨.gl, "cc_", 0, 7⟩ Pass.adjustedTwice =
      .ok (Setting.shader ⟨.gl, "cc_", 0, 7⟩ Pass.adjustedTwice) ∧
    Setting.ResultBefore ⟨.gl, "cc_", 0, 7⟩ .fragment Pass.adjustedTwice 2
      "cc_7_adjusted" ∧
    (∀ statement ∈
        (Setting.shader ⟨.gl, "cc_", 0, 7⟩ Pass.adjustedTwice).fragment.body,
      statement.target ≠ "cc_9_" ++ "tmp") ∧
    (Setting.shader ⟨.gl, "cc_", 0, 7⟩ Pass.adjustedTwice).fragment.Renders
      "cc_9_" (Adjustment.contrast.part .gl) "tmp" "cc_7_adjusted" := by
  have hcomposes :
      Setting.Composes ⟨.gl, "cc_", 0, 7⟩ Pass.adjustedTwice := by
    decide +kernel
  have hresult :
      Setting.ResultBefore ⟨.gl, "cc_", 0, 7⟩ .fragment Pass.adjustedTwice 2
        "cc_7_adjusted" := by
    refine ⟨0, "adjusted", by decide, rfl, ?_, rfl⟩
    intro between hafter hbefore
    obtain rfl : between = 1 := by omega
    rfl
  have hthreads :=
    (Setting.compose_threads_chain ⟨.gl, "cc_", 0, 7⟩
      (Setting.Composes.compose_eq _ hcomposes) .fragment).1
      2 _ (Adjustment.contrast.part .gl) rfl rfl (by decide)
      ⟨"vec4", "tmp", .previousPass⟩ (by decide) rfl
  exact ⟨Setting.Composes.compose_eq _ hcomposes, hresult,
    hthreads.1 "cc_7_adjusted" hresult⟩

end ShaderComposer
