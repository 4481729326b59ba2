import ShaderComposer.Proofs.ContributedParts

/-!
# A call runs the function it was written for

A call carries a copy of its function, while the functions of all passes are
renamed, merged by name and listed apart from the calls.  The program finds the
function of a call by its name alone.  If the copy is one of the functions of its
part, then the name leads to it and to nothing else: names in the merged list are
distinct, and mangling keeps the functions of other passes away from the name.
The call gives that function one input for each of its formals, in their order.
-/

namespace ShaderComposer

/-- A program makes a call on a line of its own, where the names of the call are
behind `stem` and its inputs stand for what `resolve` says.  Of the functions of the
program just one has the name on the line, and it is the one the call was written
for. -/
structure Program.RunsOwnFunction (program : Program) (stem : String)
    (resolve : String → String) (call : Call) (invocation : Invocation) : Prop where
  line : Statement.invoke invocation ∈ program.body
  onlyLine :
    ∀ statement ∈ program.body, statement.target = stem ++ call.output →
      statement = .invoke invocation
  output : invocation.output = stem ++ call.output
  function : invocation.function = stem ++ call.function.name
  resultType : invocation.resultType = call.function.returnType
  definition :
    program.functions.filter (fun function => function.name = invocation.function) =
      [{ call.function with name := invocation.function }]
  arguments :
    List.Forall₂
      (fun formal argument => (call.inputs.get? formal.name).map resolve = some argument)
      call.function.inputs invocation.arguments

namespace Setting

variable (setting : Setting) {stage : Stage} {passes : List Pass}

/-- What a name stands for that is given to a call of the part at a position. -/
def resolveAt (stage : Stage) (passes : List Pass) (position : Nat) (part : Part) :
    String → String :=
  (setting.manglingAt stage ⟨position, part, latest stage passes position⟩).resolve part

theorem nodup_map_name_functions
    (hwell : (setting.builder stage passes).WellFormed) :
    ((setting.builder stage passes).program.functions.map ShaderFunction.name).Nodup :=
  Merge.nodup_map_name_outcome List.nodup_nil hwell.functions

theorem filter_functions_program
    (hwell : (setting.builder stage passes).WellFormed)
    {site : Site} (hsite : site ∈ sites stage passes)
    {function : ShaderFunction} (hfunction : function ∈ site.part.functions) :
    (setting.builder stage passes).program.functions.filter
        (fun other => other.name = setting.stemAt site.position ++ function.name) =
      [{ function with name := setting.stemAt site.position ++ function.name }] := by
  have hholds := setting.holds_program hwell hsite
  have hmem := hholds.functions function hfunction
  exact
    Merge.filter_name_eq_singleton (setting.nodup_map_name_functions hwell) hmem

/-- A call that leaves no input open is given one expression for each formal. -/
theorem forall₂_arguments_filled
    (mangling : Mangling) (part : Part) {call : Call} (hbound : call.unbound? = none) :
    List.Forall₂
      (fun formal argument =>
        (call.inputs.get? formal.name).map (mangling.resolve part) = some argument)
      call.function.inputs (mangling.call part call).filled.arguments := by
  have hgiven := (Call.unbound?_eq_none_iff call).mp hbound
  change List.Forall₂ _ call.function.inputs (call.function.inputs.map fun formal =>
    ((call.inputs.map (mangling.resolve part)).get? formal.name).getD "")
  rw [List.forall₂_map_right_iff, List.forall₂_same]
  intro formal hformal
  have hsome := Option.isSome_iff_exists.mp (hgiven formal hformal)
  obtain ⟨actual, hactual⟩ := hsome
  rw [Actuals.get?_map, hactual]
  rfl

theorem runsOwnFunction_program
    (hwell : (setting.builder stage passes).WellFormed)
    {site : Site} (hsite : site ∈ sites stage passes)
    {call : Call} (hcall : call ∈ site.part.calls)
    (hown : call.function ∈ site.part.functions) :
    (setting.builder stage passes).program.RunsOwnFunction
      (setting.stemAt site.position)
      ((setting.manglingAt stage site).resolve site.part) call
      ((setting.manglingAt stage site).call site.part call).filled := by
  have hmangled := setting.calls_mem_builder hsite hcall
  have hline := Builder.invoke_mem_body hmangled
  have hbound : call.unbound? = none := by
    have hunbound := hwell.bound _ hmangled
    rwa [Mangling.unbound?_call] at hunbound
  constructor
  · exact hline
  · intro statement hstatement htarget
    exact hwell.eq_of_target_eq hstatement hline htarget
  · rfl
  · rfl
  · rfl
  · exact setting.filter_functions_program hwell hsite hown
  · exact forall₂_arguments_filled _ _ hbound

/-- In a composed shader every call of a function that its part lists runs this
function, and gives it what the call says for each of its formals. -/
theorem compose_calls_run_own_function
    {shader : Shader} (hshader : setting.compose passes = .ok shader)
    {position : Nat} {pass : Pass} (hpass : passes[position]? = some pass)
    {stage : Stage} {part : Part} (hpart : pass.part? stage = some part)
    {call : Call} (hcall : call ∈ part.calls) (hown : call.function ∈ part.functions) :
    ∃ invocation,
      (shader.program stage).RunsOwnFunction (setting.stemAt position)
        (setting.resolveAt stage passes position part) call invocation := by
  obtain ⟨hwell, hprogram⟩ := setting.wellFormed_of_compose hshader stage
  have hsite := mem_sites_of_getElem? hpass hpart
  have hruns := setting.runsOwnFunction_program hwell hsite hcall hown
  rw [hprogram]
  exact ⟨_, hruns⟩

end Setting

def ShaderFunction.fading : ShaderFunction where
  name := "shade"
  body := "return 0.5 * c;"
  inputs := [⟨"vec4", "c"⟩]
  returnType := "vec4"

/-- A function that differs from the fading one in all but its name. -/
def ShaderFunction.scaling : ShaderFunction where
  name := "shade"
  body := "return k * color.rgb;"
  inputs := [⟨"float", "k"⟩, ⟨"vec4", "color"⟩]
  returnType := "vec3"

def Call.fade : Call where
  function := .fading
  output := "shaded"
  inputs := .ofPairs [("c", "color")]

def Call.scale : Call where
  function := .scaling
  output := "shaded"
  inputs := .ofPairs [("color", "color"), ("k", "2.0")]

/-- A single call, which reads the chain under the name `color`. -/
def Part.shading (call : Call) : Part where
  functions := [call.function]
  calls := [call]
  temporaries := [⟨"vec4", "color", .previousPass⟩]

def Pass.shadedTwice : List Pass :=
  [{ fragment := some (.shading .fade) }, { fragment := some (.shading .scale) }]

theorem shadedTwice_calls_run_own_function :
    Setting.compose ⟨.gl, "cc_", 0, 0⟩ Pass.shadedTwice =
      .ok (Setting.shader ⟨.gl, "cc_", 0, 0⟩ Pass.shadedTwice) ∧
    ∃ invocation,
      (Setting.shader ⟨.gl, "cc_", 0, 0⟩ Pass.shadedTwice).fragment.RunsOwnFunction
        "cc_1_"
        (Setting.resolveAt ⟨.gl, "cc_", 0, 0⟩ .fragment Pass.shadedTwice 1
          (.shading .scale))
        .scale invocation := by
  have hcomposes : Setting.Composes ⟨.gl, "cc_", 0, 0⟩ Pass.shadedTwice := by
    decide +kernel
  have hshader := Setting.Composes.compose_eq _ hcomposes
  have hpass :
      Pass.shadedTwice[1]? = some { fragment := some (.shading .scale) } := rfl
  have hpart :
      Pass.part? { fragment := some (.shading .scale) } .fragment =
        some (.shading .scale) := rfl
  have hcall : Call.scale ∈ (Part.shading .scale).calls := List.mem_cons_self
  have hown : Call.scale.function ∈ (Part.shading .scale).functions := List.mem_cons_self
  have hruns :=
    Setting.compose_calls_run_own_function ⟨.gl, "cc_", 0, 0⟩ hshader hpass hpart
      hcall hown
  exact ⟨hshader, hruns⟩

end ShaderComposer
