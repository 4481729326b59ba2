import ShaderComposer.Program.Builder
import ShaderComposer.Proofs.MergeLaws
import Mathlib.Data.List.Nodup

/-!
# What building a program accepts, and what it reports

A builder is well formed when its declarations agree with one another and its
body can be read from top to bottom.  Building succeeds exactly then, and the
program is written down here without any check.  A failed build reports
something that is really wrong with the builder.
-/

namespace ShaderComposer

def Part.variables (part : Part) : List String :=
  part.temporaries.map Temporary.name ++ part.calls.map Call.output

/-- The call with whatever its inputs give, the empty text where they give nothing. -/
def Call.filled (call : Call) : Invocation where
  resultType := call.function.returnType
  output := call.output
  function := call.function.name
  arguments := call.arguments

theorem Call.invocation_of_bound
    {call : Call} (hbound : call.unbound? = none) :
    call.invocation = .ok call.filled := by
  simp [Call.invocation, hbound, Call.filled]

theorem Call.unbound?_eq_some
    {call : Call} {formal : Formal} (hunbound : call.unbound? = some formal) :
    formal ∈ call.function.inputs ∧ call.inputs.get? formal.name = none := by
  constructor
  · exact List.mem_of_find?_eq_some hunbound
  · simpa using List.find?_some hunbound

namespace Builder

structure WellFormed (builder : Builder) : Prop where
  structs : Merge.Coherent StructDecl.name builder.part.structs
  arguments : Merge.Coherent Argument.name builder.part.arguments
  functions : Merge.Coherent ShaderFunction.name builder.part.functions
  available :
    ∀ temporary ∈ builder.part.temporaries,
      temporary.availableIn builder.stage = true
  listed :
    ∀ call ∈ builder.part.calls,
      call.function.name ∈ builder.part.functions.map ShaderFunction.name
  bound : ∀ call ∈ builder.part.calls, call.unbound? = none
  distinct : builder.part.variables.Nodup

/-- The errors that are true of a builder. -/
inductive Reports (builder : Builder) : CompositionError → Prop
  | structs {first second : StructDecl}
      (hfirst : first ∈ builder.part.structs)
      (hsecond : second ∈ builder.part.structs)
      (hname : first.name = second.name) (hne : first ≠ second) :
      Reports builder (.nameCollision .struct first.name)
  | arguments {first second : Argument}
      (hfirst : first ∈ builder.part.arguments)
      (hsecond : second ∈ builder.part.arguments)
      (hname : first.name = second.name) (hne : first ≠ second) :
      Reports builder (.nameCollision .argument first.name)
  | functions {first second : ShaderFunction}
      (hfirst : first ∈ builder.part.functions)
      (hsecond : second ∈ builder.part.functions)
      (hname : first.name = second.name) (hne : first ≠ second) :
      Reports builder (.nameCollision .function first.name)
  | redeclared {name : String}
      (htwice : 2 ≤ builder.part.variables.count name) :
      Reports builder (.nameCollision .var name)
  | unavailable {temporary : Temporary}
      (hmem : temporary ∈ builder.part.temporaries)
      (hstage : temporary.availableIn builder.stage = false) :
      Reports builder
        (.unavailableInitializer temporary.name temporary.initializer builder.stage)
  | unlisted {call : Call}
      (hmem : call ∈ builder.part.calls)
      (hname :
        call.function.name ∉ builder.part.functions.map ShaderFunction.name) :
      Reports builder (.undefinedFunction call.function.name)
  | unbound {call : Call} {formal : Formal}
      (hmem : call ∈ builder.part.calls)
      (hformal : formal ∈ call.function.inputs)
      (hopen : call.inputs.get? formal.name = none) :
      Reports builder (.unboundInput call.function.name formal.name)

/-- The program of the collected pieces, no check being made. -/
def program (builder : Builder) : Program where
  dialect := builder.dialect
  stage := builder.stage
  structs :=
    Merge.outcome StructDecl.name (Catalog.structs builder.dialect)
      builder.part.structs
  bindings :=
    Binding.assign
      (Merge.outcome Argument.name
        (Catalog.arguments builder.dialect builder.stage) builder.part.arguments)
  functions := Merge.outcome ShaderFunction.name [] builder.part.functions
  temporaries := builder.part.temporaries
  invocations := builder.part.calls.map Call.filled
  output := builder.part.output?

/-! ## The body -/

theorem declareTemporaries_cases
    (stage : Stage) {declared : List String} (hdeclared : declared.Nodup)
    (temporaries : List Temporary) :
    ((∀ temporary ∈ temporaries, temporary.availableIn stage = true) ∧
      ((temporaries.map Temporary.name).reverse ++ declared).Nodup ∧
      declareTemporaries stage declared temporaries =
        .ok ((temporaries.map Temporary.name).reverse ++ declared)) ∨
    (∃ temporary ∈ temporaries, temporary.availableIn stage = false ∧
      declareTemporaries stage declared temporaries =
        .error (.unavailableInitializer temporary.name temporary.initializer stage)) ∨
    (∃ name,
      2 ≤ (declared ++ temporaries.map Temporary.name).count name ∧
      declareTemporaries stage declared temporaries =
        .error (.nameCollision .var name)) := by
  induction temporaries generalizing declared with
  | nil =>
      left
      simpa [declareTemporaries] using hdeclared
  | cons temporary rest ih =>
      cases havailable : temporary.availableIn stage with
      | false =>
          right; left
          refine ⟨temporary, by simp, havailable, ?_⟩
          simp [declareTemporaries, havailable]
      | true =>
          by_cases hmem : temporary.name ∈ declared
          · right; right
            refine ⟨temporary.name, ?_, ?_⟩
            · have hcount := List.count_pos_iff.mpr hmem
              simp only [List.map_cons, List.count_append, List.count_cons_self]
              omega
            · simp [declareTemporaries, havailable, hmem]
          · have hstep :
                declareTemporaries stage declared (temporary :: rest) =
                  declareTemporaries stage (temporary.name :: declared) rest := by
              simp [declareTemporaries, havailable, hmem]
            rw [hstep]
            rcases ih (List.nodup_cons.mpr ⟨hmem, hdeclared⟩) with
              ⟨hrest, hnodup, hok⟩ | ⟨other, hother, hstage, herror⟩ |
                ⟨name, htwice, herror⟩
            · left
              refine ⟨?_, ?_, ?_⟩
              · rw [List.forall_mem_cons]
                exact ⟨havailable, hrest⟩
              · simpa using hnodup
              · simpa using hok
            · right; left
              exact ⟨other, List.mem_cons_of_mem _ hother, hstage, herror⟩
            · right; right
              refine ⟨name, ?_, herror⟩
              rw [List.map_cons, List.perm_middle.count_eq]
              exact htwice

theorem invocations_cases
    (functions : List ShaderFunction)
    {declared : List String} (hdeclared : declared.Nodup) (calls : List Call) :
    ((∀ call ∈ calls,
        call.function.name ∈ functions.map ShaderFunction.name) ∧
      (∀ call ∈ calls, call.unbound? = none) ∧
      ((calls.map Call.output).reverse ++ declared).Nodup ∧
      invocations functions declared calls = .ok (calls.map Call.filled)) ∨
    (∃ call ∈ calls,
      call.function.name ∉ functions.map ShaderFunction.name ∧
      invocations functions declared calls =
        .error (.undefinedFunction call.function.name)) ∨
    (∃ call ∈ calls, ∃ formal, call.unbound? = some formal ∧
      invocations functions declared calls =
        .error (.unboundInput call.function.name formal.name)) ∨
    (∃ name, 2 ≤ (declared ++ calls.map Call.output).count name ∧
      invocations functions declared calls =
        .error (.nameCollision .var name)) := by
  induction calls generalizing declared with
  | nil =>
      left
      simpa [invocations] using hdeclared
  | cons call rest ih =>
      by_cases hlisted : call.function.name ∈ functions.map ShaderFunction.name
      · have hcontains :
            (functions.map ShaderFunction.name).contains call.function.name = true :=
          List.contains_iff_mem.mpr hlisted
        by_cases hmem : call.output ∈ declared
        · right; right; right
          refine ⟨call.output, ?_, ?_⟩
          · have hcount := List.count_pos_iff.mpr hmem
            simp only [List.map_cons, List.count_append, List.count_cons_self]
            omega
          · rw [invocations, hcontains]
            simp [hmem]
        · have hstep :
              invocations functions declared (call :: rest) =
                (do
                  let invocation ← call.invocation
                  let others ← invocations functions (call.output :: declared) rest
                  return invocation :: others) := by
            rw [invocations, hcontains]
            simp [hmem]
          rw [hstep]
          cases hunbound : call.unbound? with
          | some formal =>
              right; right; left
              refine ⟨call, by simp, formal, hunbound, ?_⟩
              simp only [Call.invocation, hunbound]
              rfl
          | none =>
              rw [Call.invocation_of_bound hunbound]
              rcases ih (List.nodup_cons.mpr ⟨hmem, hdeclared⟩) with
                ⟨hfunctions, hbound, hnodup, hok⟩ | ⟨other, hother, hname, herror⟩ |
                  ⟨other, hother, formal, hopen, herror⟩ | ⟨name, htwice, herror⟩
              · left
                refine ⟨?_, ?_, ?_, ?_⟩
                · rw [List.forall_mem_cons]
                  exact ⟨hlisted, hfunctions⟩
                · rw [List.forall_mem_cons]
                  exact ⟨hunbound, hbound⟩
                · simpa using hnodup
                · rw [hok]
                  rfl
              · right; left
                refine ⟨other, List.mem_cons_of_mem _ hother, hname, ?_⟩
                rw [herror]
                rfl
              · right; right; left
                refine ⟨other, List.mem_cons_of_mem _ hother, formal, hopen, ?_⟩
                rw [herror]
                rfl
              · right; right; right
                refine ⟨name, ?_, ?_⟩
                · rw [List.map_cons, List.perm_middle.count_eq]
                  exact htwice
                · rw [herror]
                  rfl
      · right; left
        refine ⟨call, by simp, hlisted, ?_⟩
        have hcontains :
            (functions.map ShaderFunction.name).contains call.function.name = false := by
          simpa using hlisted
        rw [invocations, hcontains]
        rfl

/-! ## The whole build -/

theorem build_of_coherent
    {builder : Builder}
    (hstructs : Merge.Coherent StructDecl.name builder.part.structs)
    (harguments : Merge.Coherent Argument.name builder.part.arguments)
    (hfunctions : Merge.Coherent ShaderFunction.name builder.part.functions) :
    builder.build =
      (do
        let declared ← declareTemporaries builder.stage [] builder.part.temporaries
        let invocations ←
          invocations (Merge.outcome ShaderFunction.name [] builder.part.functions)
            declared builder.part.calls
        return { builder.program with invocations := invocations }) := by
  rw [build, Merge.declarations_eq_ok_iff.mpr ⟨hstructs, rfl⟩,
    Merge.declarations_eq_ok_iff.mpr ⟨harguments, rfl⟩,
    Merge.declarations_eq_ok_iff.mpr ⟨hfunctions, rfl⟩]
  rfl

theorem declarations_cases (builder : Builder) :
    (Merge.Coherent StructDecl.name builder.part.structs ∧
      Merge.Coherent Argument.name builder.part.arguments ∧
      Merge.Coherent ShaderFunction.name builder.part.functions) ∨
    (∃ error, builder.Reports error ∧ builder.build = .error error) := by
  cases hstructs :
      Merge.declarations StructDecl.name .struct
        (Catalog.structs builder.dialect) builder.part.structs with
  | error error =>
      obtain ⟨first, hfirst, second, hsecond, hname, hne, rfl⟩ :=
        Merge.declarations_error hstructs
      refine .inr ⟨_, .structs hfirst hsecond hname hne, ?_⟩
      rw [build, hstructs]
      rfl
  | ok structs =>
  cases harguments :
      Merge.declarations Argument.name .argument
        (Catalog.arguments builder.dialect builder.stage) builder.part.arguments with
  | error error =>
      obtain ⟨first, hfirst, second, hsecond, hname, hne, rfl⟩ :=
        Merge.declarations_error harguments
      refine .inr ⟨_, .arguments hfirst hsecond hname hne, ?_⟩
      rw [build, hstructs, harguments]
      rfl
  | ok arguments =>
  cases hfunctions :
      Merge.declarations ShaderFunction.name .function [] builder.part.functions with
  | error error =>
      obtain ⟨first, hfirst, second, hsecond, hname, hne, rfl⟩ :=
        Merge.declarations_error hfunctions
      refine .inr ⟨_, .functions hfirst hsecond hname hne, ?_⟩
      rw [build, hstructs, harguments, hfunctions]
      rfl
  | ok functions =>
      exact .inl
        ⟨(Merge.declarations_eq_ok_iff.mp hstructs).1,
          (Merge.declarations_eq_ok_iff.mp harguments).1,
          (Merge.declarations_eq_ok_iff.mp hfunctions).1⟩

/-- A build either succeeds on a well-formed builder or reports a real fault. -/
theorem build_cases (builder : Builder) :
    (builder.WellFormed ∧ builder.build = .ok builder.program) ∨
    (∃ error, builder.Reports error ∧ builder.build = .error error) := by
  rcases builder.declarations_cases with
    ⟨hstructs, harguments, hfunctions⟩ | hfailed
  · rw [build_of_coherent hstructs harguments hfunctions]
    have hnames (name : String) :
        name ∈ (Merge.outcome ShaderFunction.name []
            builder.part.functions).map ShaderFunction.name ↔
          name ∈ builder.part.functions.map ShaderFunction.name := by
      rw [Merge.mem_map_name_outcome]
      simp
    rcases declareTemporaries_cases builder.stage List.nodup_nil
        builder.part.temporaries with
      ⟨havailable, hnodup, hok⟩ | ⟨temporary, hmem, hstage, herror⟩ |
        ⟨name, htwice, herror⟩
    · rw [hok]
      rcases invocations_cases
          (Merge.outcome ShaderFunction.name [] builder.part.functions)
          hnodup builder.part.calls with
        ⟨hlisted, hbound, hdistinct, hok⟩ | ⟨call, hmem, hname, herror⟩ |
          ⟨call, hmem, formal, hopen, herror⟩ | ⟨name, htwice, herror⟩
      · left
        constructor
        · refine ⟨hstructs, harguments, hfunctions, havailable, ?_, hbound, ?_⟩
          · intro call hcall
            exact (hnames _).mp (hlisted call hcall)
          · rw [List.append_nil, ← List.reverse_append,
              List.nodup_reverse] at hdistinct
            exact hdistinct
        · simp only [bind, Except.bind, hok]
          rfl
      · right
        rw [hnames] at hname
        refine ⟨_, .unlisted hmem hname, ?_⟩
        simp only [bind, Except.bind, herror]
      · right
        have hformal := Call.unbound?_eq_some hopen
        refine ⟨_, .unbound hmem hformal.1 hformal.2, ?_⟩
        simp only [bind, Except.bind, herror]
      · right
        refine ⟨.nameCollision .var name, .redeclared ?_, ?_⟩
        · simpa [Part.variables, List.count_append] using htwice
        · simp only [bind, Except.bind, herror]
    · right
      refine ⟨_, .unavailable hmem hstage, ?_⟩
      rw [herror]
      rfl
    · right
      refine ⟨.nameCollision .var name, .redeclared ?_, ?_⟩
      · rw [List.nil_append] at htwice
        simp only [Part.variables, List.count_append]
        omega
      · rw [herror]
        rfl
  · exact .inr hfailed

theorem Reports.not_wellFormed
    {builder : Builder} {error : CompositionError}
    (hreports : builder.Reports error) : ¬ builder.WellFormed := by
  intro hwell
  cases hreports with
  | structs hfirst hsecond hname hne =>
      exact hne (hwell.structs _ hfirst _ hsecond hname)
  | arguments hfirst hsecond hname hne =>
      exact hne (hwell.arguments _ hfirst _ hsecond hname)
  | functions hfirst hsecond hname hne =>
      exact hne (hwell.functions _ hfirst _ hsecond hname)
  | @redeclared name htwice =>
      have hle := List.nodup_iff_count_le_one.mp hwell.distinct name
      omega
  | unavailable hmem hstage =>
      have havailable := hwell.available _ hmem
      rw [hstage] at havailable
      contradiction
  | unlisted hmem hname =>
      exact hname (hwell.listed _ hmem)
  | unbound hmem hformal hopen =>
      have hsome := (Call.unbound?_eq_none_iff _).mp (hwell.bound _ hmem) _ hformal
      rw [hopen] at hsome
      contradiction

theorem build_eq_ok_iff {builder : Builder} {program : Program} :
    builder.build = .ok program ↔
      builder.WellFormed ∧ program = builder.program := by
  rcases builder.build_cases with ⟨hwell, hbuild⟩ | ⟨error, hreports, hbuild⟩
  · rw [hbuild, Except.ok.injEq]
    constructor
    · intro heq
      exact ⟨hwell, heq.symm⟩
    · intro heq
      exact heq.2.symm
  · rw [hbuild]
    simp only [reduceCtorEq, false_iff, not_and]
    intro hwell
    exact absurd hwell hreports.not_wellFormed

theorem build_error
    {builder : Builder} {error : CompositionError}
    (herror : builder.build = .error error) : builder.Reports error := by
  rcases builder.build_cases with ⟨-, hbuild⟩ | ⟨other, hreports, hbuild⟩
  · rw [hbuild] at herror
    contradiction
  · rw [hbuild, Except.error.injEq] at herror
    exact herror ▸ hreports

/-! ## The bindings of the program -/

theorem map_argument_bindings (builder : Builder) :
    builder.program.bindings.map Binding.argument =
      Merge.outcome Argument.name (Catalog.arguments builder.dialect builder.stage)
        builder.part.arguments :=
  Binding.map_argument_assign _

theorem map_name_bindings (builder : Builder) :
    builder.program.bindings.map Binding.name =
      (Merge.outcome Argument.name (Catalog.arguments builder.dialect builder.stage)
        builder.part.arguments).map Argument.name := by
  rw [← map_argument_bindings, List.map_map]
  rfl

theorem WellFormed.nodup_map_name_bindings
    {builder : Builder} (hwell : builder.WellFormed) :
    (builder.program.bindings.map Binding.name).Nodup := by
  rw [map_name_bindings]
  exact
    Merge.nodup_map_name_outcome
      (Catalog.nodup_argumentNames builder.dialect builder.stage) hwell.arguments

/-! ## The body of the program -/

theorem map_target_body (builder : Builder) :
    builder.program.body.map Statement.target = builder.part.variables := by
  simp only [Program.body, program, Part.variables, List.map_append, List.map_map]
  rfl

theorem WellFormed.eq_of_target_eq
    {builder : Builder} (hwell : builder.WellFormed)
    {first second : Statement}
    (hfirst : first ∈ builder.program.body)
    (hsecond : second ∈ builder.program.body)
    (htarget : first.target = second.target) : first = second := by
  have hdistinct := hwell.distinct
  rw [← map_target_body] at hdistinct
  exact List.inj_on_of_nodup_map hdistinct hfirst hsecond htarget

theorem invoke_mem_body
    {builder : Builder} {call : Call} (hcall : call ∈ builder.part.calls) :
    Statement.invoke call.filled ∈ builder.program.body := by
  apply List.mem_append_right
  exact List.mem_map_of_mem (List.mem_map_of_mem hcall)

theorem declare_mem_body
    {builder : Builder} {temporary : Temporary}
    (htemporary : temporary ∈ builder.part.temporaries) :
    Statement.declare temporary ∈ builder.program.body := by
  apply List.mem_append_left
  exact List.mem_map_of_mem htemporary

end Builder

end ShaderComposer
