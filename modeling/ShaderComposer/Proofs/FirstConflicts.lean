import ShaderComposer.Proofs.ComposedStage

/-!
# The first conflict of a build

Declarations are merged and variables declared one after the other, and what a
build reports is the first of them that conflicts with one before it.  Which one
that is depends only on which items conflict, so it stays the same under every
renaming that keeps names apart.  A builder whose temporaries and calls are sound
has no other faults, and its whole build is told by its first conflict.
-/

namespace ShaderComposer

variable {α β κ μ : Type}

/-- A result that stands unless there is an error. -/
def okUnless {ε : Type} (error? : Option ε) (result : α) : Except ε α :=
  error?.elim (.ok result) .error

@[simp] theorem okUnless_none {ε : Type} (result : α) :
    okUnless (none : Option ε) result = .ok result := rfl

@[simp] theorem okUnless_some {ε : Type} (error : ε) (result : α) :
    okUnless (some error) result = .error error := rfl

/-- The first item that conflicts with an earlier one, the earliest already seen. -/
def firstConflict? (conflict : α → α → Bool) : List α → List α → Option α
  | _, [] => none
  | seen, item :: rest =>
    if seen.any fun other => conflict other item then some item
    else firstConflict? conflict (item :: seen) rest

section FirstConflict

variable {conflict : α → α → Bool} {seen items : List α}

theorem firstConflict?_map
    {conflict' : β → β → Bool} (f : α → β)
    (hconflict :
      ∀ first ∈ seen ++ items, ∀ second ∈ items,
        conflict' (f first) (f second) = conflict first second) :
    firstConflict? conflict' (seen.map f) (items.map f) =
      (firstConflict? conflict seen items).map f := by
  induction items generalizing seen with
  | nil =>
      rfl
  | cons item rest ih =>
      have hany :
          ((seen.map f).any fun other => conflict' other (f item)) =
            seen.any fun other => conflict other item := by
        rw [List.any_map, Bool.eq_iff_iff, List.any_eq_true, List.any_eq_true]
        refine exists_congr fun other => and_congr_right fun hother => ?_
        rw [Function.comp_apply,
          hconflict other (List.mem_append_left _ hother) item List.mem_cons_self]
      have hrest :
          firstConflict? conflict' ((item :: seen).map f) (rest.map f) =
            (firstConflict? conflict (item :: seen) rest).map f := by
        apply ih
        intro first hfirst second hsecond
        apply hconflict first _ second (List.mem_cons_of_mem item hsecond)
        simp only [List.mem_append, List.mem_cons] at hfirst ⊢
        tauto
      rw [List.map_cons, firstConflict?, firstConflict?, hany]
      cases seen.any fun other => conflict other item with
      | true =>
          rfl
      | false =>
          exact hrest

theorem mem_of_firstConflict?
    {item : α} (hitem : firstConflict? conflict seen items = some item) :
    item ∈ items := by
  induction items generalizing seen with
  | nil =>
      contradiction
  | cons head rest ih =>
      rw [firstConflict?] at hitem
      split at hitem
      · obtain rfl := Option.some.inj hitem
        exact List.mem_cons_self
      · exact List.mem_cons_of_mem head (ih hitem)

theorem firstConflict?_append (more : List α) :
    firstConflict? conflict seen (items ++ more) =
      (firstConflict? conflict seen items).or
        (firstConflict? conflict (items.reverse ++ seen) more) := by
  induction items generalizing seen with
  | nil =>
      rfl
  | cons item rest ih =>
      rw [List.cons_append, firstConflict?, firstConflict?]
      split
      · rfl
      · rw [ih, List.reverse_cons, List.append_assoc]
        rfl

theorem firstConflict?_eq_none
    (hnone : ∀ first ∈ seen ++ items, ∀ second ∈ items, conflict first second = false) :
    firstConflict? conflict seen items = none := by
  induction items generalizing seen with
  | nil =>
      rfl
  | cons item rest ih =>
      have hany : (seen.any fun other => conflict other item) = false := by
        rw [List.any_eq_false]
        intro other hother
        have hother := hnone other (List.mem_append_left _ hother) item List.mem_cons_self
        rw [hother]
        decide
      rw [firstConflict?, hany]
      apply ih
      intro first hfirst second hsecond
      apply hnone first _ second (List.mem_cons_of_mem item hsecond)
      simp only [List.mem_append, List.mem_cons] at hfirst ⊢
      tauto

end FirstConflict

/-! ## Merged declarations -/

namespace Merge

/-- Whether two declarations under one name differ. -/
def disagree [DecidableEq α] [DecidableEq κ] (name : α → κ) (first second : α) : Bool :=
  name first = name second && first ≠ second

/-- The kind and the name of the first declaration that contradicts an earlier one. -/
def clash? [DecidableEq α] [DecidableEq κ]
    (kind : DeclarationKind) (name : α → κ) (items : List α) :
    Option (DeclarationKind × κ) :=
  (firstConflict? (disagree name) [] items).map fun item => (kind, name item)

variable [DecidableEq α] [DecidableEq β] [DecidableEq κ] [DecidableEq μ]

theorem clash?_map
    (kind : DeclarationKind) {name : α → κ} {name' : β → μ} {items : List α}
    {f : α → β} {rename : κ → μ}
    (hname : ∀ item ∈ items, name' (f item) = rename (name item))
    (hkeeps :
      ∀ first ∈ items, ∀ second ∈ items,
        rename (name first) = rename (name second) → name first = name second)
    (hinj : ∀ first ∈ items, ∀ second ∈ items, f first = f second → first = second) :
    clash? kind name' (items.map f) =
      (clash? kind name items).map (Prod.map id rename) := by
  have hdisagree :
      ∀ first ∈ items, ∀ second ∈ items,
        disagree name' (f first) (f second) = disagree name first second := by
    intro first hfirst second hsecond
    have hnames : name' (f first) = name' (f second) ↔ name first = name second := by
      rw [hname first hfirst, hname second hsecond]
      exact ⟨hkeeps first hfirst second hsecond, congrArg rename⟩
    have hitems : f first = f second ↔ first = second :=
      ⟨hinj first hfirst second hsecond, congrArg f⟩
    simp only [disagree, ne_eq, hnames, hitems]
  have hfirst :
      firstConflict? (disagree name') [] (items.map f) =
        (firstConflict? (disagree name) [] items).map f := by
    change firstConflict? (disagree name') (List.map f []) (items.map f) = _
    exact firstConflict?_map f hdisagree
  unfold clash?
  rw [hfirst]
  cases hitem : firstConflict? (disagree name) [] items with
  | none =>
      rfl
  | some item =>
      have hmem : item ∈ items := mem_of_firstConflict? hitem
      simp only [Option.map_some, Prod.map_apply, id, hname item hmem]

theorem clash?_rename
    (kind : DeclarationKind) {name : α → κ} {name' : α → μ} {items : List α}
    {rename : κ → μ}
    (hname : ∀ item ∈ items, name' item = rename (name item))
    (hkeeps :
      ∀ first ∈ items, ∀ second ∈ items,
        rename (name first) = rename (name second) → name first = name second) :
    clash? kind name' items = (clash? kind name items).map (Prod.map id rename) := by
  have hmap :
      clash? kind name' (items.map id) =
        (clash? kind name items).map (Prod.map id rename) :=
    clash?_map kind hname hkeeps fun _ _ _ _ heq => heq
  rwa [List.map_id] at hmap

variable {name : α → String} {extra : List α}

theorem clash?_of_coherent
    (kind : DeclarationKind) (hcoherent : Coherent name extra) :
    clash? kind name extra = none := by
  have hnone : firstConflict? (disagree name) [] extra = none := by
    apply firstConflict?_eq_none
    intro first hfirst second hsecond
    simp only [disagree, Bool.and_eq_false_iff, decide_eq_false_iff_not, not_not]
    by_cases hname : name first = name second
    · exact .inr (hcoherent first hfirst second hsecond hname)
    · exact .inl hname
  rw [clash?, hnone]
  rfl

/-- A merge is told by its first clash, whatever it starts from. -/
theorem declarations_eq (kind : DeclarationKind) (defaults : List α) :
    declarations name kind defaults extra =
      okUnless ((clash? kind name extra).map (Function.uncurry .nameCollision))
        (outcome name defaults extra) := by
  rcases merge_cases name defaults extra with
    ⟨hcoherent, hmerge⟩ | ⟨before, item, after, rfl, hcoherent, hclash, hmerge⟩
  · rw [declarations, hmerge, clash?_of_coherent kind hcoherent]
    rfl
  · have hitem : clash? kind name (before ++ item :: after) = some (kind, name item) := by
      have hbefore : firstConflict? (disagree name) [] before = none :=
        Option.map_eq_none_iff.mp (clash?_of_coherent kind hcoherent)
      have hany : (before.reverse.any fun other => disagree name other item) = true := by
        obtain ⟨other, hother, hname, hne⟩ := hclash
        rw [List.any_reverse, List.any_eq_true]
        refine ⟨other, hother, ?_⟩
        simp [disagree, hname, hne]
      rw [clash?, firstConflict?_append, hbefore, List.append_nil, Option.none_or,
        firstConflict?, hany]
      rfl
    rw [declarations, hmerge, hitem]
    rfl

end Merge

/-! ## Variables -/

/-- The first name that is declared again. -/
def firstRepeat? [DecidableEq κ] (declared names : List κ) : Option κ :=
  firstConflict? (fun first second => first = second) declared names

theorem firstRepeat?_cons
    [DecidableEq κ] (declared : List κ) (name : κ) (rest : List κ) :
    firstRepeat? declared (name :: rest) =
      if declared.contains name then some name
      else firstRepeat? (name :: declared) rest := by
  have hany : (declared.any fun other => decide (other = name)) = declared.contains name := by
    rw [Bool.eq_iff_iff, List.any_eq_true, List.contains_iff_mem]
    simp
  rw [firstRepeat?, firstConflict?, hany]
  rfl

theorem firstRepeat?_map
    [DecidableEq κ] [DecidableEq μ] {names : List κ} {rename : κ → μ}
    (hkeeps :
      ∀ first ∈ names, ∀ second ∈ names, rename first = rename second → first = second) :
    firstRepeat? [] (names.map rename) = (firstRepeat? [] names).map rename := by
  change firstConflict? _ (List.map rename []) (names.map rename) = _
  apply firstConflict?_map
  intro first hfirst second hsecond
  have hnames : rename first = rename second ↔ first = second :=
    ⟨hkeeps first hfirst second hsecond, congrArg rename⟩
  simp only [hnames]

namespace Builder

theorem declareTemporaries_eq
    {stage : Stage} {temporaries : List Temporary}
    (havailable : ∀ temporary ∈ temporaries, temporary.availableIn stage = true)
    (declared : List String) :
    declareTemporaries stage declared temporaries =
      okUnless
        ((firstRepeat? declared (temporaries.map Temporary.name)).map
          (.nameCollision .var))
        ((temporaries.map Temporary.name).reverse ++ declared) := by
  induction temporaries generalizing declared with
  | nil =>
      rfl
  | cons temporary rest ih =>
      have hhere : temporary.availableIn stage = true :=
        havailable temporary List.mem_cons_self
      have hrest : ∀ other ∈ rest, other.availableIn stage = true := fun other hother =>
        havailable other (List.mem_cons_of_mem temporary hother)
      rw [declareTemporaries, hhere, List.map_cons, firstRepeat?_cons]
      cases declared.contains temporary.name with
      | true =>
          rfl
      | false =>
          have hstep := ih hrest (temporary.name :: declared)
          simpa using hstep

theorem invocations_eq
    {functions : List ShaderFunction} {calls : List Call}
    (hlisted :
      ∀ call ∈ calls, call.function.name ∈ functions.map ShaderFunction.name)
    (hbound : ∀ call ∈ calls, call.unbound? = none)
    (declared : List String) :
    invocations functions declared calls =
      okUnless
        ((firstRepeat? declared (calls.map Call.output)).map (.nameCollision .var))
        (calls.map Call.filled) := by
  induction calls generalizing declared with
  | nil =>
      rfl
  | cons call rest ih =>
      have hcontains :
          (functions.map ShaderFunction.name).contains call.function.name = true :=
        List.contains_iff_mem.mpr (hlisted call List.mem_cons_self)
      have hhere : call.invocation = .ok call.filled :=
        Call.invocation_of_bound (hbound call List.mem_cons_self)
      rw [invocations, hcontains, hhere, List.map_cons, firstRepeat?_cons]
      cases declared.contains call.output with
      | true =>
          rfl
      | false =>
          have hstep :=
            ih (fun other hother => hlisted other (List.mem_cons_of_mem call hother))
              (fun other hother => hbound other (List.mem_cons_of_mem call hother))
              (call.output :: declared)
          simp only [Bool.not_true, Bool.false_eq_true, if_false, hstep]
          cases firstRepeat? (call.output :: declared) (rest.map Call.output) with
          | none =>
              rfl
          | some name =>
              rfl

/-- The first collision of a build, by kind and name. -/
def collision? (builder : Builder) : Option (DeclarationKind × String) :=
  (Merge.clash? .struct StructDecl.name builder.part.structs).or <|
    (Merge.clash? .argument Argument.name builder.part.arguments).or <|
      (Merge.clash? .function ShaderFunction.name builder.part.functions).or <|
        (firstRepeat? [] builder.part.variables).map (Prod.mk .var)

/-- Sound temporaries and calls leave nothing to report but a collision. -/
theorem build_of_sound
    {builder : Builder}
    (havailable :
      ∀ temporary ∈ builder.part.temporaries,
        temporary.availableIn builder.stage = true)
    (hlisted :
      ∀ call ∈ builder.part.calls,
        call.function.name ∈ builder.part.functions.map ShaderFunction.name)
    (hbound : ∀ call ∈ builder.part.calls, call.unbound? = none) :
    builder.build =
      okUnless (builder.collision?.map (Function.uncurry .nameCollision))
        builder.program := by
  have hlisted' :
      ∀ call ∈ builder.part.calls,
        call.function.name ∈
          (Merge.outcome ShaderFunction.name [] builder.part.functions).map
            ShaderFunction.name := by
    intro call hcall
    exact Merge.mem_map_name_outcome.mpr (.inr (hlisted call hcall))
  unfold build collision?
  simp only [Merge.declarations_eq, declareTemporaries_eq havailable]
  cases Merge.clash? .struct StructDecl.name builder.part.structs with
  | some clash =>
      rfl
  | none =>
  cases Merge.clash? .argument Argument.name builder.part.arguments with
  | some clash =>
      rfl
  | none =>
  cases Merge.clash? .function ShaderFunction.name builder.part.functions with
  | some clash =>
      rfl
  | none =>
  have hvariables :
      firstRepeat? [] builder.part.variables =
        (firstRepeat? [] (builder.part.temporaries.map Temporary.name)).or
          (firstRepeat? ((builder.part.temporaries.map Temporary.name).reverse ++ [])
            (builder.part.calls.map Call.output)) :=
    firstConflict?_append _
  rw [hvariables]
  cases firstRepeat? [] (builder.part.temporaries.map Temporary.name) with
  | some name =>
      rfl
  | none =>
      simp only [bind, Except.bind, Option.map_none, okUnless_none,
        invocations_eq hlisted' hbound]
      cases firstRepeat? ((builder.part.temporaries.map Temporary.name).reverse ++ [])
          (builder.part.calls.map Call.output) with
      | some name =>
          rfl
      | none =>
          rfl

end Builder

theorem Setting.build_of_sound
    (setting : Setting) {passes : List Pass} (hsound : ∀ pass ∈ passes, ¬ pass.Faulty)
    (stage : Stage) :
    (setting.builder stage passes).build =
      okUnless
        ((setting.builder stage passes).collision?.map
          (Function.uncurry .nameCollision))
        (setting.builder stage passes).program := by
  apply Builder.build_of_sound
  · exact fun _ hmem => setting.available_builder hsound hmem
  · exact fun _ hmem => setting.listed_builder hsound hmem
  · exact fun _ hmem => setting.bound_builder hsound hmem

end ShaderComposer
