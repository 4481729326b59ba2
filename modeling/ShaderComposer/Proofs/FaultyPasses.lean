import ShaderComposer.Composition.Shader
import Mathlib.Data.List.Basic

/-!
# Faulty passes, without an order of checks

A part is faulty when one of its temporaries, calls or open inputs is wrong,
whichever is found first.  The checks find a fault exactly in a faulty part, and
what they find is one of its faults under its mangled name.
-/

namespace ShaderComposer

/-- A part that its stage cannot take, whatever stands around it. -/
def Part.Faulty (stage : Stage) (part : Part) : Prop :=
  (∃ temporary ∈ part.temporaries, temporary.availableIn stage = false) ∨
  (∃ call ∈ part.calls,
    call.function.name ∉ part.functions.map ShaderFunction.name) ∨
  (∃ call ∈ part.calls, ∃ formal ∈ call.function.inputs,
    call.inputs.get? formal.name = none)

def Pass.Faulty (pass : Pass) : Prop :=
  ∃ stage part, pass.part? stage = some part ∧ part.Faulty stage

/-- The faults of a part, with the culprit's name behind a stem. -/
inductive Part.Reports (stem : String) (stage : Stage) (part : Part) :
    CompositionError → Prop
  | unavailable {temporary : Temporary}
      (hmem : temporary ∈ part.temporaries)
      (hstage : temporary.availableIn stage = false) :
      Reports stem stage part
        (.unavailableInitializer (stem ++ temporary.name)
          temporary.initializer stage)
  | unlisted {call : Call}
      (hmem : call ∈ part.calls)
      (hname : call.function.name ∉ part.functions.map ShaderFunction.name) :
      Reports stem stage part (.undefinedFunction (stem ++ call.function.name))
  | unbound {call : Call} {formal : Formal}
      (hmem : call ∈ part.calls)
      (hformal : formal ∈ call.function.inputs)
      (hopen : call.inputs.get? formal.name = none) :
      Reports stem stage part
        (.unboundInput (stem ++ call.function.name) formal.name)

def Pass.Reports (stem : String) (pass : Pass) (error : CompositionError) : Prop :=
  ∃ stage part, pass.part? stage = some part ∧ part.Reports stem stage error

/-! ## One part -/

theorem Temporary.fault?_eq_none_iff
    {stem : String} {stage : Stage} {temporary : Temporary} :
    temporary.fault? stem stage = none ↔ temporary.availableIn stage = true := by
  simp [Temporary.fault?]

theorem Call.fault?_eq_none_iff
    {stem : String} {functions : List ShaderFunction} {call : Call} :
    call.fault? stem functions = none ↔
      call.function.name ∈ functions.map ShaderFunction.name ∧
        call.unbound? = none := by
  unfold Call.fault?
  by_cases hlisted : call.function.name ∈ functions.map ShaderFunction.name
  · rw [if_pos (List.contains_iff_mem.mpr hlisted), Option.map_eq_none_iff]
    simp only [hlisted, true_and]
  · rw [if_neg (fun h => hlisted (List.contains_iff_mem.mp h))]
    simp only [hlisted, false_and, reduceCtorEq]

theorem Part.not_faulty_iff {stage : Stage} {part : Part} :
    ¬ part.Faulty stage ↔
      (∀ temporary ∈ part.temporaries, temporary.availableIn stage = true) ∧
      (∀ call ∈ part.calls,
        call.function.name ∈ part.functions.map ShaderFunction.name) ∧
      (∀ call ∈ part.calls, call.unbound? = none) := by
  unfold Part.Faulty
  simp only [not_or, not_exists, not_and, Bool.not_eq_false, not_not]
  refine and_congr_right fun _ => and_congr_right fun _ => ?_
  constructor
  · intro hall call hcall
    rw [Call.unbound?_eq_none_iff]
    intro formal hformal
    exact Option.isSome_iff_ne_none.mpr (hall call hcall formal hformal)
  · intro hall call hcall formal hformal
    have hsome := (Call.unbound?_eq_none_iff call).mp (hall call hcall) formal hformal
    exact Option.isSome_iff_ne_none.mp hsome

theorem Part.fault?_eq_none_iff {stem : String} {stage : Stage} {part : Part} :
    part.fault? stem stage = none ↔ ¬ part.Faulty stage := by
  rw [Part.not_faulty_iff, Part.fault?, Option.or_eq_none_iff,
    List.findSome?_eq_none_iff, List.findSome?_eq_none_iff]
  simp only [Temporary.fault?_eq_none_iff, Call.fault?_eq_none_iff]
  refine and_congr_right fun _ => ?_
  constructor
  · intro hall
    exact ⟨fun call hcall => (hall call hcall).1,
      fun call hcall => (hall call hcall).2⟩
  · intro hall call hcall
    exact ⟨hall.1 call hcall, hall.2 call hcall⟩

theorem Part.fault?_reports
    {stem : String} {stage : Stage} {part : Part} {error : CompositionError}
    (hfault : part.fault? stem stage = some error) :
    part.Reports stem stage error := by
  rw [Part.fault?, Option.or_eq_some_iff] at hfault
  rcases hfault with htemporary | ⟨-, hcall⟩
  · obtain ⟨temporary, hmem, hsome⟩ := List.exists_of_findSome?_eq_some htemporary
    unfold Temporary.fault? at hsome
    split at hsome
    · contradiction
    · next hstage =>
      obtain rfl := Option.some.inj hsome
      exact .unavailable hmem (by simpa using hstage)
  · obtain ⟨call, hmem, hsome⟩ := List.exists_of_findSome?_eq_some hcall
    unfold Call.fault? at hsome
    split at hsome
    · obtain ⟨formal, hopen, rfl⟩ := Option.map_eq_some_iff.mp hsome
      refine .unbound hmem (List.mem_of_find?_eq_some hopen) ?_
      simpa using List.find?_some hopen
    · next hname =>
      obtain rfl := Option.some.inj hsome
      exact .unlisted hmem fun h => hname (List.contains_iff_mem.mpr h)

/-! ## One pass -/

theorem Pass.fault?_eq_none_iff {stem : String} {pass : Pass} :
    pass.fault? stem = none ↔ ¬ pass.Faulty := by
  have hstage (stage : Stage) :
      (pass.part? stage).bind (Part.fault? stem stage) = none ↔
        ∀ part, pass.part? stage = some part → ¬ part.Faulty stage := by
    rw [Option.bind_eq_none_iff]
    simp only [Part.fault?_eq_none_iff]
  have hvertex := hstage .vertex
  have hfragment := hstage .fragment
  simp only [Pass.part?] at hvertex hfragment
  rw [Pass.fault?, Option.or_eq_none_iff, hvertex, hfragment]
  constructor
  · rintro ⟨hnone, hnone'⟩ ⟨stage, part, hpart, hfaulty⟩
    cases stage with
    | vertex =>
        exact hnone part hpart hfaulty
    | fragment =>
        exact hnone' part hpart hfaulty
  · intro hnone
    exact ⟨fun part hpart hfaulty => hnone ⟨.vertex, part, hpart, hfaulty⟩,
      fun part hpart hfaulty => hnone ⟨.fragment, part, hpart, hfaulty⟩⟩

instance (pass : Pass) : Decidable pass.Faulty :=
  decidable_of_iff (pass.fault? "" ≠ none) (by rw [Ne, Pass.fault?_eq_none_iff, not_not])

theorem Pass.fault?_reports
    {stem : String} {pass : Pass} {error : CompositionError}
    (hfault : pass.fault? stem = some error) : pass.Reports stem error := by
  rw [Pass.fault?, Option.or_eq_some_iff] at hfault
  rcases hfault with hvertex | ⟨-, hfragment⟩
  · obtain ⟨part, hpart, hsome⟩ := Option.bind_eq_some_iff.mp hvertex
    exact ⟨.vertex, part, hpart, Part.fault?_reports hsome⟩
  · obtain ⟨part, hpart, hsome⟩ := Option.bind_eq_some_iff.mp hfragment
    exact ⟨.fragment, part, hpart, Part.fault?_reports hsome⟩

/-! ## A list of passes -/

namespace Setting

variable (setting : Setting)

/-- Of a setting, only the stems show in a fault. -/
theorem faultFrom?_congr
    {first second : Setting} (hstem : first.stemAt = second.stemAt)
    (position : Nat) (passes : List Pass) :
    first.faultFrom? position passes = second.faultFrom? position passes := by
  induction passes generalizing position with
  | nil =>
      rfl
  | cons pass rest ih =>
      rw [faultFrom?, faultFrom?, hstem, ih]

theorem faultFrom?_of_sound
    (position : Nat) {passes : List Pass}
    (hsound : ∀ pass ∈ passes, ¬ pass.Faulty) :
    setting.faultFrom? position passes = none := by
  induction passes generalizing position with
  | nil =>
      rfl
  | cons pass rest ih =>
      have hpass : pass.fault? (setting.stemAt position) = none :=
        Pass.fault?_eq_none_iff.mpr (hsound pass (by simp))
      simp only [faultFrom?, hpass]
      exact ih (position + 1) fun other hother =>
        hsound other (List.mem_cons_of_mem _ hother)

theorem faultFrom?_of_faulty
    (position : Nat) {passes : List Pass}
    (hfaulty : ∃ pass ∈ passes, pass.Faulty) :
    ∃ index pass error, passes[index]? = some pass ∧ pass.Faulty ∧
      (∀ earlier < index, ∀ other, passes[earlier]? = some other →
        ¬ other.Faulty) ∧
      pass.Reports (setting.stemAt (position + index)) error ∧
      setting.faultFrom? position passes =
        some (.inEffect (position + index) error) := by
  induction passes generalizing position with
  | nil =>
      simp at hfaulty
  | cons pass rest ih =>
      cases hpass : pass.fault? (setting.stemAt position) with
      | some error =>
          have hthis : pass.Faulty := by
            by_contra hsound
            rw [Pass.fault?_eq_none_iff.mpr hsound] at hpass
            contradiction
          refine ⟨0, pass, error, rfl, hthis, ?_, Pass.fault?_reports hpass, ?_⟩
          · intro earlier hlt
            omega
          · simp [faultFrom?, hpass]
      | none =>
          have hsound : ¬ pass.Faulty := Pass.fault?_eq_none_iff.mp hpass
          have hrest : ∃ other ∈ rest, other.Faulty := by
            obtain ⟨other, hother, hfault⟩ := hfaulty
            rcases List.mem_cons.mp hother with rfl | hother
            · exact absurd hfault hsound
            · exact ⟨other, hother, hfault⟩
          obtain ⟨index, culprit, error, hindex, hculprit, hfirst, hreports, hfound⟩ :=
            ih (position + 1) hrest
          have hshift : position + 1 + index = position + (index + 1) := by
            omega
          rw [hshift] at hreports hfound
          refine ⟨index + 1, culprit, error, ?_, hculprit, ?_, hreports, ?_⟩
          · simpa using hindex
          · intro earlier hlt other hother
            cases earlier with
            | zero =>
                obtain rfl : pass = other := by simpa using hother
                exact hsound
            | succ earlier =>
                exact hfirst earlier (by omega) other (by simpa using hother)
          · simp [faultFrom?, hpass, hfound]

theorem fault?_eq_none_iff {passes : List Pass} :
    setting.fault? passes = none ↔ ∀ pass ∈ passes, ¬ pass.Faulty := by
  constructor
  · intro hnone pass hpass hfaulty
    obtain ⟨index, culprit, error, -, -, -, -, hfound⟩ :=
      setting.faultFrom?_of_faulty 0 ⟨pass, hpass, hfaulty⟩
    rw [fault?, hfound] at hnone
    contradiction
  · exact setting.faultFrom?_of_sound 0

end Setting

end ShaderComposer
