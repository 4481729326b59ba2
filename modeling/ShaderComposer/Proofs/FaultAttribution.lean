import ShaderComposer.Effect.Color
import ShaderComposer.Proofs.FirstConflicts

/-!
# Faults are blamed on the pass that has them

A list with faulty passes fails with a fault of the first of them, under the stem
of its position.  The builders check the same things again on the collected
parts.  Mangling keeps every temporary in its stage, every called function listed
and every input bound, so without a faulty pass those checks find nothing, and
only a clash of declarations is left to fail.
-/

namespace ShaderComposer

namespace Setting

variable (setting : Setting) {passes : List Pass}

theorem compose_cases_of_sound
    (hsound : ∀ pass ∈ passes, ¬ pass.Faulty) :
    (∃ shader, setting.compose passes = .ok shader) ∨
    (∃ kind name, setting.compose passes = .error (.nameCollision kind name)) := by
  rw [setting.compose_of_sound hsound, setting.build_of_sound hsound,
    setting.build_of_sound hsound]
  cases (setting.builder .vertex passes).collision? with
  | some collision =>
      exact .inr ⟨collision.1, collision.2, rfl⟩
  | none =>
      cases (setting.builder .fragment passes).collision? with
      | some collision =>
          exact .inr ⟨collision.1, collision.2, rfl⟩
      | none =>
          exact .inl ⟨_, rfl⟩

/-- The first faulty pass is blamed for one of its faults, with the culprit's
name behind the stem of the pass; without a faulty pass, only a clash of
declarations can fail, and it is blamed on no pass. -/
theorem compose_blames_first_faulty (passes : List Pass) :
    ((∃ pass ∈ passes, pass.Faulty) →
      ∃ index pass error, passes[index]? = some pass ∧ pass.Faulty ∧
        (∀ earlier < index, ∀ other, passes[earlier]? = some other →
          ¬ other.Faulty) ∧
        pass.Reports (effectStem setting.stem (setting.startIndex + index)) error ∧
        setting.compose passes = .error (.inEffect index error)) ∧
    ((∀ pass ∈ passes, ¬ pass.Faulty) →
      (∃ shader, setting.compose passes = .ok shader) ∨
      (∃ kind name,
        setting.compose passes = .error (.nameCollision kind name))) := by
  constructor
  · intro hfaulty
    obtain ⟨index, pass, error, hpass, hfault, hfirst, hreports, hfound⟩ :=
      setting.faultFrom?_of_faulty 0 hfaulty
    rw [Nat.zero_add] at hreports hfound
    refine ⟨index, pass, error, hpass, hfault, hfirst, hreports, ?_⟩
    simp only [compose, fault?, hfound]
  · exact setting.compose_cases_of_sound

end Setting

/-- A pass that calls a function it does not list. -/
def Pass.unlistedCall : Pass where
  fragment := some { Adjustment.brightness.part .gl with functions := [] }

def Pass.brokenThird : List Pass :=
  [Adjustment.brightness.pass 0.5 .gl, Pass.identity, Pass.unlistedCall]

def Pass.soundPair : List Pass :=
  [Adjustment.brightness.pass 0.5 .gl, Adjustment.contrast.pass 0.25 .gl]

theorem compose_blames_brokenThird :
    (∃ pass ∈ Pass.brokenThird, pass.Faulty) ∧
    (∃ index pass error,
      Pass.brokenThird[index]? = some pass ∧ pass.Faulty ∧
        (∀ earlier < index, ∀ other, Pass.brokenThird[earlier]? = some other →
          ¬ other.Faulty) ∧
        pass.Reports (effectStem "cc_" (4 + index)) error ∧
        Setting.compose ⟨.gl, "cc_", 0, 4⟩ Pass.brokenThird =
          .error (.inEffect index error)) ∧
    (∀ pass ∈ Pass.soundPair, ¬ pass.Faulty) ∧
    ((∃ shader,
        Setting.compose ⟨.gl, "cc_", 0, 4⟩ Pass.soundPair = .ok shader) ∨
      (∃ kind name,
        Setting.compose ⟨.gl, "cc_", 0, 4⟩ Pass.soundPair =
          .error (.nameCollision kind name))) := by
  have hfaulty : ∃ pass ∈ Pass.brokenThird, pass.Faulty := by
    decide +kernel
  have hsound : ∀ pass ∈ Pass.soundPair, ¬ pass.Faulty := by
    decide +kernel
  exact ⟨hfaulty,
    (Setting.compose_blames_first_faulty ⟨.gl, "cc_", 0, 4⟩ _).1 hfaulty,
    hsound,
    (Setting.compose_blames_first_faulty ⟨.gl, "cc_", 0, 4⟩ _).2 hsound⟩

end ShaderComposer
