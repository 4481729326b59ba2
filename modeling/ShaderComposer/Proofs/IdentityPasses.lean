import ShaderComposer.Proofs.MovedPasses

/-!
# Identity passes

A pass without parts adds nothing to a list, but the passes behind it stand one
position further on, and their names get other stems.  Composing with an identity
pass in between is composing without it at these positions, and behind the last pass
it makes no difference at all.
-/

namespace ShaderComposer

/-! ## Making room for a pass -/

/-- Where a position comes to stand when one more is put in at `gap`. -/
def makeRoom (gap position : Nat) : Nat :=
  if position < gap then position else position + 1

theorem makeRoom_injective (gap : Nat) : Function.Injective (makeRoom gap) := by
  intro first second h
  unfold makeRoom at h
  split at h <;> split at h <;> omega

/-- The numbered items of a list, and those of the list with one more item put in. -/
theorem zipIdx_insert {α : Type} (before after : List α) (item : α) :
    ∃ front back,
      (before ++ after).zipIdx = front ++ back ∧
      (before ++ item :: after).zipIdx =
        front.map (Prod.map id (makeRoom before.length)) ++
          (item, before.length) :: back.map (Prod.map id (makeRoom before.length)) := by
  refine ⟨before.zipIdx, after.zipIdx before.length, ?_, ?_⟩
  · rw [List.zipIdx_append, Nat.zero_add]
  · have hfront :
        before.zipIdx.map (Prod.map id (makeRoom before.length)) =
          before.zipIdx.map id := by
      apply List.map_congr_left
      rintro ⟨other, position⟩ hentry
      have hlt : position < before.length := by
        simpa using List.snd_lt_of_mem_zipIdx hentry
      simp [makeRoom, hlt]
    have hback :
        (after.zipIdx before.length).map (Prod.map id (makeRoom before.length)) =
          after.zipIdx (before.length + 1) := by
      rw [List.zipIdx_succ]
      apply List.map_congr_left
      rintro ⟨other, position⟩ hentry
      have hle : ¬ position < before.length := by
        have hle := List.le_snd_of_mem_zipIdx hentry
        exact Nat.not_lt.mpr hle
      simp [makeRoom, hle]
    rw [List.zipIdx_append, List.zipIdx_cons, hfront, hback, List.map_id, Nat.zero_add]

section Insertion

variable (before after : List Pass) (stage : Stage)

theorem outputAt_makeRoom (position : Nat) :
    outputAt stage (before ++ Pass.identity :: after)
        (makeRoom before.length position) =
      outputAt stage (before ++ after) position := by
  unfold outputAt makeRoom
  split
  · next hlt =>
    rw [List.getElem?_append_left hlt, List.getElem?_append_left hlt]
  · next hle =>
    have hle : before.length ≤ position := Nat.not_lt.mp hle
    have hindex : position + 1 - before.length = position - before.length + 1 := by
      omega
    rw [List.getElem?_append_right (by omega), List.getElem?_append_right hle, hindex,
      List.getElem?_cons_succ]

theorem latest_behind_identity :
    latest stage (before ++ Pass.identity :: after) (before.length + 1) =
      latest stage (before ++ Pass.identity :: after) before.length := by
  have hnone :
      outputAt stage (before ++ Pass.identity :: after) before.length = none := by
    unfold outputAt
    rw [List.getElem?_append_right (Nat.le_refl _), Nat.sub_self]
    cases stage with
    | vertex =>
        rfl
    | fragment =>
        rfl
  rw [latest, hnone]
  rfl

theorem latest_makeRoom_succ (position : Nat) :
    latest stage (before ++ Pass.identity :: after)
        (makeRoom before.length (position + 1)) =
      latest stage (before ++ Pass.identity :: after)
        (makeRoom before.length position + 1) := by
  rcases Nat.lt_trichotomy (position + 1) before.length with hlt | hgap | hgt
  · have hbefore : position < before.length := by omega
    simp only [makeRoom, hlt, hbefore, if_true]
  · have hbefore : position < before.length := by omega
    have hnext : ¬ position + 1 < before.length := by omega
    simp only [makeRoom, hnext, hbefore, if_true, if_false]
    rw [hgap]
    exact latest_behind_identity before after stage
  · have hbehind : ¬ position < before.length := by omega
    have hnext : ¬ position + 1 < before.length := by omega
    simp only [makeRoom, hnext, hbehind, if_false]

/-- The closest result before a pass is the same one, at its moved position. -/
theorem latest_makeRoom (position : Nat) :
    latest stage (before ++ Pass.identity :: after) (makeRoom before.length position) =
      (latest stage (before ++ after) position).map
        (Prod.map (makeRoom before.length) id) := by
  induction position with
  | zero =>
      unfold makeRoom
      split
      · rfl
      · next hempty =>
        obtain rfl : before = [] := by
          simpa using hempty
        exact latest_behind_identity [] after stage
  | succ position ih =>
      rw [latest_makeRoom_succ, latest, outputAt_makeRoom, ih, latest, Option.map_or,
        Option.map_map]
      rfl

theorem sites_insert_identity :
    sites stage (before ++ Pass.identity :: after) =
      (sites stage (before ++ after)).map (Site.renumber (makeRoom before.length)) := by
  obtain ⟨front, back, horiginal, hinserted⟩ :=
    zipIdx_insert before after Pass.identity
  have hentry (entry : Pass × Nat) :
      (entry.1.part? stage).map (fun part =>
          (⟨makeRoom before.length entry.2, part,
            latest stage (before ++ Pass.identity :: after)
              (makeRoom before.length entry.2)⟩ : Site)) =
        ((entry.1.part? stage).map fun part =>
          (⟨entry.2, part, latest stage (before ++ after) entry.2⟩ : Site)).map
            (Site.renumber (makeRoom before.length)) := by
    rw [latest_makeRoom, Option.map_map]
    rfl
  have hnone : Pass.identity.part? stage = none := by
    cases stage <;> rfl
  unfold sites
  rw [horiginal, hinserted, List.map_filterMap, List.filterMap_append,
    List.filterMap_append, List.filterMap_cons, hnone, List.filterMap_map,
    List.filterMap_map]
  simp only [← hentry]
  rfl

end Insertion

theorem moves_insert_identity (before after : List Pass) :
    Moves (makeRoom before.length) (before ++ after)
      (before ++ Pass.identity :: after) := by
  obtain ⟨front, back, horiginal, hinserted⟩ :=
    zipIdx_insert before after Pass.identity
  constructor
  · exact makeRoom_injective before.length
  · exact sites_insert_identity before after
  · intro stage
    have hlength :
        (before ++ Pass.identity :: after).length =
          makeRoom before.length (before ++ after).length := by
      simp [makeRoom, Nat.add_assoc]
    rw [hlength]
    exact latest_makeRoom before after stage _
  · intro dialect
    rw [parameterPatternsFrom_eq, parameterPatternsFrom_eq, horiginal, hinserted,
      List.flatMap_append, List.flatMap_append, List.flatMap_cons, List.flatMap_map,
      List.flatMap_map, List.map_append, List.map_flatMap, List.map_flatMap]
    simp only [← Pass.parameterPatterns_move]
    rfl
  · have hentry (entry : Pass × Nat) :
        (entry.1.fault? "").map (ErrorPattern.fault (makeRoom before.length entry.2)) =
          ((entry.1.fault? "").map (ErrorPattern.fault entry.2)).map
            (ErrorPattern.renumber (makeRoom before.length)) := by
      rw [Option.map_map]
      rfl
    unfold firstFault?
    rw [horiginal, hinserted, List.findSome?_append, List.findSome?_append,
      List.findSome?_cons, List.findSome?_map, List.findSome?_map, Option.map_or,
      List.map_findSome?, List.map_findSome?]
    simp only [Function.comp_def, ← hentry]
    rfl

/-! ## An identity pass behind the others -/

namespace Setting

variable (setting : Setting)

theorem builder_append_identity (stage : Stage) (passes : List Pass) :
    setting.builder stage (passes ++ [Pass.identity]) = setting.builder stage passes := by
  have hsites : sites stage (passes ++ [Pass.identity]) = sites stage passes := by
    rw [sites_append_singleton]
    cases stage with
    | vertex =>
        exact List.append_nil _
    | fragment =>
        exact List.append_nil _
  unfold builder
  rw [links_eq, links_eq, hsites]

theorem faultFrom?_append_identity (position : Nat) (passes : List Pass) :
    setting.faultFrom? position (passes ++ [Pass.identity]) =
      setting.faultFrom? position passes := by
  induction passes generalizing position with
  | nil =>
      rfl
  | cons pass rest ih =>
      rw [List.cons_append, faultFrom?, faultFrom?, ih]

theorem parametersFrom_append_identity (position : Nat) (passes : List Pass) :
    setting.parametersFrom position (passes ++ [Pass.identity]) =
      setting.parametersFrom position passes := by
  induction passes generalizing position with
  | nil =>
      rfl
  | cons pass rest ih =>
      rw [List.cons_append, parametersFrom, parametersFrom, ih]

theorem compose_append_identity (passes : List Pass) :
    setting.compose (passes ++ [Pass.identity]) = setting.compose passes := by
  unfold compose fault?
  rw [faultFrom?_append_identity, builder_append_identity, builder_append_identity,
    parametersFrom_append_identity]

end Setting

/-! ## What an identity pass changes -/

/-- An identity pass between others decides nothing but the positions of those behind
it: one pattern gives the shader, or the error, of both lists. -/
theorem compose_identity_transparent
    (dialect : Dialect) (listIndex : Nat) (before after : List Pass) :
    ((∃ pattern : ShaderPattern, ∀ naming : Naming, ∃ shader shader',
        (naming.setting dialect listIndex).compose (before ++ after) = .ok shader ∧
        (naming.setting dialect listIndex).compose
          (before ++ Pass.identity :: after) = .ok shader' ∧
        naming.Fits pattern shader ∧
        naming.Fits (pattern.renumber (makeRoom before.length)) shader') ∨
      ∃ error : ErrorPattern, ∀ naming : Naming,
        (naming.setting dialect listIndex).compose (before ++ after) =
          .error (naming.error error) ∧
        (naming.setting dialect listIndex).compose (before ++ Pass.identity :: after) =
          .error (naming.error (error.renumber (makeRoom before.length)))) ∧
    ∀ (naming : Naming) (passes : List Pass),
      (naming.setting dialect listIndex).compose (passes ++ [Pass.identity]) =
        (naming.setting dialect listIndex).compose passes := by
  have hmoves := moves_insert_identity before after
  have hmoved := hmoves.firstError?_eq dialect
  refine ⟨?_, fun naming => Setting.compose_append_identity _⟩
  cases herror : firstError? dialect (before ++ after) with
  | none =>
      rw [herror, Option.map_none] at hmoved
      obtain ⟨pattern, hpattern⟩ := hmoves.fits_shader dialect listIndex
      refine .inl ⟨pattern, ?_⟩
      intro naming
      refine ⟨_, _, ?_, ?_, hpattern naming⟩
      · rw [naming.compose_eq, herror, Option.map_none, okUnless_none]
      · rw [naming.compose_eq, hmoved, Option.map_none, okUnless_none]
  | some error =>
      rw [herror, Option.map_some] at hmoved
      refine .inr ⟨error, ?_⟩
      intro naming
      constructor
      · rw [naming.compose_eq, herror, Option.map_some, okUnless_some]
      · rw [naming.compose_eq, hmoved, Option.map_some, okUnless_some]

end ShaderComposer
