import ShaderComposer.Composition.Shader
import Mathlib.Data.List.Basic

/-!
# The skeleton of a chain

Which parts of a list of passes belong to a stage, where each of them stands, and
whose result it reads, does not depend on any stem or index.  A site is a part
with these two positions.  The chain of a stage under given stems is the list of
its sites with the names filled in, and the same holds of what is finally
written back.
-/

namespace ShaderComposer

def Pass.output? (stage : Stage) (pass : Pass) : Option String :=
  (pass.part? stage).bind Part.output?

def outputAt (stage : Stage) (passes : List Pass) (position : Nat) : Option String :=
  passes[position]?.bind (Pass.output? stage)

/-- The closest position before `position` at which something is computed, and
the local name of what it is. -/
def latest (stage : Stage) (passes : List Pass) : Nat → Option (Nat × String)
  | 0 => none
  | position + 1 =>
    ((outputAt stage passes position).map (Prod.mk position)).or
      (latest stage passes position)

/-- A part of a stage, where it stands, and whose result it reads. -/
structure Site where
  position : Nat
  part : Part
  source : Option (Nat × String)

def sites (stage : Stage) (passes : List Pass) : List Site :=
  passes.zipIdx.filterMap fun entry =>
    (entry.1.part? stage).map fun part =>
      ⟨entry.2, part, latest stage passes entry.2⟩

/-! ## The closest result before a position -/

section Latest

variable {stage : Stage} {passes : List Pass} {position : Nat}

theorem latest_eq_some_iff {earlier : Nat} {output : String} :
    latest stage passes position = some (earlier, output) ↔
      earlier < position ∧ outputAt stage passes earlier = some output ∧
        ∀ between, earlier < between → between < position →
          outputAt stage passes between = none := by
  induction position with
  | zero =>
      simp [latest]
  | succ position ih =>
      rw [latest]
      cases hhere : outputAt stage passes position with
      | none =>
          rw [Option.map_none, Option.none_or, ih]
          constructor
          · rintro ⟨hlt, houtput, hbetween⟩
            refine ⟨by omega, houtput, ?_⟩
            intro between hafter hbefore
            rcases Nat.lt_succ_iff_lt_or_eq.mp hbefore with hbefore | rfl
            · exact hbetween between hafter hbefore
            · exact hhere
          · rintro ⟨hlt, houtput, hbetween⟩
            have hne : earlier ≠ position := by
              rintro rfl
              rw [hhere] at houtput
              contradiction
            exact ⟨by omega, houtput,
              fun between hafter hbefore =>
                hbetween between hafter (by omega)⟩
      | some here =>
          simp only [Option.map_some, Option.some_or, Option.some.injEq,
            Prod.mk.injEq]
          constructor
          · rintro ⟨rfl, rfl⟩
            exact ⟨by omega, hhere, fun between hafter hbefore => by omega⟩
          · rintro ⟨hlt, houtput, hbetween⟩
            have heq : position = earlier := by
              by_contra hne
              have hnone := hbetween position (by omega) (by omega)
              rw [hhere] at hnone
              contradiction
            subst heq
            rw [hhere, Option.some.injEq] at houtput
            exact ⟨rfl, houtput⟩

/-- Only the passes before a position matter for it. -/
theorem latest_append (rest : List Pass) (hle : position ≤ passes.length) :
    latest stage (passes ++ rest) position = latest stage passes position := by
  induction position with
  | zero =>
      rfl
  | succ position ih =>
      have hlt : position < passes.length := by omega
      simp only [latest, outputAt, ih (by omega), List.getElem?_append_left hlt]

end Latest

/-! ## Sites -/

section Sites

variable {stage : Stage} {passes : List Pass}

theorem mem_sites {site : Site} :
    site ∈ sites stage passes ↔
      ∃ pass, passes[site.position]? = some pass ∧
        pass.part? stage = some site.part ∧
        site.source = latest stage passes site.position := by
  rw [sites, List.mem_filterMap]
  constructor
  · rintro ⟨⟨pass, position⟩, hentry, hsite⟩
    obtain ⟨part, hpart, rfl⟩ := Option.map_eq_some_iff.mp hsite
    exact ⟨pass, List.mk_mem_zipIdx_iff_getElem?.mp hentry, hpart, rfl⟩
  · rintro ⟨pass, hpass, hpart, hsource⟩
    refine ⟨(pass, site.position), List.mk_mem_zipIdx_iff_getElem?.mpr hpass, ?_⟩
    simp only [hpart, Option.map_some, ← hsource]

theorem mem_sites_of_getElem?
    {position : Nat} {pass : Pass} (hpass : passes[position]? = some pass)
    {part : Part} (hpart : pass.part? stage = some part) :
    ⟨position, part, latest stage passes position⟩ ∈ sites stage passes :=
  mem_sites.mpr ⟨pass, hpass, hpart, rfl⟩

theorem exists_pass_of_mem_sites
    {site : Site} (hsite : site ∈ sites stage passes) :
    ∃ pass ∈ passes, pass.part? stage = some site.part := by
  obtain ⟨pass, hpass, hpart, -⟩ := mem_sites.mp hsite
  exact ⟨pass, List.mem_of_getElem? hpass, hpart⟩

theorem eq_of_position_eq
    {first second : Site}
    (hfirst : first ∈ sites stage passes)
    (hsecond : second ∈ sites stage passes)
    (hposition : first.position = second.position) :
    first = second := by
  obtain ⟨pass₁, hpass₁, hpart₁, hsource₁⟩ := mem_sites.mp hfirst
  obtain ⟨pass₂, hpass₂, hpart₂, hsource₂⟩ := mem_sites.mp hsecond
  rw [hposition, hpass₂, Option.some.injEq] at hpass₁
  subst hpass₁
  rw [hpart₂, Option.some.injEq] at hpart₁
  rw [hposition] at hsource₁
  cases first
  cases second
  simp_all

theorem pairwise_snd_zipIdx {α : Type} (items : List α) (start : Nat) :
    (items.zipIdx start).Pairwise fun first second => first.2 < second.2 := by
  apply List.Pairwise.of_map Prod.snd (fun _ _ h => h)
  rw [List.zipIdx_map_snd]
  exact List.pairwise_lt_range'

theorem pairwise_sites (stage : Stage) (passes : List Pass) :
    (sites stage passes).Pairwise fun first second =>
      first.position < second.position := by
  rw [sites, List.pairwise_filterMap]
  apply (pairwise_snd_zipIdx passes 0).imp
  intro first second hlt site hsite site' hsite'
  obtain ⟨part, -, rfl⟩ := Option.map_eq_some_iff.mp hsite
  obtain ⟨part', -, rfl⟩ := Option.map_eq_some_iff.mp hsite'
  exact hlt

theorem sites_append_singleton (pass : Pass) :
    sites stage (passes ++ [pass]) =
      sites stage passes ++
        ((pass.part? stage).map fun part =>
          (⟨passes.length, part, latest stage passes passes.length⟩ : Site)).toList := by
  unfold sites
  rw [List.zipIdx_append, List.filterMap_append]
  congr 1
  · apply List.filterMap_congr
    rintro ⟨other, position⟩ hentry
    have hlt : position < passes.length := by
      simpa using List.snd_lt_of_mem_zipIdx hentry
    simp only [latest_append [pass] (Nat.le_of_lt hlt)]
  · cases hpart : pass.part? stage with
    | none =>
        simp [hpart]
    | some part =>
        simp [hpart, latest_append [pass] (Nat.le_refl passes.length)]

end Sites

/-! ## Chains under given names -/

namespace Setting

variable (setting : Setting)

def sourceName (source : Nat × String) : String :=
  setting.stemAt source.1 ++ source.2

def link (site : Site) : Link where
  position := site.position
  part := site.part
  previous := site.source.map setting.sourceName

theorem linksFrom_append
    (stage : Stage) (before rest : List Pass) :
    setting.linksFrom stage before.length
        ((latest stage (before ++ rest) before.length).map setting.sourceName) rest =
      ((rest.zipIdx before.length).filterMap fun entry =>
        (entry.1.part? stage).map fun part =>
          (⟨entry.2, part, latest stage (before ++ rest) entry.2⟩ : Site)).map
        setting.link := by
  induction rest generalizing before with
  | nil =>
      rfl
  | cons pass rest ih =>
      have hnext := ih (before ++ [pass])
      have houtput :
          outputAt stage (before ++ pass :: rest) before.length =
            pass.output? stage := by
        simp [outputAt]
      simp only [List.append_assoc, List.singleton_append, List.length_append,
        List.length_singleton, latest, houtput] at hnext
      rw [linksFrom, List.zipIdx_cons]
      cases hpart : pass.part? stage with
      | none =>
          simp only [Pass.output?, hpart, Option.bind_none, Option.map_none,
            Option.none_or] at hnext
          simp [hpart, hnext]
      | some part =>
          have hresult :
              setting.resultAfter before.length part
                  ((latest stage (before ++ pass :: rest) before.length).map
                    setting.sourceName) =
                (((pass.output? stage).map (Prod.mk before.length)).or
                  (latest stage (before ++ pass :: rest) before.length)).map
                  setting.sourceName := by
            simp only [resultAfter, Pass.output?, hpart, Option.bind_some]
            cases part.output? <;> rfl
          simp [hpart, hresult, hnext, link]

theorem links_eq (stage : Stage) (passes : List Pass) :
    setting.links stage passes = (sites stage passes).map setting.link :=
  setting.linksFrom_append stage [] passes

end Setting

end ShaderComposer
