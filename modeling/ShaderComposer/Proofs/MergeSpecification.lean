import ShaderComposer.Proofs.MergeLaws
import ShaderComposer.Shading.Catalog
import Mathlib.Data.List.Forall2

/-!
# Merging by name, said without the merge

The specification knows no progress and no replaced names.  It says what stands in
the place of each default, and that the rest are the additions under new names, in
the order in which they first occur.  A merge fails at the first addition that
differs from an earlier one of its name.  Both depend on the additions as a set with
an order of first occurrence, so an addition that comes again changes nothing.
-/

namespace ShaderComposer

namespace Merge

section Specification

variable {α κ : Type} [DecidableEq κ]

/-- What stands in the place of a default: the addition of its name, or else the
default itself. -/
def StandsFor (name : α → κ) (extra : List α) (default item : α) : Prop :=
  (item ∈ extra ∧ name item = name default) ∨
    (item = default ∧ name default ∉ extra.map name)

/-- The defaults as they are in force, and then every new declaration once. -/
def Specified [DecidableEq α] (name : α → κ) (defaults extra items : List α) : Prop :=
  ∃ leading added, items = leading ++ added ∧
    List.Forall₂ (StandsFor name extra) defaults leading ∧
    added = (extra.filter fun item => name item ∉ defaults.map name).eraseDups

theorem standsFor_inForce (name : α → κ) (extra : List α) (default : α) :
    StandsFor name extra default (inForce name extra default) := by
  by_cases hsome : ∃ item ∈ extra, name item = name default
  · exact .inl ⟨inForce_mem hsome, name_inForce name extra default⟩
  · right
    have hnone : extra.find? (fun item => name item = name default) = none := by
      rw [List.find?_eq_none]
      intro item hitem hname
      exact hsome ⟨item, hitem, of_decide_eq_true hname⟩
    constructor
    · rw [inForce, hnone]
      rfl
    · intro hmem
      exact hsome (by simpa using hmem)

theorem specified_outcome [DecidableEq α] (name : α → κ) (defaults extra : List α) :
    Specified name defaults extra (outcome name defaults extra) := by
  refine ⟨_, _, rfl, ?_, ?_⟩
  · rw [List.forall₂_map_right_iff, List.forall₂_same]
    intro default _
    exact standsFor_inForce name extra default
  · unfold additions
    congr 1
    apply List.filter_congr
    intro item _
    rw [isNew, List.contains_eq_mem, decide_not]

end Specification

section Repetition

variable {α : Type} {name : α → String} {defaults extra : List α}

theorem coherent_append_of_subset {again : List α} (hagain : again ⊆ extra) :
    Coherent name (extra ++ again) ↔ Coherent name extra := by
  constructor
  · intro hcoherent
    exact hcoherent.of_subset (List.subset_append_left extra again)
  · intro hcoherent
    exact hcoherent.of_subset (List.append_subset.mpr ⟨List.Subset.refl extra, hagain⟩)

variable [DecidableEq α]

/-- Declarations in force are the additions and the defaults that none overrides. -/
theorem mem_outcome_iff (hcoherent : Coherent name extra) {item : α} :
    item ∈ outcome name defaults extra ↔
      item ∈ extra ∨
        (item ∈ defaults ∧ ∀ other ∈ extra, name other ≠ name item) := by
  constructor
  · intro hitem
    rcases List.mem_append.mp hitem with hforced | hadded
    · obtain ⟨default, hdefault, rfl⟩ := List.mem_map.mp hforced
      rcases standsFor_inForce name extra default with ⟨hextra, -⟩ | ⟨hsame, hfree⟩
      · exact .inl hextra
      · right
        rw [hsame]
        refine ⟨hdefault, ?_⟩
        intro other hother hname
        exact hfree (hname ▸ List.mem_map_of_mem hother)
    · exact .inl (mem_additions.mp hadded).1
  · rintro (hextra | ⟨hdefault, hfree⟩)
    · exact mem_outcome_of_mem hcoherent hextra
    · rcases standsFor_inForce name extra item with ⟨hextra, hname⟩ | ⟨hsame, -⟩
      · exact absurd hname (hfree _ hextra)
      · apply List.mem_append_left
        rw [← hsame]
        exact List.mem_map_of_mem hdefault

theorem outcome_append_of_subset {again : List α} (hagain : again ⊆ extra) :
    outcome name defaults (extra ++ again) = outcome name defaults extra := by
  induction again generalizing extra with
  | nil =>
      rw [List.append_nil]
  | cons item rest ih =>
      have hitem : item ∈ extra := hagain List.mem_cons_self
      have hrest : rest ⊆ extra ++ [item] := by
        intro other hother
        exact List.mem_append_left _ (hagain (List.mem_cons_of_mem item hother))
      rw [List.append_cons, ih hrest, outcome_append_again hitem]

/-- A merge that fails blames the first addition that differs from an earlier one. -/
theorem declarations_error_first
    {kind : DeclarationKind} {error : CompositionError}
    (herror : declarations name kind defaults extra = .error error) :
    ∃ before item after, extra = before ++ item :: after ∧
      Coherent name before ∧
      (∃ other ∈ before, name other = name item ∧ other ≠ item) ∧
      error = .nameCollision kind (name item) := by
  unfold declarations at herror
  rcases merge_cases name defaults extra with
    ⟨-, hmerge⟩ | ⟨before, item, after, hextra, hcoherent, hclash, hmerge⟩
  · rw [hmerge] at herror
    contradiction
  · rw [hmerge] at herror
    exact ⟨before, item, after, hextra, hcoherent, hclash, (Except.error.inj herror).symm⟩

theorem declarations_append_of_subset
    (kind : DeclarationKind) {again : List α} (hagain : again ⊆ extra) :
    declarations name kind defaults (extra ++ again) =
      declarations name kind defaults extra := by
  cases hmerged : declarations name kind defaults extra with
  | ok items =>
      have hitems := declarations_eq_ok_iff.mp hmerged
      rw [declarations_eq_ok_iff, coherent_append_of_subset hagain,
        outcome_append_of_subset hagain]
      exact hitems
  | error error =>
      obtain ⟨before, item, after, hextra, hcoherent, hclash, rfl⟩ :=
        declarations_error_first hmerged
      cases hlonger : declarations name kind defaults (extra ++ again) with
      | ok items =>
          have hlongerCoherent := (declarations_eq_ok_iff.mp hlonger).1
          rw [coherent_append_of_subset hagain, hextra] at hlongerCoherent
          exact absurd hlongerCoherent (not_coherent_of_clash hclash)
      | error error =>
          obtain ⟨before', item', after', hextra', hcoherent', hclash', rfl⟩ :=
            declarations_error_first hlonger
          have hsplit :
              before ++ item :: (after ++ again) = before' ++ item' :: after' := by
            rw [← hextra', hextra, List.append_assoc, List.cons_append]
          rw [first_clash_unique hsplit hcoherent hcoherent' hclash hclash']

end Repetition

variable {α : Type} [DecidableEq α] {name : α → String} {defaults : List α}

/-- Merging does what is specified whenever the additions agree with one another, says
which one is the first that does not, and takes no notice of repetitions. -/
theorem declarations_meet_specification
    (kind : DeclarationKind) (hdefaults : (defaults.map name).Nodup) (extra : List α) :
    ((∃ items, declarations name kind defaults extra = .ok items) ↔
      ∀ first ∈ extra, ∀ second ∈ extra, name first = name second → first = second) ∧
    (∀ items, declarations name kind defaults extra = .ok items →
      Specified name defaults extra items ∧ (items.map name).Nodup) ∧
    (∀ error, declarations name kind defaults extra = .error error →
      ∃ before item after, extra = before ++ item :: after ∧
        Coherent name before ∧
        (∃ other ∈ before, name other = name item ∧ other ≠ item) ∧
        error = .nameCollision kind (name item)) ∧
    (∀ again, again ⊆ extra →
      declarations name kind defaults (extra ++ again) =
        declarations name kind defaults extra) := by
  refine ⟨?_, ?_, ?_, ?_⟩
  · constructor
    · rintro ⟨items, hitems⟩
      exact (declarations_eq_ok_iff.mp hitems).1
    · intro hcoherent
      exact ⟨_, declarations_eq_ok_iff.mpr ⟨hcoherent, rfl⟩⟩
  · intro items hitems
    obtain ⟨hcoherent, rfl⟩ := declarations_eq_ok_iff.mp hitems
    exact
      ⟨specified_outcome name defaults extra,
        nodup_map_name_outcome hdefaults hcoherent⟩
  · intro error herror
    exact declarations_error_first herror
  · intro again hagain
    exact declarations_append_of_subset kind hagain

end Merge

/-- Declarations of which one puts a struct in the place of a default, twice. -/
def StructDecl.widened : List StructDecl :=
  [⟨"CCVertex", "float4 position;"⟩, ⟨"Tint", "half4 color;"⟩,
    ⟨"CCVertex", "float4 position;"⟩]

theorem widened_meet_specification :
    ((Catalog.structs .metal).map StructDecl.name).Nodup ∧
      (∃ items,
        Merge.declarations StructDecl.name .struct (Catalog.structs .metal)
            StructDecl.widened =
          .ok items ∧
        Merge.Specified StructDecl.name (Catalog.structs .metal) StructDecl.widened items) ∧
      -- repeating a default counts as an addition, which the next one contradicts
      ¬ ∃ items,
        Merge.declarations StructDecl.name .struct (Catalog.structs .metal)
            (Catalog.structs .metal ++ StructDecl.widened) =
          .ok items := by
  have hdefaults : ((Catalog.structs .metal).map StructDecl.name).Nodup :=
    Catalog.nodup_structNames .metal
  obtain ⟨hwidened, hspecified, -, -⟩ :=
    Merge.declarations_meet_specification .struct hdefaults StructDecl.widened
  obtain ⟨hrepeated, -, -, -⟩ :=
    Merge.declarations_meet_specification .struct hdefaults
      (Catalog.structs .metal ++ StructDecl.widened)
  refine ⟨hdefaults, ?_, ?_⟩
  · obtain ⟨items, hitems⟩ := hwidened.mpr (by decide)
    exact ⟨items, hitems, (hspecified items hitems).1⟩
  · rw [hrepeated]
    decide

end ShaderComposer
