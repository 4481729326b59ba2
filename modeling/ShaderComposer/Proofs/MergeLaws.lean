import ShaderComposer.Program.Merge
import Mathlib.Data.List.Basic
import Mathlib.Data.List.Find
import Mathlib.Data.List.Nodup

/-!
# What merging by name computes

Merging succeeds exactly when a name stands for one thing among the declarations
that are added; the defaults may say what they like.  The result has the defaults
first, each overridden by the addition of its name, and then the additions under
new names, each once and in order of first occurrence.  The proof follows the
fold: every declaration that is added either extends this result or is the first
to contradict an earlier one.  Which one that is, and so what a failed merge blames,
does not depend on the defaults.
-/

namespace ShaderComposer

namespace Merge

section Coherent

variable {α : Type} (name : α → String)

/-- Among these declarations a name stands for one thing. -/
def Coherent (items : List α) : Prop :=
  ∀ first ∈ items, ∀ second ∈ items,
    name first = name second → first = second

theorem coherent_nil : Coherent name ([] : List α) := by
  intro first hfirst
  simp at hfirst

theorem coherent_singleton (item : α) : Coherent name [item] := by
  intro first hfirst second hsecond _
  rw [List.mem_singleton.mp hfirst, List.mem_singleton.mp hsecond]

variable {name}

theorem Coherent.of_subset
    {items part : List α} (hitems : Coherent name items) (hpart : part ⊆ items) :
    Coherent name part :=
  fun first hfirst second hsecond =>
    hitems first (hpart hfirst) second (hpart hsecond)

theorem Coherent.append_singleton
    {items : List α} (hitems : Coherent name items) {item : α}
    (hitem : ∀ other ∈ items, name other = name item → other = item) :
    Coherent name (items ++ [item]) := by
  intro first hfirst second hsecond hname
  rcases List.mem_append.mp hfirst with hfirst | hfirst
  · rcases List.mem_append.mp hsecond with hsecond | hsecond
    · exact hitems first hfirst second hsecond hname
    · rw [List.mem_singleton.mp hsecond] at hname ⊢
      exact hitem first hfirst hname
  · rw [List.mem_singleton.mp hfirst] at hname ⊢
    rcases List.mem_append.mp hsecond with hsecond | hsecond
    · exact (hitem second hsecond hname.symm).symm
    · exact (List.mem_singleton.mp hsecond).symm

theorem not_coherent_of_clash
    {before rest : List α} {item : α}
    (hclash : ∃ other ∈ before, name other = name item ∧ other ≠ item) :
    ¬ Coherent name (before ++ item :: rest) := by
  intro hcoherent
  obtain ⟨other, hother, hname, hne⟩ := hclash
  have hsame : other = item :=
    hcoherent other (List.mem_append_left _ hother) item (by simp) hname
  exact hne hsame

/-- Only one declaration is the first to contradict an earlier one. -/
theorem first_clash_unique
    {before before' after after' : List α} {item item' : α}
    (hsplit : before ++ item :: after = before' ++ item' :: after')
    (hcoherent : Coherent name before) (hcoherent' : Coherent name before')
    (hclash : ∃ other ∈ before, name other = name item ∧ other ≠ item)
    (hclash' : ∃ other ∈ before', name other = name item' ∧ other ≠ item') :
    item = item' := by
  -- The longer of the two beginnings would hold the other's contradiction.
  rcases List.append_eq_append_iff.mp hsplit with
    ⟨between, rfl, hbetween⟩ | ⟨between, rfl, hbetween⟩
  · cases between with
    | nil =>
        exact (List.cons.inj hbetween).1
    | cons head rest =>
        obtain ⟨rfl, -⟩ := List.cons.inj hbetween
        exact absurd hcoherent' (not_coherent_of_clash hclash)
  · cases between with
    | nil =>
        exact (List.cons.inj hbetween).1.symm
    | cons head rest =>
        obtain ⟨rfl, -⟩ := List.cons.inj hbetween
        exact absurd hcoherent (not_coherent_of_clash hclash')

end Coherent

section Outcome

variable {α κ : Type} [DecidableEq κ] (name : α → κ)

/-- What a name that `default` introduces stands for in the end. -/
def inForce (extra : List α) (default : α) : α :=
  (extra.find? fun item => name item = name default).getD default

def isNew (defaults : List α) (item : α) : Bool :=
  !(defaults.map name).contains (name item)

variable {name} {defaults seen extra : List α}

theorem isNew_eq_true_iff {item : α} :
    isNew name defaults item = true ↔ name item ∉ defaults.map name := by
  simp [isNew]

theorem isNew_eq_false_iff {item : α} :
    isNew name defaults item = false ↔ name item ∈ defaults.map name := by
  simp [isNew]

/-- Of items under distinct names only one has a given name. -/
theorem filter_name_eq_singleton
    {items : List α} (hdistinct : (items.map name).Nodup)
    {item : α} (hitem : item ∈ items) :
    items.filter (fun other => name other = name item) = [item] := by
  obtain ⟨before, after, rfl⟩ := List.append_of_mem hitem
  rw [List.map_append, List.map_cons, List.nodup_middle, List.nodup_cons,
    List.mem_append, not_or] at hdistinct
  have hnone {part : List α} (hpart : name item ∉ part.map name) :
      part.filter (fun other => name other = name item) = [] := by
    rw [List.filter_eq_nil_iff]
    intro other hother hname
    have hsame : name other = name item := of_decide_eq_true hname
    exact hpart (hsame ▸ List.mem_map_of_mem hother)
  rw [List.filter_append, hnone hdistinct.1.1, List.nil_append,
    List.filter_cons_of_pos (by simp), hnone hdistinct.1.2]

theorem name_inForce (name : α → κ) (extra : List α) (default : α) :
    name (inForce name extra default) = name default := by
  unfold inForce
  cases hfind : extra.find? fun item => name item = name default with
  | none =>
      rfl
  | some item =>
      simpa using List.find?_some hfind

theorem map_name_forced (name : α → κ) (defaults extra : List α) :
    (defaults.map (inForce name extra)).map name = defaults.map name := by
  rw [List.map_map]
  apply List.map_congr_left
  intro default _
  exact name_inForce name extra default

theorem inForce_mem
    {default : α} (hsome : ∃ item ∈ extra, name item = name default) :
    inForce name extra default ∈ extra := by
  unfold inForce
  cases hfind : extra.find? fun item => name item = name default with
  | none =>
      obtain ⟨item, hitem, hname⟩ := hsome
      have hnone := List.find?_eq_none.mp hfind item hitem
      simp [hname] at hnone
  | some item =>
      exact List.mem_of_find?_eq_some hfind

theorem inForce_append_of_mem
    {default : α} (rest : List α)
    (hsome : ∃ item ∈ extra, name item = name default) :
    inForce name (extra ++ rest) default = inForce name extra default := by
  unfold inForce
  rw [List.find?_append]
  cases hfind : extra.find? fun item => name item = name default with
  | none =>
      obtain ⟨item, hitem, hname⟩ := hsome
      have hnone := List.find?_eq_none.mp hfind item hitem
      simp [hname] at hnone
  | some item =>
      rfl

theorem inForce_append_of_ne
    {default item : α} (hne : name item ≠ name default) :
    inForce name (seen ++ [item]) default = inForce name seen default := by
  simp [inForce, List.find?_append, hne]

theorem inForce_append_of_eq
    {default item : α} (hname : name item = name default)
    (hseen : name item ∉ seen.map name) :
    inForce name (seen ++ [item]) default = item := by
  have hnone : seen.find? (fun other => name other = name default) = none := by
    rw [List.find?_eq_none]
    intro other hother hsame
    apply hseen
    rw [hname, ← of_decide_eq_true hsame]
    exact List.mem_map_of_mem hother
  simp [inForce, List.find?_append, hnone, hname]

variable [DecidableEq α]

variable (name) in
/-- The additions under new names, each once. -/
def additions (defaults extra : List α) : List α :=
  (extra.filter (isNew name defaults)).eraseDups

variable (name) in
/-- The defaults with what overrides them, and then everything new. -/
def outcome (defaults extra : List α) : List α :=
  defaults.map (inForce name extra) ++ additions name defaults extra

theorem mem_additions {item : α} :
    item ∈ additions name defaults extra ↔
      item ∈ extra ∧ name item ∉ defaults.map name := by
  rw [additions, List.mem_eraseDups, List.mem_filter, isNew_eq_true_iff]

theorem additions_append_new
    {item : α} (hnew : isNew name defaults item = true) (hseen : item ∉ seen) :
    additions name defaults (seen ++ [item]) =
      additions name defaults seen ++ [item] := by
  have hremove :
      [item].removeAll (seen.filter (isNew name defaults)) = [item] := by
    simp [List.removeAll, hseen]
  unfold additions
  rw [List.filter_append, List.eraseDups_append,
    List.filter_singleton, hnew, cond_true, hremove]
  rfl

theorem additions_append_old
    {item : α} (hold : isNew name defaults item = false ∨ item ∈ seen) :
    additions name defaults (seen ++ [item]) =
      additions name defaults seen := by
  unfold additions
  rw [List.filter_append, List.eraseDups_append, List.filter_singleton]
  cases hnew : isNew name defaults item with
  | false =>
      simp [List.removeAll]
  | true =>
      have hseen : item ∈ seen := by
        simpa [hnew] using hold
      have hremove :
          [item].removeAll (seen.filter (isNew name defaults)) = [] := by
        simp [List.removeAll, hseen, hnew]
      rw [cond_true, hremove]
      simp

theorem mem_outcome
    {item : α} (hitem : item ∈ outcome name defaults extra) :
    item ∈ extra ∨
      (name item ∈ defaults.map name ∧
        ∀ other ∈ extra, name other ≠ name item) := by
  rcases List.mem_append.mp hitem with hitem | hitem
  · obtain ⟨default, hdefault, rfl⟩ := List.mem_map.mp hitem
    by_cases hsome : ∃ other ∈ extra, name other = name default
    · exact .inl (inForce_mem hsome)
    · rw [name_inForce name]
      refine .inr ⟨List.mem_map_of_mem hdefault, ?_⟩
      intro other hother hname
      exact hsome ⟨other, hother, hname⟩
  · exact .inl (mem_additions.mp hitem).1

theorem mem_map_name_outcome {key : κ} :
    key ∈ (outcome name defaults extra).map name ↔
      key ∈ defaults.map name ∨ key ∈ extra.map name := by
  constructor
  · intro hkey
    obtain ⟨item, hitem, rfl⟩ := List.mem_map.mp hkey
    rcases mem_outcome hitem with hextra | ⟨hdefault, -⟩
    · exact .inr (List.mem_map_of_mem hextra)
    · exact .inl hdefault
  · intro hkey
    unfold outcome
    rw [List.map_append, List.mem_append]
    by_cases hdefault : key ∈ defaults.map name
    · left
      obtain ⟨default, hmem, rfl⟩ := List.mem_map.mp hdefault
      rw [← name_inForce name extra default]
      exact List.mem_map_of_mem (List.mem_map_of_mem hmem)
    · right
      obtain ⟨item, hitem, rfl⟩ := List.mem_map.mp (hkey.resolve_left hdefault)
      exact List.mem_map_of_mem (mem_additions.mpr ⟨hitem, hdefault⟩)

end Outcome

/-! ## The result under other names -/

section Renaming

variable {α β κ κ' : Type} [DecidableEq α] [DecidableEq β]

theorem eraseDups_map
    (f : α → β) (items : List α)
    (hinj : ∀ first ∈ items, ∀ second ∈ items, f first = f second → first = second) :
    (items.map f).eraseDups = items.eraseDups.map f := by
  match items with
  | [] =>
      rfl
  | item :: rest =>
      have hfilter :
          rest.filter ((fun other => !other == f item) ∘ f) =
            rest.filter fun other => !other == item := by
        apply List.filter_congr
        intro other hother
        by_cases heq : other = item
        · simp [heq]
        · have hne : f other ≠ f item := fun h =>
            heq (hinj other (List.mem_cons_of_mem item hother) item
              List.mem_cons_self h)
          simp [heq, hne]
      rw [List.map_cons, List.eraseDups_cons, List.eraseDups_cons, List.map_cons,
        List.filter_map, hfilter]
      congr 1
      apply eraseDups_map
      intro first hfirst second hsecond
      exact
        hinj first (List.mem_cons_of_mem item (List.mem_filter.mp hfirst).1)
          second (List.mem_cons_of_mem item (List.mem_filter.mp hsecond).1)
termination_by items.length
decreasing_by
  simp only [List.length_cons]
  have hle := List.length_filter_le (fun other => !other == item) rest
  omega

variable [DecidableEq κ] [DecidableEq κ'] (name : α → κ) (name' : β → κ')
  {defaults extra : List α}

/-- Giving the declarations other names, distinct where they were, and merging
can be done in either order. -/
theorem outcome_map
    (f : α → β)
    (hname :
      ∀ first ∈ defaults ++ extra, ∀ second ∈ defaults ++ extra,
        name' (f first) = name' (f second) ↔ name first = name second)
    (hinj : ∀ first ∈ extra, ∀ second ∈ extra, f first = f second → first = second) :
    outcome name' (defaults.map f) (extra.map f) =
      (outcome name defaults extra).map f := by
  have hforce {default : α} (hdefault : default ∈ defaults) :
      inForce name' (extra.map f) (f default) =
        f (inForce name extra default) := by
    have hfind :
        (extra.map f).find? (fun item => name' item = name' (f default)) =
          (extra.find? fun item => name item = name default).map f := by
      rw [List.find?_map]
      congr 1
      apply List.find?_congr
      intro item hitem
      have hiff :=
        hname item (List.mem_append_right defaults hitem) default
          (List.mem_append_left extra hdefault)
      simp [hiff]
    unfold inForce
    rw [hfind]
    cases extra.find? fun item => name item = name default <;> rfl
  have hnew :
      extra.filter (isNew name' (defaults.map f) ∘ f) =
        extra.filter (isNew name defaults) := by
    apply List.filter_congr
    intro item hitem
    have hiff :
        name' (f item) ∈ (defaults.map f).map name' ↔
          name item ∈ defaults.map name := by
      simp only [List.mem_map, exists_exists_and_eq_and]
      apply exists_congr
      intro default
      apply and_congr_right
      intro hdefault
      exact
        hname default (List.mem_append_left extra hdefault) item
          (List.mem_append_right defaults hitem)
    simp only [Function.comp_apply, isNew, List.contains_eq_mem, hiff]
  unfold outcome additions
  rw [List.filter_map, hnew, eraseDups_map, List.map_append, List.map_map, List.map_map]
  · congr 1
    apply List.map_congr_left
    intro default hdefault
    exact hforce hdefault
  · intro first hfirst second hsecond
    exact
      hinj first (List.mem_filter.mp hfirst).1 second
        (List.mem_filter.mp hsecond).1

end Renaming

variable {α : Type} [DecidableEq α] {name : α → String} {defaults seen extra : List α}

/-- Coherent additions all take effect. -/
theorem mem_outcome_of_mem
    (hcoherent : Coherent name extra) {item : α} (hitem : item ∈ extra) :
    item ∈ outcome name defaults extra := by
  unfold outcome
  rw [List.mem_append]
  by_cases hdefault : name item ∈ defaults.map name
  · left
    obtain ⟨default, hmem, hname⟩ := List.mem_map.mp hdefault
    have hforced : inForce name extra default ∈ extra :=
      inForce_mem ⟨item, hitem, hname.symm⟩
    have hsame : name (inForce name extra default) = name item := by
      rw [name_inForce name, hname]
    rw [← hcoherent _ hforced item hitem hsame]
    exact List.mem_map_of_mem hmem
  · exact .inr (mem_additions.mpr ⟨hitem, hdefault⟩)

/-! ## Names in the result -/

theorem nodup_eraseDups (items : List α) : items.eraseDups.Nodup := by
  match items with
  | [] =>
      exact List.nodup_nil
  | item :: rest =>
      have hrest : (rest.filter fun other => !other == item).eraseDups.Nodup :=
        nodup_eraseDups (rest.filter fun other => !other == item)
      have hitem : item ∉ (rest.filter fun other => !other == item).eraseDups := by
        rw [List.mem_eraseDups, List.mem_filter]
        simp
      rw [List.eraseDups_cons]
      exact List.nodup_cons.mpr ⟨hitem, hrest⟩
termination_by items.length
decreasing_by
  simp only [List.length_cons]
  have hle := List.length_filter_le (fun other => !other == item) rest
  omega

/-- A name stands for one declaration of the result. -/
theorem nodup_map_name_outcome
    (hdefaults : (defaults.map name).Nodup) (hcoherent : Coherent name extra) :
    ((outcome name defaults extra).map name).Nodup := by
  have hadded : ((additions name defaults extra).map name).Nodup := by
    apply List.Nodup.map_on
    · intro first hfirst second hsecond hname
      have hfirstMem : first ∈ extra := (mem_additions.mp hfirst).1
      have hsecondMem : second ∈ extra := (mem_additions.mp hsecond).1
      exact hcoherent first hfirstMem second hsecondMem hname
    · exact nodup_eraseDups _
  have hapart :
      (defaults.map name).Disjoint ((additions name defaults extra).map name) := by
    intro key hdefault hkey
    obtain ⟨item, hitem, rfl⟩ := List.mem_map.mp hkey
    exact (mem_additions.mp hitem).2 hdefault
  unfold outcome
  rw [List.map_append, map_name_forced]
  exact hdefaults.append hadded hapart

/-- The names of the defaults stand first, in their order. -/
theorem map_name_prefix_outcome :
    defaults.map name <+: (outcome name defaults extra).map name := by
  unfold outcome
  rw [List.map_append, map_name_forced]
  exact List.prefix_append _ _

/-- Without an addition under its name a default stays as it is. -/
theorem outcome_of_all_new
    (hnew : ∀ item ∈ extra, name item ∉ defaults.map name) :
    outcome name defaults extra = defaults ++ extra.eraseDups := by
  have hforced : defaults.map (inForce name extra) = defaults := by
    rw [List.map_congr_left (g := id), List.map_id]
    intro default hdefault
    have hnone : extra.find? (fun item => name item = name default) = none := by
      rw [List.find?_eq_none]
      intro item hitem hname
      have hsame : name item = name default := of_decide_eq_true hname
      exact hnew item hitem (hsame ▸ List.mem_map_of_mem hdefault)
    rw [inForce, hnone]
    rfl
  have hadded : extra.filter (isNew name defaults) = extra := by
    rw [List.filter_eq_self]
    intro item hitem
    exact isNew_eq_true_iff.mpr (hnew item hitem)
  unfold outcome additions
  rw [hforced, hadded]

/-! ## How the result grows -/

theorem outcome_append_new
    {item : α} (hdefault : name item ∉ defaults.map name)
    (hseen : item ∉ seen) :
    outcome name defaults (seen ++ [item]) =
      outcome name defaults seen ++ [item] := by
  have hforce :
      defaults.map (inForce name (seen ++ [item])) =
        defaults.map (inForce name seen) := by
    apply List.map_congr_left
    intro default hmem
    apply inForce_append_of_ne
    intro hname
    exact hdefault (hname ▸ List.mem_map_of_mem hmem)
  unfold outcome
  rw [hforce, additions_append_new (isNew_eq_true_iff.mpr hdefault) hseen,
    List.append_assoc]

theorem outcome_append_override
    {item : α} (hdefault : name item ∈ defaults.map name)
    (hseen : name item ∉ seen.map name) :
    outcome name defaults (seen ++ [item]) =
      replace name item (outcome name defaults seen) := by
  unfold outcome replace
  rw [List.map_append, List.map_map,
    additions_append_old (.inl (isNew_eq_false_iff.mpr hdefault))]
  congr 1
  · apply List.map_congr_left
    intro default _
    by_cases hname : name item = name default
    · simp [inForce_append_of_eq hname hseen, name_inForce, hname]
    · have hne : ¬ name default = name item := fun h => hname h.symm
      simp [inForce_append_of_ne hname, name_inForce, hne]
  · symm
    rw [List.map_congr_left (g := id), List.map_id]
    intro other hother
    have hne : name other ≠ name item := by
      intro hname
      exact hseen (hname ▸ List.mem_map_of_mem (mem_additions.mp hother).1)
    simp [hne]

theorem outcome_append_again
    {item : α} (hitem : item ∈ seen) :
    outcome name defaults (seen ++ [item]) = outcome name defaults seen := by
  unfold outcome
  rw [additions_append_old (.inr hitem)]
  congr 1
  apply List.map_congr_left
  intro default _
  by_cases hname : name item = name default
  · exact inForce_append_of_mem [item] ⟨item, hitem, hname⟩
  · exact inForce_append_of_ne hname

/-- Additions under new names come behind everything that is in force. -/
theorem outcome_prefix_append_of_new
    {more : List α} (hnew : ∀ item ∈ more, name item ∉ defaults.map name) :
    outcome name defaults extra <+: outcome name defaults (extra ++ more) := by
  induction more generalizing extra with
  | nil =>
      exact (List.append_nil extra).symm ▸ List.prefix_rfl
  | cons item rest ih =>
      have hfirst :
          outcome name defaults extra <+: outcome name defaults (extra ++ [item]) := by
        by_cases hseen : item ∈ extra
        · exact (outcome_append_again hseen).symm ▸ List.prefix_rfl
        · rw [outcome_append_new (hnew item List.mem_cons_self) hseen]
          exact List.prefix_append _ _
      have hrest :
          outcome name defaults (extra ++ [item]) <+:
            outcome name defaults (extra ++ [item] ++ rest) :=
        ih fun other hother => hnew other (List.mem_cons_of_mem item hother)
      rw [List.append_cons]
      exact hfirst.trans hrest

/-! ## The merge, step by step -/

/-- A merge that has gone through `seen` without contradiction. -/
structure Tracks (name : α → String) (defaults seen : List α)
    (progress : Progress α) : Prop where
  coherent : Coherent name seen
  items : progress.items = outcome name defaults seen
  replaced :
    ∀ text, text ∈ progress.replaced ↔
      text ∈ defaults.map name ∧ text ∈ seen.map name

theorem tracks_initial (name : α → String) (defaults : List α) :
    Tracks name defaults [] ⟨defaults, []⟩ := by
  constructor
  · exact coherent_nil name
  · have hforce : inForce name [] = (id : α → α) := rfl
    simp [outcome, additions, hforce]
  · simp

theorem Tracks.append_new
    {progress : Progress α} (htracks : Tracks name defaults seen progress)
    {item : α} (hdefault : name item ∉ defaults.map name)
    (hseen : name item ∉ seen.map name) :
    Tracks name defaults (seen ++ [item])
      { progress with items := progress.items ++ [item] } := by
  constructor
  · apply htracks.coherent.append_singleton
    intro other hother hname
    exact absurd (hname ▸ List.mem_map_of_mem hother) hseen
  · rw [htracks.items, outcome_append_new hdefault
      (fun hmem => hseen (List.mem_map_of_mem hmem))]
  · intro text
    rw [htracks.replaced, List.map_append, List.mem_append]
    constructor
    · intro htext
      exact ⟨htext.1, .inl htext.2⟩
    · rintro ⟨htext, hmem | hsame⟩
      · exact ⟨htext, hmem⟩
      · obtain rfl : text = name item := by simpa using hsame
        exact absurd htext hdefault

theorem Tracks.append_override
    {progress : Progress α} (htracks : Tracks name defaults seen progress)
    {item : α} (hdefault : name item ∈ defaults.map name)
    (hseen : name item ∉ seen.map name) :
    Tracks name defaults (seen ++ [item])
      ⟨replace name item progress.items, name item :: progress.replaced⟩ := by
  constructor
  · apply htracks.coherent.append_singleton
    intro other hother hname
    exact absurd (hname ▸ List.mem_map_of_mem hother) hseen
  · rw [htracks.items]
    exact (outcome_append_override hdefault hseen).symm
  · intro text
    rw [List.mem_cons, htracks.replaced, List.map_append, List.mem_append]
    constructor
    · rintro (rfl | htext)
      · exact ⟨hdefault, .inr (by simp)⟩
      · exact ⟨htext.1, .inl htext.2⟩
    · rintro ⟨htext, hmem | hsame⟩
      · exact .inr ⟨htext, hmem⟩
      · exact .inl (by simpa using hsame)

theorem Tracks.append_again
    {progress : Progress α} (htracks : Tracks name defaults seen progress)
    {item : α} (hitem : item ∈ seen) :
    Tracks name defaults (seen ++ [item]) progress := by
  constructor
  · apply htracks.coherent.append_singleton
    intro other hother hname
    exact htracks.coherent other hother item hitem hname
  · rw [htracks.items, outcome_append_again hitem]
  · intro text
    rw [htracks.replaced, List.map_append, List.mem_append]
    constructor
    · intro htext
      exact ⟨htext.1, .inl htext.2⟩
    · rintro ⟨htext, hmem | hsame⟩
      · exact ⟨htext, hmem⟩
      · obtain rfl : text = name item := by simpa using hsame
        exact ⟨htext, List.mem_map_of_mem hitem⟩

theorem Tracks.add
    {progress : Progress α} (htracks : Tracks name defaults seen progress)
    (item : α) :
    (∃ next, Merge.add name defaults progress item = .ok next ∧
      Tracks name defaults (seen ++ [item]) next) ∨
    ((∃ other ∈ seen, name other = name item ∧ other ≠ item) ∧
      Merge.add name defaults progress item = .error (name item)) := by
  unfold Merge.add
  cases hfind : progress.items.find? fun other => name other = name item with
  | none =>
      have hfresh : name item ∉ progress.items.map name := by
        rw [List.mem_map]
        rintro ⟨other, hother, hname⟩
        have hnone := List.find?_eq_none.mp hfind other hother
        simp [hname] at hnone
      rw [htracks.items, mem_map_name_outcome, not_or] at hfresh
      exact .inl ⟨_, rfl, htracks.append_new hfresh.1 hfresh.2⟩
  | some present =>
      have hname : name present = name item := by
        simpa using List.find?_some hfind
      have hpresent : present ∈ outcome name defaults seen := by
        rw [← htracks.items]
        exact List.mem_of_find?_eq_some hfind
      by_cases hfirst :
          ((defaults.map name).contains (name item) &&
            !progress.replaced.contains (name item)) = true
      · simp only [hfirst, if_true]
        simp only [Bool.and_eq_true, Bool.not_eq_true', List.contains_eq_mem,
          decide_eq_false_iff_not, decide_eq_true_eq] at hfirst
        have hseen : name item ∉ seen.map name := by
          intro hmem
          exact hfirst.2 ((htracks.replaced _).mpr ⟨hfirst.1, hmem⟩)
        exact .inl ⟨_, rfl, htracks.append_override hfirst.1 hseen⟩
      · simp only [hfirst, Bool.false_eq_true, if_false]
        have hseen : present ∈ seen := by
          rcases mem_outcome hpresent with hseen | ⟨hdefault, hnone⟩
          · exact hseen
          · -- A default that nothing has replaced would be replaced now.
            rw [hname] at hdefault hnone
            refine absurd ?_ hfirst
            have hreplaced : name item ∉ progress.replaced := by
              intro hmem
              obtain ⟨other, hother, hsame⟩ :=
                List.mem_map.mp ((htracks.replaced _).mp hmem).2
              exact hnone other hother hsame
            simpa using ⟨List.mem_map.mp hdefault, hreplaced⟩
        by_cases heq : present = item
        · subst heq
          rw [if_pos rfl]
          exact .inl ⟨_, rfl, htracks.append_again hseen⟩
        · rw [if_neg heq]
          exact .inr ⟨⟨present, hseen, hname, heq⟩, rfl⟩

/-- The fold goes on until an addition contradicts an earlier one. -/
theorem Tracks.foldlM_add
    {progress : Progress α} (htracks : Tracks name defaults seen progress)
    (rest : List α) :
    (∃ final, rest.foldlM (Merge.add name defaults) progress = .ok final ∧
      Tracks name defaults (seen ++ rest) final) ∨
    (∃ before item after, rest = before ++ item :: after ∧
      Coherent name (seen ++ before) ∧
      (∃ other ∈ seen ++ before, name other = name item ∧ other ≠ item) ∧
      rest.foldlM (Merge.add name defaults) progress = .error (name item)) := by
  induction rest generalizing seen progress with
  | nil =>
      exact .inl ⟨progress, rfl, by simpa using htracks⟩
  | cons item rest ih =>
      rcases htracks.add item with ⟨next, hnext, htracksNext⟩ | ⟨hclash, herror⟩
      · have hstep :
            (item :: rest).foldlM (Merge.add name defaults) progress =
              rest.foldlM (Merge.add name defaults) next := by
          rw [List.foldlM_cons, hnext]
          rfl
        rw [hstep]
        rcases ih htracksNext with hdone | hfailed
        · left
          simpa using hdone
        · right
          obtain ⟨before, clashing, after, hrest, hcoherent, hclash, herror⟩ := hfailed
          refine ⟨item :: before, clashing, after, ?_, ?_, ?_, herror⟩
          · rw [hrest]
            rfl
          · simpa using hcoherent
          · simpa using hclash
      · right
        refine ⟨[], item, rest, rfl, ?_, ?_, ?_⟩
        · simpa using htracks.coherent
        · simpa using hclash
        · rw [List.foldlM_cons, herror]
          rfl

theorem merge_cases (name : α → String) (defaults extra : List α) :
    (Coherent name extra ∧
      merge name defaults extra = .ok (outcome name defaults extra)) ∨
    (∃ before item after, extra = before ++ item :: after ∧
      Coherent name before ∧
      (∃ other ∈ before, name other = name item ∧ other ≠ item) ∧
      merge name defaults extra = .error (name item)) := by
  rcases (tracks_initial name defaults).foldlM_add extra with
    ⟨final, hfinal, htracks⟩ |
      ⟨before, item, after, hextra, hcoherent, hclash, herror⟩
  · rw [List.nil_append] at htracks
    refine .inl ⟨htracks.coherent, ?_⟩
    rw [merge, hfinal]
    simp [Except.map, htracks.items]
  · rw [List.nil_append] at hcoherent hclash
    refine .inr ⟨before, item, after, hextra, hcoherent, hclash, ?_⟩
    rw [merge, herror]
    rfl

theorem declarations_eq_ok_iff
    {kind : DeclarationKind} {items : List α} :
    declarations name kind defaults extra = .ok items ↔
      Coherent name extra ∧ items = outcome name defaults extra := by
  unfold declarations
  rcases merge_cases name defaults extra with
    ⟨hcoherent, hmerge⟩ | ⟨before, item, after, hextra, -, hclash, hmerge⟩
  · rw [hmerge]
    simp only [Except.mapError, Except.ok.injEq]
    constructor
    · intro hitems
      exact ⟨hcoherent, hitems.symm⟩
    · intro hitems
      exact hitems.2.symm
  · rw [hmerge]
    simp only [Except.mapError, reduceCtorEq, false_iff, not_and]
    intro hcoherent
    obtain ⟨other, hother, hname, hne⟩ := hclash
    refine absurd (hcoherent other ?_ item ?_ hname) hne
    · simp [hextra, hother]
    · simp [hextra]

theorem declarations_error
    {kind : DeclarationKind} {error : CompositionError}
    (herror : declarations name kind defaults extra = .error error) :
    ∃ first ∈ extra, ∃ second ∈ extra,
      name first = name second ∧ first ≠ second ∧
        error = .nameCollision kind (name first) := by
  unfold declarations at herror
  rcases merge_cases name defaults extra with
    ⟨-, hmerge⟩ | ⟨before, item, after, hextra, -, hclash, hmerge⟩
  · rw [hmerge] at herror
    simp [Except.mapError] at herror
  · rw [hmerge] at herror
    obtain ⟨other, hother, hname, hne⟩ := hclash
    refine ⟨other, ?_, item, ?_, hname, hne, ?_⟩
    · simp [hextra, hother]
    · simp [hextra]
    · rw [hname]
      simpa [Except.mapError] using herror.symm

end Merge

end ShaderComposer
