import Mathlib.Data.List.SplitBy
import ShaderComposer.Stack

/-!
# How a stack is cut into lists

The passes of a stack are cut into lists between two neighbours unless both may
share a render pass, which a pass may if it is the only one of a joinable effect.
The lists are found effect by effect, with the run of passes that may still grow
at hand.  Tagging each pass with whether it may share turns the same cut into one
of the tagged passes by a relation between neighbours, from which the place of
every pass can be read off.
-/

namespace ShaderComposer

/-- The item at a position of all lists together is in the list with the number. -/
def StandsIn {α : Type} (lists : List (List α)) (number position : Nat) : Prop :=
  (lists.take number).flatten.length ≤ position ∧
    position < (lists.take (number + 1)).flatten.length

/-- The items at a position and the next one are in one list. -/
def StandTogether {α : Type} (lists : List (List α)) (position : Nat) : Prop :=
  ∃ number, StandsIn lists number position ∧ StandsIn lists number (position + 1)

/-! ## Places in lists -/

section Places

variable {α β : Type} {head : List α} {rest lists : List (List α)} {position : Nat}

@[simp] theorem standsIn_cons_zero :
    StandsIn (head :: rest) 0 position ↔ position < head.length := by
  simp [StandsIn]

theorem standsIn_cons_succ {number : Nat} :
    StandsIn (head :: rest) (number + 1) (head.length + position) ↔
      StandsIn rest number position := by
  simp [StandsIn]

theorem length_le_of_standsIn_cons_succ {number : Nat}
    (hstands : StandsIn (head :: rest) (number + 1) position) :
    head.length ≤ position := by
  have hstart := hstands.1
  rw [List.take_succ_cons, List.flatten_cons, List.length_append] at hstart
  omega

theorem standsIn_map (f : α → β) {number : Nat} :
    StandsIn (lists.map (List.map f)) number position ↔
      StandsIn lists number position := by
  simp only [StandsIn, ← List.map_take, ← List.map_flatten, List.length_map]

theorem standTogether_map (f : α → β) :
    StandTogether (lists.map (List.map f)) position ↔ StandTogether lists position := by
  simp only [StandTogether, standsIn_map]

theorem standTogether_cons_of_lt (hlt : position + 1 < head.length) :
    StandTogether (head :: rest) position :=
  ⟨0, standsIn_cons_zero.mpr (by omega), standsIn_cons_zero.mpr hlt⟩

theorem not_standTogether_cons_of_eq (heq : position + 1 = head.length) :
    ¬ StandTogether (head :: rest) position := by
  rintro ⟨number, hfirst, hsecond⟩
  cases number with
  | zero =>
      have hlt := standsIn_cons_zero.mp hsecond
      omega
  | succ number =>
      have hle := length_le_of_standsIn_cons_succ hfirst
      omega

theorem standTogether_cons_add :
    StandTogether (head :: rest) (head.length + position) ↔
      StandTogether rest position := by
  constructor
  · rintro ⟨number, hfirst, hsecond⟩
    cases number with
    | zero =>
        have hlt := standsIn_cons_zero.mp hfirst
        omega
    | succ number =>
        rw [Nat.add_assoc] at hsecond
        exact ⟨number, standsIn_cons_succ.mp hfirst, standsIn_cons_succ.mp hsecond⟩
  · rintro ⟨number, hfirst, hsecond⟩
    refine ⟨number + 1, standsIn_cons_succ.mpr hfirst, ?_⟩
    rw [Nat.add_assoc]
    exact standsIn_cons_succ.mpr hsecond

/-- Every item is in some list, at a position of its own there. -/
theorem exists_standsIn {item : α} (hitem : lists.flatten[position]? = some item) :
    ∃ number list offset,
      lists[number]? = some list ∧ list[offset]? = some item ∧
      position = (lists.take number).flatten.length + offset ∧
      StandsIn lists number position := by
  induction lists generalizing position with
  | nil =>
      simp at hitem
  | cons head rest ih =>
      rw [List.flatten_cons] at hitem
      by_cases hlt : position < head.length
      · rw [List.getElem?_append_left hlt] at hitem
        exact ⟨0, head, position, rfl, hitem, by simp, standsIn_cons_zero.mpr hlt⟩
      · rw [List.getElem?_append_right (by omega)] at hitem
        obtain ⟨number, list, offset, hlist, hoffset, hposition, hstands⟩ := ih hitem
        obtain ⟨later, rfl⟩ := Nat.exists_eq_add_of_le (Nat.le_of_not_lt hlt)
        rw [Nat.add_sub_cancel_left] at hposition hstands
        refine
          ⟨number + 1, list, offset, hlist, hoffset, ?_, standsIn_cons_succ.mpr hstands⟩
        rw [List.take_succ_cons, List.flatten_cons, List.length_append]
        omega

/-- If all neighbours in a list are related, and those between lists are not, then
neighbours are in one list if and only if they are related. -/
theorem standTogether_iff_of_runs
    {joins : α → α → Bool} (hfilled : [] ∉ lists)
    (hruns : ∀ list ∈ lists, list.IsChain fun first second => joins first second)
    (hbreaks : lists.IsChain fun before after =>
      ∃ hbefore hafter, joins (before.getLast hbefore) (after.head hafter) = false)
    {first second : α} (hfirst : lists.flatten[position]? = some first)
    (hsecond : lists.flatten[position + 1]? = some second) :
    StandTogether lists position ↔ joins first second = true := by
  induction lists generalizing position with
  | nil =>
      simp at hfirst
  | cons head rest ih =>
      rw [List.flatten_cons] at hfirst hsecond
      rcases Nat.lt_trichotomy (position + 1) head.length with hlt | heq | hgt
      · rw [List.getElem?_append_left (by omega)] at hfirst
        rw [List.getElem?_append_left hlt] at hsecond
        obtain ⟨-, rfl⟩ := List.getElem?_eq_some_iff.mp hfirst
        obtain ⟨-, rfl⟩ := List.getElem?_eq_some_iff.mp hsecond
        have hjoined :=
          List.isChain_iff_getElem.mp (hruns head List.mem_cons_self) position hlt
        exact iff_of_true (standTogether_cons_of_lt hlt) hjoined
      · have hlast : head.getLast? = some first := by
          rw [List.getElem?_append_left (by omega)] at hfirst
          rw [List.getLast?_eq_getElem?, ← heq, Nat.add_sub_cancel]
          exact hfirst
        have hnext : rest.flatten.head? = some second := by
          rw [List.getElem?_append_right (by omega), heq, Nat.sub_self] at hsecond
          rw [List.head?_eq_getElem?]
          exact hsecond
        have hapart : joins first second = false := by
          cases rest with
          | nil =>
              simp at hnext
          | cons following others =>
              have hfollowing : following ≠ [] := by
                rintro rfl
                exact hfilled (by simp)
              rw [List.flatten_cons, List.head?_append_of_ne_nil _ hfollowing] at hnext
              obtain ⟨hbefore, hafter, hbreak⟩ := (List.isChain_cons.mp hbreaks).1 following rfl
              rw [List.getLast_of_mem_getLast? hlast, List.head_of_mem_head? hnext] at hbreak
              exact hbreak
        rw [hapart]
        exact iff_of_false (not_standTogether_cons_of_eq heq) (by decide)
      · obtain ⟨later, rfl⟩ := Nat.exists_eq_add_of_le (Nat.le_of_lt_succ hgt)
        rw [List.getElem?_append_right (by omega), Nat.add_sub_cancel_left] at hfirst
        rw [Nat.add_assoc, List.getElem?_append_right (by omega),
          Nat.add_sub_cancel_left] at hsecond
        rw [standTogether_cons_add]
        exact
          ih (fun hmem => hfilled (List.mem_cons_of_mem _ hmem))
            (fun list hlist => hruns list (List.mem_cons_of_mem _ hlist))
            hbreaks.tail hfirst hsecond

theorem standTogether_splitBy_iff
    {joins : α → α → Bool} {items : List α}
    {first second : α} (hfirst : items[position]? = some first)
    (hsecond : items[position + 1]? = some second) :
    StandTogether (items.splitBy joins) position ↔ joins first second = true := by
  rw [← List.flatten_splitBy joins items] at hfirst hsecond
  exact
    standTogether_iff_of_runs (List.nil_notMem_splitBy joins items)
      (fun _ hrun => List.isChain_of_mem_splitBy hrun)
      (List.isChain_getLast_head_splitBy joins items) hfirst hsecond

end Places

/-! ## The lists of a stack -/

/-- Whether the passes of an effect may share a render pass with their neighbours. -/
def Effect.shares (effect : Effect) (dialect : Dialect) : Bool :=
  effect.joinable && (effect.passes dialect).length == 1

namespace EffectStack

/-- Passes, each with whether it may share a render pass. -/
def tag (shares : Bool) (passes : List Pass) : List (Pass × Bool) :=
  passes.map fun pass => (pass, shares)

def taggedPasses (dialect : Dialect) (effects : List Effect) : List (Pass × Bool) :=
  effects.flatMap fun effect => tag (effect.shares dialect) (effect.passes dialect)

def shared (first second : Pass × Bool) : Bool :=
  first.2 && second.2

/-- The lists that tagged passes are cut into. -/
def cut (tagged : List (Pass × Bool)) : List (List Pass) :=
  (tagged.splitBy shared).map (List.map Prod.fst)

@[simp] theorem map_fst_tag (shares : Bool) (passes : List Pass) :
    (tag shares passes).map Prod.fst = passes := by
  simp [tag, Function.comp_def]

theorem cut_append_of_apart
    {before after : List (Pass × Bool)}
    (hapart : ∀ first ∈ before.getLast?, ∀ second ∈ after.head?,
      shared first second = false) :
    cut (before ++ after) = cut before ++ cut after := by
  unfold cut
  rw [List.splitBy_append hapart, List.map_append]

theorem cut_tag_true (pending : List Pass) :
    cut (tag true pending) = flush pending := by
  cases pending with
  | nil =>
      rfl
  | cons pass rest =>
      have hfilled : tag true (pass :: rest) ≠ [] := List.cons_ne_nil _ _
      have hchain :
          (tag true (pass :: rest)).IsChain fun first second => shared first second := by
        rw [tag, List.isChain_map, List.isChain_iff_getElem]
        intro position hposition
        rfl
      unfold cut
      rw [List.splitBy_of_isChain hfilled hchain, List.map_singleton, map_fst_tag]
      rfl

theorem cut_tag_false_append (passes : List Pass) (after : List (Pass × Bool)) :
    cut (tag false passes ++ after) = passes.map (fun pass => [pass]) ++ cut after := by
  induction passes with
  | nil =>
      rfl
  | cons pass rest ih =>
      have hapart :
          ∀ first ∈ [(pass, false)].getLast?, ∀ second ∈ (tag false rest ++ after).head?,
            shared first second = false := by
        simp [shared]
      have hsplit := cut_append_of_apart hapart
      rw [ih] at hsplit
      exact hsplit

/-- Passes that may not share end the run before them. -/
theorem cut_pending_append
    (pending : List Pass) {passes : List Pass} (hpasses : passes ≠ [])
    (after : List (Pass × Bool)) :
    cut (tag true pending ++ (tag false passes ++ after)) =
      flush pending ++ (passes.map (fun pass => [pass]) ++ cut after) := by
  have hapart :
      ∀ first ∈ (tag true pending).getLast?, ∀ second ∈ (tag false passes ++ after).head?,
        shared first second = false := by
    intro first hfirst second hsecond
    cases passes with
    | nil =>
        contradiction
    | cons pass rest =>
        obtain rfl : (pass, false) = second := by simpa [tag] using hsecond
        exact Bool.and_false _
  rw [cut_append_of_apart hapart, cut_tag_true, cut_tag_false_append]

theorem listsFrom_cons_of_shares
    {dialect : Dialect} {effect : Effect} (hshares : effect.shares dialect = true)
    (pending : List Pass) (rest : List Effect) :
    listsFrom dialect pending (effect :: rest) =
      listsFrom dialect (pending ++ effect.passes dialect) rest := by
  obtain ⟨hjoinable, hsingle⟩ :
      effect.joinable = true ∧ (effect.passes dialect).length = 1 := by
    simpa [Effect.shares] using hshares
  obtain ⟨pass, hpasses⟩ := List.length_eq_one_iff.mp hsingle
  rw [listsFrom, hpasses, hjoinable]

theorem listsFrom_cons_of_nil
    {dialect : Dialect} {effect : Effect} (hpasses : effect.passes dialect = [])
    (pending : List Pass) (rest : List Effect) :
    listsFrom dialect pending (effect :: rest) = listsFrom dialect pending rest := by
  rw [listsFrom, hpasses]

theorem listsFrom_cons_of_not_shares
    {dialect : Dialect} {effect : Effect} (hshares : effect.shares dialect = false)
    (hpasses : effect.passes dialect ≠ [])
    (pending : List Pass) (rest : List Effect) :
    listsFrom dialect pending (effect :: rest) =
      flush pending ++ (effect.passes dialect).map (fun pass => [pass]) ++
        listsFrom dialect [] rest := by
  rw [listsFrom]
  split
  · next hnil _ => contradiction
  · next pass hsingle hjoinable =>
    simp [Effect.shares, hsingle, hjoinable] at hshares
  · rfl

/-- The pending run is what has been read of the list that comes next, so it is cut
together with the passes still to come. -/
theorem listsFrom_eq_cut (dialect : Dialect) (pending : List Pass) (effects : List Effect) :
    listsFrom dialect pending effects =
      cut (tag true pending ++ taggedPasses dialect effects) := by
  -- The run grows while effects share, so the statement must hold of every run.
  induction effects generalizing pending with
  | nil =>
      rw [listsFrom, taggedPasses, List.flatMap_nil, List.append_nil, cut_tag_true]
  | cons effect rest ih =>
      rw [taggedPasses, List.flatMap_cons, ← taggedPasses]
      cases hshares : effect.shares dialect with
      | true =>
          have hgrown :
              tag true (pending ++ effect.passes dialect) =
                tag true pending ++ tag true (effect.passes dialect) :=
            List.map_append
          rw [listsFrom_cons_of_shares hshares, ih, hgrown, List.append_assoc]
      | false =>
          by_cases hpasses : effect.passes dialect = []
          · rw [listsFrom_cons_of_nil hpasses, ih, hpasses]
            rfl
          · rw [listsFrom_cons_of_not_shares hshares hpasses, ih,
              cut_pending_append pending hpasses, List.append_assoc]
            rfl

/-! ## The grouping -/

/-- The passes of a stack in order. -/
def passes (stack : EffectStack) (dialect : Dialect) : List Pass :=
  stack.effects.flatMap fun effect => effect.passes dialect

/-- For each pass of a stack, whether it is the only one of a joinable effect. -/
def sharing (stack : EffectStack) (dialect : Dialect) : List Bool :=
  stack.effects.flatMap fun effect =>
    (effect.passes dialect).map fun _ => effect.shares dialect

variable (stack : EffectStack) (dialect : Dialect)

theorem map_fst_taggedPasses :
    (taggedPasses dialect stack.effects).map Prod.fst = stack.passes dialect := by
  simp [taggedPasses, passes, List.map_flatMap]

theorem map_snd_taggedPasses :
    (taggedPasses dialect stack.effects).map Prod.snd = stack.sharing dialect := by
  simp [taggedPasses, tag, sharing, List.map_flatMap, Function.comp_def]

theorem lists_eq_cut :
    stack.lists dialect = cut (taggedPasses dialect stack.effects) :=
  listsFrom_eq_cut dialect [] stack.effects

theorem flatten_lists : (stack.lists dialect).flatten = stack.passes dialect := by
  rw [lists_eq_cut, cut, ← List.map_flatten, List.flatten_splitBy, map_fst_taggedPasses]

theorem nil_not_mem_lists : [] ∉ stack.lists dialect := by
  rw [lists_eq_cut, cut]
  intro hnil
  obtain ⟨list, hlist, hempty⟩ := List.mem_map.mp hnil
  exact List.ne_nil_of_mem_splitBy hlist (List.map_eq_nil_iff.mp hempty)

/-- Two neighbours are in one list if and only if both may share. -/
theorem standTogether_lists_iff
    {position : Nat} (hposition : position + 1 < (stack.passes dialect).length) :
    StandTogether (stack.lists dialect) position ↔
      (stack.sharing dialect)[position]? = some true ∧
        (stack.sharing dialect)[position + 1]? = some true := by
  rw [← map_fst_taggedPasses, List.length_map] at hposition
  have hfirst :=
    List.getElem?_eq_getElem (Nat.lt_of_succ_lt hposition)
  have hsecond := List.getElem?_eq_getElem hposition
  rw [lists_eq_cut, cut, standTogether_map,
    standTogether_splitBy_iff hfirst hsecond, ← map_snd_taggedPasses,
    List.getElem?_map, List.getElem?_map, hfirst, hsecond]
  simp [shared]

end EffectStack

end ShaderComposer
