/-!
# Actual inputs

The expressions a call gives for the inputs of its function, by input name.  The
entries are kept in the order of their names and each name occurs once; giving
an input again replaces what was given before.
-/

namespace ShaderComposer

structure Actuals where
  entries : List (String × String)
  ascending : entries.Pairwise fun earlier later => earlier.1 < later.1
deriving DecidableEq

namespace Actuals

def empty : Actuals := ⟨[], .nil⟩

def get? (actuals : Actuals) (formal : String) : Option String :=
  actuals.entries.lookup formal

def insertEntry (formal actual : String) : List (String × String) → List (String × String)
  | [] => [(formal, actual)]
  | entry :: rest =>
    if formal < entry.1 then (formal, actual) :: entry :: rest
    else if formal = entry.1 then (formal, actual) :: rest
    else entry :: insertEntry formal actual rest

theorem fst_of_mem_insertEntry {formal actual : String} {entries : List (String × String)}
    {entry : String × String} (h : entry ∈ insertEntry formal actual entries) :
    entry.1 = formal ∨ entry ∈ entries := by
  induction entries with
  | nil =>
    simp only [insertEntry, List.mem_singleton] at h
    exact .inl (by rw [h])
  | cons head rest ih =>
    simp only [insertEntry] at h
    split at h
    · rcases List.mem_cons.mp h with rfl | hrest
      · exact .inl rfl
      · exact .inr hrest
    · split at h
      · rcases List.mem_cons.mp h with rfl | hrest
        · exact .inl rfl
        · exact .inr (List.mem_cons_of_mem _ hrest)
      · rcases List.mem_cons.mp h with rfl | hrest
        · exact .inr (by simp)
        · exact (ih hrest).imp id (List.mem_cons_of_mem _)

theorem ascending_insertEntry (formal actual : String) {entries : List (String × String)}
    (h : entries.Pairwise fun earlier later => earlier.1 < later.1) :
    (insertEntry formal actual entries).Pairwise fun earlier later => earlier.1 < later.1 := by
  induction entries with
  | nil => simp [insertEntry]
  | cons head rest ih =>
    rw [List.pairwise_cons] at h
    obtain ⟨hhead, hrest⟩ := h
    simp only [insertEntry]
    split
    · next hlt =>
      refine List.pairwise_cons.mpr ⟨?_, List.pairwise_cons.mpr ⟨hhead, hrest⟩⟩
      intro entry hentry
      rcases List.mem_cons.mp hentry with rfl | hmem
      · exact hlt
      · exact String.lt_trans hlt (hhead entry hmem)
    · next hnlt =>
      split
      · next heq =>
        subst heq
        exact List.pairwise_cons.mpr ⟨hhead, hrest⟩
      · next hne =>
        refine List.pairwise_cons.mpr ⟨?_, ih hrest⟩
        intro entry hentry
        rcases fst_of_mem_insertEntry hentry with heq | hmem
        · rw [heq]
          rcases Std.Trichotomous.rel_or_eq_or_rel_swap (r := (· < · : String → String → Prop))
            (a := head.1) (b := formal) with hlt | heq | hgt
          · exact hlt
          · exact absurd heq.symm hne
          · exact absurd hgt hnlt
        · exact hhead entry hmem

def insert (actuals : Actuals) (formal actual : String) : Actuals :=
  ⟨insertEntry formal actual actuals.entries, ascending_insertEntry _ _ actuals.ascending⟩

/-- The pairs in order, a later one replacing an earlier one of its name. -/
def ofPairs (pairs : List (String × String)) : Actuals :=
  pairs.foldl (fun actuals pair => actuals.insert pair.1 pair.2) empty

def map (f : String → String) (actuals : Actuals) : Actuals where
  entries := actuals.entries.map fun entry => (entry.1, f entry.2)
  ascending := List.pairwise_map.mpr actuals.ascending

theorem lookup_map (f : String → String) (formal : String) (entries : List (String × String)) :
    (entries.map fun entry => (entry.1, f entry.2)).lookup formal =
      (entries.lookup formal).map f := by
  induction entries with
  | nil => rfl
  | cons entry rest ih =>
    obtain ⟨name, actual⟩ := entry
    by_cases h : formal = name
    · subst h; simp
    · have hne : (formal == name) = false := by simpa using h
      simp [List.lookup_cons, hne, ih]

@[simp] theorem get?_map (f : String → String) (actuals : Actuals) (formal : String) :
    (actuals.map f).get? formal = (actuals.get? formal).map f :=
  lookup_map f formal actuals.entries

end Actuals

end ShaderComposer
