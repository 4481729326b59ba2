import ShaderComposer.Composition.Mangling

/-!
# Mangled names are apart from each other and from the catalog

A stem ends in the decimal index of its effect and an underscore.  Numerals hold
no underscore, so the first underscore behind the common stem tells the index,
and what follows is the local name.  No name of the catalog has a digit in front
of an underscore, so no mangled name can be one of them, whatever stem and local
name it was made of.
-/

namespace ShaderComposer

/-- Two texts cut at their first mark agree on both sides of it. -/
theorem append_mark_inj
    {α : Type} {mark : α} {before₁ before₂ after₁ after₂ : List α}
    (hfirst : mark ∉ before₁) (hsecond : mark ∉ before₂)
    (heq : before₁ ++ mark :: after₁ = before₂ ++ mark :: after₂) :
    before₁ = before₂ ∧ after₁ = after₂ := by
  induction before₁ generalizing before₂ with
  | nil =>
      cases before₂ with
      | nil =>
          simpa using heq
      | cons head rest =>
          have hhead : mark = head := by
            simpa using (List.cons.inj heq).1
          exact absurd (by simp [hhead]) hsecond
  | cons head rest ih =>
      cases before₂ with
      | nil =>
          have hhead : head = mark := by
            simpa using (List.cons.inj heq).1
          exact absurd (by simp [hhead]) hfirst
      | cons other others =>
          obtain ⟨rfl, htail⟩ := List.cons.inj heq
          simp only [List.mem_cons, not_or] at hfirst hsecond
          obtain ⟨rfl, hafter⟩ := ih hfirst.2 hsecond.2 htail
          exact ⟨rfl, hafter⟩

theorem toDigits_ten_inj
    {first second : Nat}
    (h : Nat.toDigits 10 first = Nat.toDigits 10 second) :
    first = second := by
  have hvalue :=
    congrArg (fun digits => Nat.ofDigitChars 10 digits 0) h
  simpa using hvalue

theorem toList_effectStem_append
    (stem : String) (index : Nat) (name : String) :
    (effectStem stem index ++ name).toList =
      stem.toList ++ (Nat.toDigits 10 index ++ '_' :: name.toList) := by
  simp [effectStem]

/-- A mangled name tells the index of its effect and its local name. -/
theorem effectStem_append_inj
    {stem : String} {first second : Nat} {name₁ name₂ : String}
    (h : effectStem stem first ++ name₁ = effectStem stem second ++ name₂) :
    first = second ∧ name₁ = name₂ := by
  have hlists := congrArg String.toList h
  rw [toList_effectStem_append, toList_effectStem_append] at hlists
  have hcut :=
    append_mark_inj Nat.underscore_not_in_toDigits
      Nat.underscore_not_in_toDigits (List.append_cancel_left hlists)
  exact ⟨toDigits_ten_inj hcut.1, String.toList_inj.mp hcut.2⟩

/-- Whether some digit of a text stands in front of an underscore. -/
def holdsStemMark : List Char → Bool
  | first :: second :: rest =>
    (first.isDigit && second == '_') || holdsStemMark (second :: rest)
  | _ => false

theorem holdsStemMark_append
    (before : List Char) {digit : Char} (hdigit : digit.isDigit = true)
    (after : List Char) :
    holdsStemMark (before ++ digit :: '_' :: after) = true := by
  induction before with
  | nil =>
      simp [holdsStemMark, hdigit]
  | cons first rest ih =>
      cases rest with
      | nil =>
          simp [holdsStemMark, hdigit]
      | cons second others =>
          simp only [List.cons_append, holdsStemMark, Bool.or_eq_true]
          exact .inr ih

theorem holdsStemMark_mangled
    (stem : String) (index : Nat) (name : String) :
    holdsStemMark (effectStem stem index ++ name).toList = true := by
  rw [toList_effectStem_append]
  -- The last digit of the numeral is the one in front of the underscore.
  obtain ⟨digits, last, hdigits⟩ :
      ∃ digits last, Nat.toDigits 10 index = digits ++ [last] :=
    ⟨_, _, (List.dropLast_concat_getLast Nat.toDigits_ne_nil).symm⟩
  have hlast : last.isDigit = true := by
    have hmem : last ∈ Nat.toDigits 10 index := by
      rw [hdigits]
      simp
    exact
      Nat.isDigit_of_mem_toDigits (b := 10) (by decide) (by decide) hmem
  rw [hdigits]
  simpa using
    holdsStemMark_append (stem.toList ++ digits) hlast name.toList

namespace Catalog

theorem holdsStemMark_argumentNames
    {dialect : Dialect} {stage : Stage} {name : String}
    (hname : name ∈ argumentNames dialect stage) :
    holdsStemMark name.toList = false := by
  revert name
  cases dialect <;> cases stage <;> decide

theorem holds_mangled
    (dialect : Dialect) (stage : Stage)
    (stem : String) (index : Nat) (name : String) :
    holds dialect stage (effectStem stem index ++ name) = false := by
  rw [holds, Bool.eq_false_iff]
  intro hholds
  have hmark :=
    holdsStemMark_argumentNames (List.contains_iff_mem.mp hholds)
  rw [holdsStemMark_mangled] at hmark
  contradiction

end Catalog

end ShaderComposer
