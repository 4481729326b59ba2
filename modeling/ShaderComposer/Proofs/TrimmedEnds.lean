import ShaderComposer.Decimal.Fixed
import ShaderComposer.Text.Blank
import Mathlib.Data.List.DropRight

/-!
# What is cut off at the end

Blanks at the end of a line and zeros at the end of a decimal are cut off in one pass
through the list, each element once it is known what is left behind it.  What is left is
the list without the run of such elements at its end.
-/

namespace ShaderComposer

theorem rdropWhile_cons_of_eq_nil
    {α : Type} {p : α → Bool} {tail : List α} (htail : tail.rdropWhile p = []) (head : α) :
    (head :: tail).rdropWhile p = if p head then [] else [head] := by
  have hall : tail.reverse.dropWhile p = [] := by
    simpa [List.rdropWhile] using htail
  rw [List.rdropWhile, List.reverse_cons, List.dropWhile_append, hall]
  by_cases hhead : p head = true <;> simp [hhead]

theorem rdropWhile_cons_of_ne_nil
    {α : Type} {p : α → Bool} {tail : List α} (htail : tail.rdropWhile p ≠ []) (head : α) :
    (head :: tail).rdropWhile p = head :: tail.rdropWhile p := by
  have hsome : (tail.reverse.dropWhile p).isEmpty = false := by
    simpa [List.rdropWhile] using htail
  rw [List.rdropWhile, List.reverse_cons, List.dropWhile_append, hsome]
  simp [List.rdropWhile]

theorem Text.trimEnd_eq_rdropWhile (line : List Char) :
    trimEnd line = line.rdropWhile isBlank := by
  induction line with
  | nil =>
      rfl
  | cons c rest ih =>
      rw [trimEnd, ih]
      split
      · next hrest =>
        rw [rdropWhile_cons_of_eq_nil hrest]
      · next hrest =>
        rw [rdropWhile_cons_of_ne_nil hrest]

theorem Decimal.dropTrailingZeros_eq_rdropWhile (digits : List Char) :
    dropTrailingZeros digits = digits.rdropWhile (· == '0') := by
  induction digits with
  | nil =>
      rfl
  | cons digit rest ih =>
      rw [dropTrailingZeros, ih]
      split
      · next hrest =>
        rw [rdropWhile_cons_of_eq_nil hrest]
        simp
      · next hrest =>
        rw [rdropWhile_cons_of_ne_nil hrest]

end ShaderComposer
