import ShaderComposer.Proofs.TrimmedEnds

/-!
# What literals are made of

A literal holds digits, a point and possibly a sign, and nothing else, whatever the float
is.  So it neither ends a line nor completes any word of the text around it.  The digits of
a number begin with a zero only if they are those of zero.
-/

namespace ShaderComposer

namespace Decimal

theorem mem_of_mem_dropTrailingZeros {c : Char} {digits : List Char}
    (hc : c ∈ dropTrailingZeros digits) : c ∈ digits := by
  rw [dropTrailingZeros_eq_rdropWhile] at hc
  exact (List.rdropWhile_prefix _ digits).subset hc

theorem head?_toDigits_ne_zero {n : Nat} (hn : 0 < n) :
    (Nat.toDigits 10 n).head? ≠ some '0' := by
  induction n using Nat.strongRecOn with
  | ind n ih =>
      by_cases hsmall : n < 10
      · have hdigit : ∀ n < 10, 0 < n → [Nat.digitChar n].head? ≠ some '0' := by decide
        rw [Nat.toDigits_of_lt_base hsmall]
        exact hdigit n hsmall hn
      · have hrest : 0 < n / 10 := by omega
        rw [Nat.toDigits_of_base_le (by decide) (by omega), List.head?_append,
          List.head?_eq_some_head Nat.toDigits_ne_nil, Option.some_or,
          ← List.head?_eq_some_head]
        exact ih (n / 10) (by omega) hrest

/-- The characters of which literals are made. -/
def isLiteralChar (c : Char) : Bool :=
  c.isDigit || c == '-' || c == '.'

theorem isDigit_of_mem_padded {c : Char} {width n : Nat} (hc : c ∈ padded width n) :
    c.isDigit = true := by
  rcases List.mem_append.mp hc with hfill | hdigit
  · rw [(List.mem_replicate.mp hfill).2]
    decide
  · exact Nat.isDigit_of_mem_toDigits (by decide) (by decide) hdigit

theorem isDigit_of_mem_writtenPlaces {c : Char} {places : List Char}
    (hplaces : ∀ c ∈ places, c.isDigit = true) (hc : c ∈ writtenPlaces places) :
    c.isDigit = true := by
  unfold writtenPlaces at hc
  split at hc
  · rw [List.mem_singleton.mp hc]
    decide
  · exact hplaces c (mem_of_mem_dropTrailingZeros hc)

theorem isLiteralChar_of_mem_fixed {places : Nat} {exact : Binary.Exact} {c : Char}
    (hc : c ∈ fixed places exact) : isLiteralChar c = true := by
  have hdigit (h : c.isDigit = true) : isLiteralChar c = true := by
    simp [isLiteralChar, h]
  simp only [fixed, List.append_assoc, List.mem_append, List.mem_cons] at hc
  rcases hc with hsign | hwhole | rfl | hplace
  · split at hsign
    · rw [List.mem_singleton.mp hsign]
      decide
    · contradiction
  · exact hdigit (Nat.isDigit_of_mem_toDigits (by decide) (by decide) hwhole)
  · decide
  · exact hdigit (isDigit_of_mem_writtenPlaces (fun _ => isDigit_of_mem_padded) hplace)

theorem isLiteralChar_of_mem_literal {x : Float32} {c : Char} (hc : c ∈ (literal x).toList) :
    isLiteralChar c = true := by
  unfold literal at hc
  split at hc
  · rw [String.toList_ofList] at hc
    exact isLiteralChar_of_mem_fixed hc
  · have hzero : "0.0".toList.all isLiteralChar = true := by decide
    exact List.all_eq_true.mp hzero c hc

theorem literal_toList_ne_nil (x : Float32) : (literal x).toList ≠ [] := by
  unfold literal
  split
  · simp [fixed]
  · decide

end Decimal

end ShaderComposer
