/-!
# Identifiers

The names a C-family shading language accepts: an ASCII letter or an underscore,
then letters, digits and underscores.
-/

namespace ShaderComposer

namespace Text

def isIdentifierStart (c : Char) : Bool :=
  c.isAlpha || c == '_'

def isIdentifierPart (c : Char) : Bool :=
  c.isAlphanum || c == '_'

/-- Whether a text can begin the name of a shader variable. -/
def isIdentifier (text : String) : Bool :=
  match text.toList with
  | [] => false
  | first :: rest => isIdentifierStart first && rest.all isIdentifierPart

theorem isIdentifier_append
    {first second : String} (hfirst : isIdentifier first = true)
    (hsecond : second.toList.all isIdentifierPart = true) :
    isIdentifier (first ++ second) = true := by
  unfold isIdentifier at hfirst ⊢
  rw [String.toList_append]
  cases hlist : first.toList with
  | nil =>
    rw [hlist] at hfirst
    contradiction
  | cons head rest =>
    rw [hlist] at hfirst
    have hparts := Bool.and_eq_true_iff.mp hfirst
    simp only [List.cons_append, List.all_append, Bool.and_eq_true]
    exact ⟨hparts.1, hparts.2, hsecond⟩

theorem isIdentifierPart_of_mem_numeral
    {index : Nat} {c : Char} (hc : c ∈ (toString index).toList) :
    isIdentifierPart c = true := by
  have hdigit : c.isDigit = true := by
    apply Nat.isDigit_of_mem_toDigits (b := 10) (by decide) (by decide)
    simpa using hc
  simp [isIdentifierPart, Char.isAlphanum, hdigit]

end Text

end ShaderComposer
