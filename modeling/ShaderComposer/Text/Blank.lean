/-!
# White space

Which characters count as blank, and the two questions the composer asks about
them: whether a text has anything else in it, and what is left of a line once
its trailing blanks are gone.  The class is the `White_Space` property of the
Unicode standard.
-/

namespace ShaderComposer

namespace Text

def isBlank (c : Char) : Bool :=
  let code := c.toNat
  (9 ≤ code && code ≤ 13) || code == 0x20 || code == 0x85 || code == 0xA0 ||
    code == 0x1680 || (0x2000 ≤ code && code ≤ 0x200A) || code == 0x2028 ||
    code == 0x2029 || code == 0x202F || code == 0x205F || code == 0x3000

theorem isBlank_of_isWhitespace {c : Char} (h : c.isWhitespace = true) :
    isBlank c = true := by
  simp only [Char.isWhitespace, Bool.or_eq_true, decide_eq_true_eq] at h
  rcases h with ((h | h) | h) | h <;> subst h <;> decide

def trimEnd : List Char → List Char
  | [] => []
  | c :: rest =>
    match trimEnd rest with
    | [] => if isBlank c then [] else [c]
    | kept => c :: kept

def isBlankText (text : String) : Bool :=
  text.toList.all isBlank

theorem trimEnd_eq_nil_iff (line : List Char) :
    trimEnd line = [] ↔ ∀ c ∈ line, isBlank c = true := by
  induction line with
  | nil => simp [trimEnd]
  | cons c rest ih =>
    simp only [trimEnd, List.mem_cons, forall_eq_or_imp]
    rw [← ih]
    cases hrest : trimEnd rest with
    | nil => by_cases hc : isBlank c = true <;> simp [hc]
    | cons d kept => simp

end Text

end ShaderComposer
