import ShaderComposer.Text.Blank

/-!
# Lines and indentation

Shader text is assembled from pieces put one after the other with a separator,
and from blocks that are indented as a whole.  Indenting a block keeps every
line's own leading white space, drops the trailing one, and leaves a blank line
empty, so the text of a block does not depend on how its lines were ended.
-/

namespace ShaderComposer

namespace Text

def joinWith (separator : String) : List String → String
  | [] => ""
  | [piece] => piece
  | piece :: next :: rest => piece ++ separator ++ joinWith separator (next :: rest)

/-- The lines of a text.  Each ends at a line feed, which belongs to none of
them; a final line feed opens no further line. -/
def lines : List Char → List (List Char)
  | [] => []
  | c :: rest =>
    if c = '\n' then [] :: lines rest
    else
      match lines rest with
      | [] => [[c]]
      | line :: more => (c :: line) :: more

def indentStep : String := "    "

def indentation : Nat → String
  | 0 => ""
  | levels + 1 => indentStep ++ indentation levels

/-- A line set in by `levels` steps.  Trailing blanks go first, so a carriage
return before the line feed goes with them. -/
def indentLine (levels : Nat) (line : List Char) : String :=
  match trimEnd line with
  | [] => ""
  | kept => indentation levels ++ String.ofList kept

def indent (levels : Nat) (source : String) : String :=
  joinWith "\n" ((lines source.toList).map (indentLine levels))

@[simp] theorem lines_nil : lines [] = [] := rfl

theorem lines_ne_nil {text : List Char} (h : text ≠ []) : lines text ≠ [] := by
  cases text with
  | nil => exact absurd rfl h
  | cons c rest =>
    simp only [lines]
    split
    · simp
    · cases lines rest <;> simp

theorem not_mem_of_mem_lines {text line : List Char} (h : line ∈ lines text) :
    '\n' ∉ line := by
  induction text generalizing line with
  | nil => simp at h
  | cons c rest ih =>
    simp only [lines] at h
    split at h
    · rcases List.mem_cons.mp h with rfl | hrest
      · simp
      · exact ih hrest
    · next hc =>
      cases hlines : lines rest with
      | nil =>
        simp only [hlines, List.mem_singleton] at h
        subst h
        simpa using fun heq => hc heq.symm
      | cons first more =>
        simp only [hlines, List.mem_cons] at h
        rcases h with rfl | hmore
        · have hfirst : '\n' ∉ first := ih (by simp [hlines])
          simp only [List.mem_cons, not_or]
          exact ⟨fun heq => hc heq.symm, hfirst⟩
        · exact ih (by simp [hlines, hmore])

end Text

end ShaderComposer
