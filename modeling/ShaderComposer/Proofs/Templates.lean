import ShaderComposer.Text.Lines
import Mathlib.Data.List.Basic

/-!
# Texts with open places

A template is a text in which some places are left open, each marked with the
position of the pass whose stem goes there.  A stem is a word without blanks, and
such a word is neither broken nor trimmed.  So a text can be broken into lines,
freed of trailing blanks and indented before its places are filled.
-/

namespace ShaderComposer

namespace Text

/-- A word that no line break and no trimming touches. -/
structure Solid (word : String) : Prop where
  nonempty : word.toList ≠ []
  visible : ∀ c ∈ word.toList, isBlank c = false

theorem trimEnd_append_of_visible
    {word : List Char} (hvisible : ∀ c ∈ word, isBlank c = false)
    (rest : List Char) :
    trimEnd (word ++ rest) = word ++ trimEnd rest := by
  induction word with
  | nil =>
      rfl
  | cons c word ih =>
      have hc : isBlank c = false := hvisible c List.mem_cons_self
      have htail : trimEnd (word ++ rest) = word ++ trimEnd rest :=
        ih fun d hd => hvisible d (List.mem_cons_of_mem c hd)
      rw [List.cons_append, trimEnd, htail, List.cons_append]
      cases word ++ trimEnd rest with
      | nil =>
          simp [hc]
      | cons d kept =>
          rfl

theorem lines_cons_of_ne
    {c : Char} (hc : c ≠ '\n') (rest : List Char) :
    lines (c :: rest) =
      (c :: (lines rest).headD []) :: (lines rest).tail := by
  rw [lines, if_neg hc]
  cases lines rest with
  | nil =>
      rfl
  | cons line more =>
      rfl

theorem lines_append_of_ne
    {word : List Char} (hword : word ≠ [])
    (hbreaks : ∀ c ∈ word, c ≠ '\n') (rest : List Char) :
    lines (word ++ rest) =
      (word ++ (lines rest).headD []) :: (lines rest).tail := by
  induction word with
  | nil =>
      contradiction
  | cons c word ih =>
      have hc : c ≠ '\n' := hbreaks c List.mem_cons_self
      rw [List.cons_append, lines_cons_of_ne hc]
      by_cases hempty : word = []
      · simp [hempty]
      · rw [ih hempty fun d hd => hbreaks d (List.mem_cons_of_mem c hd)]
        rfl

end Text

/-- A character of a template, or a place for the stem of a position. -/
inductive Symbol where
  | literal (c : Char)
  | hole (position : Nat)

namespace Symbol

def expand (words : Nat → String) : Symbol → List Char
  | literal c => [c]
  | hole position => (words position).toList

def isBlank : Symbol → Bool
  | literal c => Text.isBlank c
  | hole _ => false

def breaksLine : Symbol → Bool
  | literal c => c == '\n'
  | hole _ => false

def renumber (move : Nat → Nat) : Symbol → Symbol
  | literal c => literal c
  | hole position => hole (move position)

end Symbol

abbrev Template := List Symbol

namespace Template

def expand (words : Nat → String) (template : Template) : List Char :=
  template.flatMap (Symbol.expand words)

def fill (words : Nat → String) (template : Template) : String :=
  String.ofList (template.expand words)

/-- A text without open places. -/
def closed (text : String) : Template :=
  text.toList.map .literal

def joinWith (separator : String) : List Template → Template
  | [] => []
  | [piece] => piece
  | piece :: next :: rest =>
    piece ++ closed separator ++ joinWith separator (next :: rest)

def trimEnd : Template → Template
  | [] => []
  | symbol :: rest =>
    match trimEnd rest with
    | [] => if symbol.isBlank then [] else [symbol]
    | kept => symbol :: kept

def lines : Template → List Template
  | [] => []
  | symbol :: rest =>
    if symbol.breaksLine then [] :: lines rest
    else (symbol :: (lines rest).headD []) :: (lines rest).tail

def indentLine (levels : Nat) (line : Template) : Template :=
  match trimEnd line with
  | [] => []
  | kept => closed (Text.indentation levels) ++ kept

def indent (levels : Nat) (template : Template) : Template :=
  joinWith "\n" (template.lines.map (indentLine levels))

/-- The template for words that stand at moved positions. -/
def renumber (move : Nat → Nat) (template : Template) : Template :=
  template.map (Symbol.renumber move)

/-! ## Filling -/

variable (words : Nat → String)

@[simp] theorem expand_nil : expand words [] = [] := rfl

@[simp] theorem expand_cons (symbol : Symbol) (rest : Template) :
    expand words (symbol :: rest) = symbol.expand words ++ expand words rest :=
  List.flatMap_cons

@[simp] theorem expand_append (first second : Template) :
    expand words (first ++ second) =
      expand words first ++ expand words second :=
  List.flatMap_append

@[simp] theorem expand_closed (text : String) :
    expand words (closed text) = text.toList := by
  simp [expand, closed, List.flatMap_map, Symbol.expand]

@[simp] theorem fill_append (first second : Template) :
    fill words (first ++ second) = fill words first ++ fill words second := by
  simp [fill]

@[simp] theorem fill_closed (text : String) :
    fill words (closed text) = text := by
  simp [fill]

@[simp] theorem fill_hole (position : Nat) :
    fill words [.hole position] = words position := by
  simp [fill, Symbol.expand]

theorem fill_renumber (move : Nat → Nat) (template : Template) :
    fill words (template.renumber move) = fill (words ∘ move) template := by
  unfold fill expand renumber
  rw [List.flatMap_map]
  congr 2
  funext symbol
  cases symbol <;> rfl

theorem fill_joinWith (separator : String) (pieces : List Template) :
    fill words (joinWith separator pieces) =
      Text.joinWith separator (pieces.map (fill words)) := by
  induction pieces with
  | nil =>
      rfl
  | cons piece rest ih =>
      cases rest with
      | nil =>
          rfl
      | cons next rest =>
          rw [joinWith, fill_append, fill_append, fill_closed, ih]
          rfl

/-! ## Filling with solid words -/

variable {words} (hsolid : ∀ position, Text.Solid (words position))

include hsolid

theorem expand_eq_nil_iff {template : Template} :
    expand words template = [] ↔ template = [] := by
  cases template with
  | nil =>
      simp
  | cons symbol rest =>
      cases symbol with
      | literal c =>
          simp [Symbol.expand]
      | hole position =>
          have hnonempty := (hsolid position).nonempty
          simp [Symbol.expand, hnonempty]

theorem expand_trimEnd (template : Template) :
    expand words (trimEnd template) =
      Text.trimEnd (expand words template) := by
  induction template with
  | nil =>
      rfl
  | cons symbol rest ih =>
      cases symbol with
      | literal c =>
          rw [expand_cons, trimEnd, Symbol.expand, List.singleton_append,
            Text.trimEnd, ← ih]
          cases hrest : trimEnd rest with
          | nil =>
              by_cases hc : Text.isBlank c = true
              · simp [Symbol.isBlank, hc]
              · simp [Symbol.isBlank, hc, Symbol.expand]
          | cons other kept =>
              have hkept : expand words (other :: kept) ≠ [] :=
                (expand_eq_nil_iff hsolid).not.mpr (List.cons_ne_nil other kept)
              obtain ⟨d, others, hexpand⟩ := List.exists_cons_of_ne_nil hkept
              simp [hexpand, Symbol.expand]
      | hole position =>
          rw [expand_cons, trimEnd, Symbol.expand,
            Text.trimEnd_append_of_visible (hsolid position).visible, ← ih]
          cases trimEnd rest with
          | nil =>
              simp [Symbol.isBlank, Symbol.expand]
          | cons other kept =>
              simp [Symbol.expand]

theorem map_expand_lines (template : Template) :
    template.lines.map (expand words) =
      Text.lines (expand words template) := by
  induction template with
  | nil =>
      rfl
  | cons symbol rest ih =>
      have hfirst :
          expand words ((lines rest).headD []) =
            (Text.lines (expand words rest)).headD [] := by
        rw [← ih]
        cases lines rest <;> rfl
      have hothers :
          (lines rest).tail.map (expand words) =
            (Text.lines (expand words rest)).tail := by
        rw [← ih, List.map_tail]
      cases symbol with
      | literal c =>
          by_cases hc : c = '\n'
          · simp [lines, Symbol.breaksLine, Symbol.expand, hc, ih, Text.lines]
          · have hkeeps : (Symbol.literal c).breaksLine = false := by
              simp [Symbol.breaksLine, hc]
            rw [lines, hkeeps, expand_cons, Symbol.expand, List.singleton_append,
              Text.lines_cons_of_ne hc, ← hfirst, ← hothers]
            rfl
      | hole position =>
          have hbreaks : ∀ c ∈ (words position).toList, c ≠ '\n' := by
            rintro c hc rfl
            have hblank := (hsolid position).visible '\n' hc
            simp [Text.isBlank] at hblank
          rw [expand_cons, Symbol.expand,
            Text.lines_append_of_ne (hsolid position).nonempty hbreaks,
            ← hfirst, ← hothers]
          rfl

theorem fill_indentLine (levels : Nat) (line : Template) :
    fill words (indentLine levels line) =
      Text.indentLine levels (expand words line) := by
  unfold indentLine Text.indentLine
  rw [← expand_trimEnd hsolid]
  cases trimEnd line with
  | nil =>
      rfl
  | cons symbol kept =>
      have hkept : expand words (symbol :: kept) ≠ [] :=
        (expand_eq_nil_iff hsolid).not.mpr (List.cons_ne_nil symbol kept)
      obtain ⟨c, others, hexpand⟩ := List.exists_cons_of_ne_nil hkept
      simp only [fill_append, fill_closed, hexpand]
      rw [fill, hexpand]

/-- Indenting before or after the places are filled is the same. -/
theorem fill_indent (levels : Nat) (template : Template) :
    fill words (template.indent levels) =
      Text.indent levels (fill words template) := by
  have hlines :
      (template.lines.map (indentLine levels)).map (fill words) =
        (Text.lines (expand words template)).map (Text.indentLine levels) := by
    rw [← map_expand_lines hsolid, List.map_map, List.map_map]
    apply List.map_congr_left
    intro line _
    exact fill_indentLine hsolid levels line
  rw [indent, fill_joinWith, hlines, Text.indent, fill, String.toList_ofList]

end Template

end ShaderComposer
