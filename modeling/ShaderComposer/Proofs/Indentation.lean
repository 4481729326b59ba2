import ShaderComposer.Proofs.Templates
import ShaderComposer.Proofs.TrimmedEnds
import ShaderComposer.Shading.Call

/-!
# What indenting keeps

A text and its indented form are compared line by line, a line being what stands between
two line feeds.  A line with something visible in it goes to itself behind the indentation
and without the blanks at its end, a blank line goes to an empty one.  So the filled lines
of both texts correspond to each other in their order, and whatever else is to be said of
an indented text is said of one such line: how it begins and ends, and that its visible
characters are those of the line it comes from.
-/

namespace ShaderComposer

namespace Text

/-- The characters of a text without the blank ones. -/
def visible (text : List Char) : List Char :=
  text.filter fun c => !isBlank c

/-- Whether there is anything visible in a line. -/
def isFilled (line : List Char) : Bool :=
  !line.all isBlank

/-- A line behind `levels` steps of four spaces, up to its last visible character. -/
def setIn (levels : Nat) (line : List Char) : List Char :=
  List.replicate (4 * levels) ' ' ++ line.rdropWhile isBlank

/-- Every filled line of `source` is found in `result`, set in by `levels` steps, and
nothing else is. -/
structure SetsIn (levels : Nat) (source result : List Char) : Prop where
  visible_eq : visible result = visible source
  line_cases :
    ∀ line ∈ result.splitOn '\n',
      line = [] ∨ ∃ origin ∈ source.splitOn '\n', line = setIn levels origin
  line_end : ∀ line ∈ result.splitOn '\n', ∀ c ∈ line.getLast?, isBlank c = false
  filled_lines :
    (result.splitOn '\n').filter (fun line => !line.isEmpty) =
      ((source.splitOn '\n').filter isFilled).map (setIn levels)

/-- A text with every carriage return dropped that stands in front of a line feed. -/
def feedEnded : List Char → List Char
  | '\r' :: '\n' :: rest => '\n' :: feedEnded rest
  | c :: rest => c :: feedEnded rest
  | [] => []

/-! ## Visible characters -/

@[simp] theorem visible_append (front back : List Char) :
    visible (front ++ back) = visible front ++ visible back :=
  List.filter_append front back

theorem isFilled_eq_false_iff {line : List Char} :
    isFilled line = false ↔ ∀ c ∈ line, isBlank c = true := by
  rw [isFilled, Bool.not_eq_false', List.all_eq_true]

theorem visible_eq_nil_of_blank {text : List Char} (hblank : ∀ c ∈ text, isBlank c = true) :
    visible text = [] := by
  simpa [visible, List.filter_eq_nil_iff] using hblank

@[simp] theorem visible_setIn (levels : Nat) (line : List Char) :
    visible (setIn levels line) = visible line := by
  have hspaces : visible (List.replicate (4 * levels) ' ') = [] := by
    apply visible_eq_nil_of_blank
    intro c hc
    rw [(List.mem_replicate.mp hc).2]
    decide
  have hend : visible (line.rtakeWhile isBlank) = [] :=
    visible_eq_nil_of_blank fun c hc => List.mem_rtakeWhile_imp hc
  calc
    visible (setIn levels line) = visible (line.rdropWhile isBlank) := by
      rw [setIn, visible_append, hspaces, List.nil_append]
    _ = visible (line.rdropWhile isBlank ++ line.rtakeWhile isBlank) := by
      rw [visible_append, hend, List.append_nil]
    _ = visible line := by
      rw [List.rdropWhile_append_rtakeWhile]

theorem visible_intercalate (pieces : List (List Char)) :
    visible (['\n'].intercalate pieces) = pieces.flatMap visible := by
  induction pieces with
  | nil =>
      rfl
  | cons piece rest ih =>
      cases rest with
      | nil =>
          simp
      | cons next others =>
          have hfeed : visible ['\n'] = [] := by decide
          rw [List.intercalate_cons_cons, visible_append, visible_append, hfeed, ih]
          simp

/-- Every visible character of a text stands in one of its lines. -/
theorem flatMap_visible_splitOn (text : List Char) :
    (text.splitOn '\n').flatMap visible = visible text := by
  rw [← visible_intercalate, List.intercalate_splitOn]

theorem flatMap_visible_filter
    {filled : List Char → Bool} {lines : List (List Char)}
    (hblank : ∀ line ∈ lines, filled line = false → visible line = []) :
    (lines.filter filled).flatMap visible = lines.flatMap visible := by
  induction lines with
  | nil =>
      rfl
  | cons line rest ih =>
      have hrest := ih fun other hother => hblank other (List.mem_cons_of_mem line hother)
      by_cases hline : filled line = true
      · rw [List.filter_cons_of_pos hline, List.flatMap_cons, List.flatMap_cons, hrest]
      · have hnone := hblank line List.mem_cons_self (Bool.eq_false_iff.mpr hline)
        rw [List.filter_cons_of_neg hline, List.flatMap_cons, hnone, List.nil_append, hrest]

/-! ## The lines of an indented text -/

theorem toList_indentation (levels : Nat) :
    (indentation levels).toList = List.replicate (4 * levels) ' ' := by
  induction levels with
  | zero =>
      rfl
  | succ levels ih =>
      have hstep : indentStep.toList = List.replicate 4 ' ' := rfl
      rw [indentation, String.toList_append, hstep, ih, List.replicate_append_replicate]
      congr 1
      omega

theorem rdropWhile_ne_nil_of_isFilled {line : List Char} (hfilled : isFilled line = true) :
    line.rdropWhile isBlank ≠ [] := by
  intro hnone
  have hblank := isFilled_eq_false_iff.mpr (List.rdropWhile_eq_nil_iff.mp hnone)
  rw [hfilled] at hblank
  contradiction

theorem toList_indentLine_of_isFilled
    (levels : Nat) {line : List Char} (hfilled : isFilled line = true) :
    (indentLine levels line).toList = setIn levels line := by
  have hkept := rdropWhile_ne_nil_of_isFilled hfilled
  rw [← trimEnd_eq_rdropWhile] at hkept
  unfold indentLine
  split
  · next hnone =>
    exact absurd hnone hkept
  · rw [String.toList_append, String.toList_ofList, toList_indentation, setIn,
      trimEnd_eq_rdropWhile]

theorem toList_indentLine_of_not_isFilled
    (levels : Nat) {line : List Char} (hblank : isFilled line = false) :
    (indentLine levels line).toList = [] := by
  have hnone : trimEnd line = [] :=
    (trimEnd_eq_nil_iff line).mpr (isFilled_eq_false_iff.mp hblank)
  rw [indentLine, hnone]
  rfl

theorem toList_joinWith (separator : String) (pieces : List String) :
    (joinWith separator pieces).toList =
      separator.toList.intercalate (pieces.map String.toList) := by
  induction pieces with
  | nil =>
      rfl
  | cons piece rest ih =>
      cases rest with
      | nil =>
          simp [joinWith]
      | cons next others =>
          rw [joinWith, String.toList_append, String.toList_append, ih]
          simp [List.intercalate_cons_cons]

/-- Cutting a text at its line feeds gives its lines, and an empty one behind the last
line feed if nothing else stands there. -/
theorem exists_splitOn_eq_lines (text : List Char) :
    ∃ last, (last = [] ∨ last = [[]]) ∧ text.splitOn '\n' = lines text ++ last := by
  induction text with
  | nil =>
      exact ⟨[[]], .inr rfl, rfl⟩
  | cons c rest ih =>
      obtain ⟨last, hlast, hrest⟩ := ih
      rw [List.splitOn_cons_eq_if_modifyHead]
      by_cases hc : c = '\n'
      · exact ⟨last, hlast, by simp [hc, lines, hrest]⟩
      · rw [if_neg (by simpa using hc), lines_cons_of_ne hc, hrest]
        cases hlines : lines rest with
        | nil =>
            -- the text ends here, and its last line is begun
            have hone : last = [[]] := by
              rcases hlast with rfl | rfl
              · simp [hlines] at hrest
              · rfl
            exact ⟨[], .inl rfl, by simp [hone]⟩
        | cons line more =>
            exact ⟨last, hlast, by simp⟩

theorem filter_isFilled_splitOn (text : List Char) :
    (text.splitOn '\n').filter isFilled = (lines text).filter isFilled := by
  obtain ⟨last, hlast, hsplit⟩ := exists_splitOn_eq_lines text
  rw [hsplit, List.filter_append]
  rcases hlast with rfl | rfl <;> simp [isFilled]

theorem filter_nonempty_splitOn_intercalate
    {pieces : List (List Char)} (hpieces : ∀ piece ∈ pieces, '\n' ∉ piece) :
    ((['\n'].intercalate pieces).splitOn '\n').filter (fun line => !line.isEmpty) =
      pieces.filter fun line => !line.isEmpty := by
  by_cases hnone : pieces = []
  · simp [hnone]
  · rw [List.splitOn_intercalate '\n' hpieces hnone]

theorem not_mem_toList_indentLine
    {levels : Nat} {line : List Char} (hline : '\n' ∉ line) :
    '\n' ∉ (indentLine levels line).toList := by
  cases hfilled : isFilled line with
  | false =>
      rw [toList_indentLine_of_not_isFilled levels hfilled]
      exact List.not_mem_nil
  | true =>
      rw [toList_indentLine_of_isFilled levels hfilled]
      intro hmem
      rcases List.mem_append.mp hmem with hspace | hkept
      · exact absurd (List.mem_replicate.mp hspace).2 (by decide)
      · exact hline ((List.rdropWhile_prefix isBlank line).subset hkept)

theorem not_isEmpty_toList_indentLine (levels : Nat) (line : List Char) :
    (!(indentLine levels line).toList.isEmpty) = isFilled line := by
  cases hfilled : isFilled line with
  | false =>
      rw [toList_indentLine_of_not_isFilled levels hfilled]
      rfl
  | true =>
      have hkept := rdropWhile_ne_nil_of_isFilled hfilled
      rw [toList_indentLine_of_isFilled levels hfilled]
      simp [setIn, hkept]

theorem filter_nonempty_splitOn_indent (levels : Nat) (source : String) :
    ((indent levels source).toList.splitOn '\n').filter (fun line => !line.isEmpty) =
      ((source.toList.splitOn '\n').filter isFilled).map (setIn levels) := by
  have hpieces :
      ∀ piece ∈ ((lines source.toList).map (indentLine levels)).map String.toList,
        '\n' ∉ piece := by
    intro piece hpiece
    obtain ⟨text, htext, rfl⟩ := List.mem_map.mp hpiece
    obtain ⟨line, hline, rfl⟩ := List.mem_map.mp htext
    exact not_mem_toList_indentLine (not_mem_of_mem_lines hline)
  have hfeed : "\n".toList = ['\n'] := rfl
  have hfilled :
      ((fun line => !line.isEmpty) ∘ String.toList ∘ indentLine levels) = isFilled := by
    funext line
    exact not_isEmpty_toList_indentLine levels line
  rw [indent, toList_joinWith, hfeed, filter_nonempty_splitOn_intercalate hpieces, List.map_map,
    List.filter_map, hfilled, filter_isFilled_splitOn]
  apply List.map_congr_left
  intro line hline
  exact toList_indentLine_of_isFilled levels (List.mem_filter.mp hline).2

theorem visible_indent (levels : Nat) (source : String) :
    visible (indent levels source).toList = visible source.toList := by
  have hempty :
      ∀ line ∈ (indent levels source).toList.splitOn '\n',
        (!line.isEmpty) = false → visible line = [] := by
    intro line _ hline
    have hnil : line = [] := by simpa using hline
    rw [hnil]
    rfl
  have hblank :
      ∀ line ∈ source.toList.splitOn '\n', isFilled line = false → visible line = [] :=
    fun line _ hline => visible_eq_nil_of_blank (isFilled_eq_false_iff.mp hline)
  rw [← flatMap_visible_splitOn, ← flatMap_visible_filter hempty,
    filter_nonempty_splitOn_indent, List.flatMap_map]
  simp only [visible_setIn]
  rw [flatMap_visible_filter hblank, flatMap_visible_splitOn]

theorem mem_splitOn_indent
    {levels : Nat} {source : String} {line : List Char}
    (hline : line ∈ (indent levels source).toList.splitOn '\n') :
    line = [] ∨
      ∃ origin ∈ source.toList.splitOn '\n',
        isFilled origin = true ∧ line = setIn levels origin := by
  by_cases hnil : line = []
  · exact .inl hnil
  · have hmem :
        line ∈ ((indent levels source).toList.splitOn '\n').filter fun line => !line.isEmpty :=
      List.mem_filter.mpr ⟨hline, by simpa using hnil⟩
    rw [filter_nonempty_splitOn_indent] at hmem
    obtain ⟨origin, horigin, rfl⟩ := List.mem_map.mp hmem
    obtain ⟨hsource, hfilled⟩ := List.mem_filter.mp horigin
    exact .inr ⟨origin, hsource, hfilled, rfl⟩

theorem isBlank_getLast?_setIn
    {levels : Nat} {line : List Char} (hfilled : isFilled line = true)
    {c : Char} (hc : c ∈ (setIn levels line).getLast?) : isBlank c = false := by
  have hkept := rdropWhile_ne_nil_of_isFilled hfilled
  have hlast := List.rdropWhile_last_not isBlank line hkept
  rw [setIn, List.getLast?_append_of_ne_nil _ hkept, List.getLast?_eq_some_getLast hkept] at hc
  rw [← Option.mem_some_iff.mp hc]
  exact Bool.eq_false_iff.mpr hlast

/-! ## How lines are ended -/

theorem trimEnd_cons_congr
    (c : Char) {first second : List Char} (h : trimEnd first = trimEnd second) :
    trimEnd (c :: first) = trimEnd (c :: second) := by
  rw [trimEnd, trimEnd, h]

theorem map_trimEnd_lines_cons
    (c : Char) {first second : List Char}
    (h : (lines first).map trimEnd = (lines second).map trimEnd) :
    (lines (c :: first)).map trimEnd = (lines (c :: second)).map trimEnd := by
  by_cases hc : c = '\n'
  · simp only [lines, if_pos hc, List.map_cons, h]
  · have hhead (pieces : List (List Char)) :
        trimEnd (pieces.headD []) = (pieces.map trimEnd).headD [] := by
      cases pieces <;> rfl
    rw [lines_cons_of_ne hc, lines_cons_of_ne hc, List.map_cons, List.map_cons, List.map_tail,
      List.map_tail, h]
    congr 1
    apply trimEnd_cons_congr
    rw [hhead, hhead, h]

/-- A carriage return in front of a line feed is a blank at the end of a line. -/
theorem map_trimEnd_lines_feedEnded (text : List Char) :
    (lines (feedEnded text)).map trimEnd = (lines text).map trimEnd := by
  induction text using feedEnded.induct with
  | case1 rest ih =>
      have hreturn : trimEnd ['\r'] = [] := by decide
      rw [feedEnded, lines_cons_of_ne (by decide : '\r' ≠ '\n')]
      simp only [lines, if_true, List.map_cons, List.headD_cons, List.tail_cons, hreturn, ih]
      rfl
  | case2 c rest hother ih =>
      rw [feedEnded]
      · exact map_trimEnd_lines_cons c ih
      · exact hother
  | case3 =>
      rfl

theorem indentLine_trimEnd (levels : Nat) (line : List Char) :
    indentLine levels (trimEnd line) = indentLine levels line := by
  have hagain : trimEnd (trimEnd line) = trimEnd line := by
    simp only [trimEnd_eq_rdropWhile, List.rdropWhile_idempotent]
  rw [indentLine, indentLine, hagain]

theorem indent_feedEnded (levels : Nat) (source : String) :
    indent levels (String.ofList (feedEnded source.toList)) = indent levels source := by
  have htrimmed : indentLine levels = indentLine levels ∘ trimEnd := by
    funext line
    exact (indentLine_trimEnd levels line).symm
  rw [indent, indent, String.toList_ofList, htrimmed, ← List.map_map, ← List.map_map,
    map_trimEnd_lines_feedEnded]

/-- Indenting sets in the filled lines of a text and loses nothing visible of them, and it
makes no difference whether a line ends with a carriage return in front of its line feed. -/
theorem indent_sets_filled_lines_in (levels : Nat) (source : String) :
    SetsIn levels source.toList (indent levels source).toList ∧
      indent levels (String.ofList (feedEnded source.toList)) = indent levels source := by
  refine ⟨⟨visible_indent levels source, ?_, ?_, filter_nonempty_splitOn_indent levels source⟩,
    indent_feedEnded levels source⟩
  · intro line hline
    rcases mem_splitOn_indent hline with hnil | ⟨origin, hmem, -, heq⟩
    · exact .inl hnil
    · exact .inr ⟨origin, hmem, heq⟩
  · intro line hline c hc
    rcases mem_splitOn_indent hline with rfl | ⟨origin, -, hfilled, rfl⟩
    · simp at hc
    · exact isBlank_getLast?_setIn hfilled hc

/-- Two carriage returns in front of a line feed go with it, one inside of a line stays. -/
example :
    indent 1 " a\r= 1; \r\r\n \r\n\n\tb;\r" = "     a\r= 1;\n\n\n    \tb;" := by
  decide

end Text

/-- What is visible of the text of a function: its declaration, and its body in braces. -/
theorem ShaderFunction.visible_definition (function : ShaderFunction) :
    Text.visible function.definition.toList =
      Text.visible function.declaration.toList ++
        '\x7b' :: Text.visible function.body.toList ++ ['\x7d'] := by
  have hopen : Text.visible "\n\x7b\n".toList = ['\x7b'] := by decide
  have hclose : Text.visible "\n\x7d".toList = ['\x7d'] := by decide
  simp only [definition, String.toList_append, Text.visible_append, Text.visible_indent, hopen,
    hclose]
  simp

end ShaderComposer
