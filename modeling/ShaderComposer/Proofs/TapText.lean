import ShaderComposer.Effect.Blur
import ShaderComposer.Proofs.LiteralForm
import ShaderComposer.Proofs.TextPieces

/-!
# The lines of a blur

What is written for one tap is a line that adds its sample to the sum, or with a threshold
two lines, of which the second adds.  The numbers in these lines are literals, so neither
a line break nor the factor that compares a sample with the threshold can come from them:
it is enough to look at the fixed texts between them.
-/

namespace ShaderComposer

namespace Text

/-- A word that does not occur in a text. -/
def Lacks (word text : String) : Prop :=
  ¬ word.toList <:+: text.toList

instance (word text : String) : Decidable (Lacks word text) :=
  inferInstanceAs (Decidable (¬ _))

/-- Literals between two texts complete no word of other characters. -/
theorem Lacks.around_literal
    {word before after : String} (hword : ∀ c ∈ word.toList, Decimal.isLiteralChar c = false)
    (hbefore : Lacks word before) (hafter : Lacks word after) (x : Float32) :
    Lacks word (before ++ Decimal.literal x ++ after) := by
  intro hoccurs
  rw [String.toList_append, String.toList_append] at hoccurs
  have hdisjoint : ∀ c ∈ (Decimal.literal x).toList, c ∉ word.toList := by
    intro c hc hmem
    have hliteral := Decimal.isLiteralChar_of_mem_literal hc
    rw [hword c hmem] at hliteral
    contradiction
  rcases infix_of_infix_append (Decimal.literal_toList_ne_nil x) hdisjoint hoccurs with h | h
  · exact hbefore h
  · exact hafter h

end Text

namespace ReferenceBlur

/-! ## The text of one tap -/

/-- What stands in front of an offset. -/
def sampleHead : Dialect → String
  | .gl => "texture2D(previousPass, texCoord + texelStep * "
  | .metal => "previousPass.sample(previousPassSampler, texCoord + texelStep * "

/-- What stands around a number: Metal narrows it. -/
def scalarHead : Dialect → String
  | .gl => ""
  | .metal => "half("

def scalarTail : Dialect → String
  | .gl => ""
  | .metal => ")"

/-- The expression for a sample of the pass before, at an offset along the direction. -/
def sampleText (dialect : Dialect) (offset : String) : String :=
  sampleHead dialect ++ offset ++ ")"

def scalarText (dialect : Dialect) (number : String) : String :=
  scalarHead dialect ++ number ++ scalarTail dialect

/-- The line for a tap without a threshold. -/
def plainLine (dialect : Dialect) (offset weight : String) : String :=
  "sum += " ++ sampleText dialect offset ++ " * " ++ scalarText dialect weight ++ ";"

def sampleLine (dialect : Dialect) (offset : String) : String :=
  "s = " ++ sampleText dialect offset ++ ";"

def comparedLine (dialect : Dialect) (least weight : String) : String :=
  "sum += s * step(" ++ scalarText dialect least ++ ", dot(s.rgb, " ++ luma dialect ++
    ")) * " ++ scalarText dialect weight ++ ";"

/-- What is written for a tap: with a threshold the sample is kept and compared first. -/
def tapText (dialect : Dialect) (offset weight : String) : Option String → List String
  | none => [plainLine dialect offset weight]
  | some least => [sampleLine dialect offset, comparedLine dialect least weight]

/-- Whether a line adds to the sum of the window. -/
def addsToSum (line : List Char) : Bool :=
  "sum += ".toList.isPrefixOf line

/-- The factor that compares a sample with the threshold. -/
def stepWord : String := "step("

theorem sample_eq_sampleText (dialect : Dialect) (offset : Float32) :
    sample dialect offset = sampleText dialect (Decimal.literal offset) := by
  cases dialect <;> rfl

theorem scalar_eq_scalarText (dialect : Dialect) (x : Float32) :
    scalar dialect x = scalarText dialect (Decimal.literal x) := by
  cases dialect with
  | gl =>
      change Decimal.literal x = "" ++ Decimal.literal x ++ ""
      rw [String.empty_append, String.append_empty]
  | metal =>
      rfl

theorem accumulate_eq_tapText (dialect : Dialect) (threshold : Option Float32) (tap : Tap) :
    accumulate dialect threshold tap =
      tapText dialect (Decimal.literal tap.offset) (Decimal.literal tap.weight)
        (threshold.map Decimal.literal) := by
  cases threshold with
  | none =>
      rw [accumulate, sample_eq_sampleText, scalar_eq_scalarText]
      rfl
  | some least =>
      rw [accumulate, sample_eq_sampleText, scalar_eq_scalarText, scalar_eq_scalarText]
      rfl

/-- No text of a line and no literal has a character in common with these words. -/
theorem not_isLiteralChar_of_mem
    {word : String} (hword : word ∈ ["\n", stepWord]) :
    ∀ c ∈ word.toList, Decimal.isLiteralChar c = false := by
  have hchars : word.toList.all (fun c => !Decimal.isLiteralChar c) = true := by
    revert word
    decide
  simpa only [List.all_eq_true, Bool.not_eq_true'] using hchars

/-- The texts between the numbers of a line. -/
def plainTexts (dialect : Dialect) : List String :=
  ["s = " ++ sampleHead dialect, ")" ++ ";", "sum += " ++ sampleHead dialect,
    ")" ++ " * " ++ scalarHead dialect, scalarTail dialect ++ ";"]

theorem lacks_plainTexts
    {word : String} (hword : word ∈ ["\n", stepWord]) (dialect : Dialect) {text : String}
    (htext : text ∈ plainTexts dialect) : Text.Lacks word text := by
  revert word text
  cases dialect <;> decide +kernel

section Lines

variable {word : String} (hword : word ∈ ["\n", stepWord]) (dialect : Dialect)

include hword

theorem lacks_sampleLine (offset : Float32) :
    Text.Lacks word (sampleLine dialect (Decimal.literal offset)) := by
  have hchars := not_isLiteralChar_of_mem hword
  have hbefore : Text.Lacks word ("s = " ++ sampleHead dialect) :=
    lacks_plainTexts hword dialect (by simp [plainTexts])
  have hafter : Text.Lacks word (")" ++ ";") :=
    lacks_plainTexts hword dialect (by simp [plainTexts])
  simpa only [sampleLine, sampleText, String.append_assoc] using
    hbefore.around_literal hchars hafter offset

theorem lacks_plainLine (offset weight : Float32) :
    Text.Lacks word
      (plainLine dialect (Decimal.literal offset) (Decimal.literal weight)) := by
  have hchars := not_isLiteralChar_of_mem hword
  have hbefore : Text.Lacks word ("sum += " ++ sampleHead dialect) :=
    lacks_plainTexts hword dialect (by simp [plainTexts])
  have hbetween : Text.Lacks word (")" ++ " * " ++ scalarHead dialect) :=
    lacks_plainTexts hword dialect (by simp [plainTexts])
  have hafter : Text.Lacks word (scalarTail dialect ++ ";") :=
    lacks_plainTexts hword dialect (by simp [plainTexts])
  have hfront := hbefore.around_literal hchars hbetween offset
  simpa only [plainLine, sampleText, scalarText, String.append_assoc] using
    hfront.around_literal hchars hafter weight

end Lines

theorem unbroken_comparedLine (dialect : Dialect) (least weight : Float32) :
    Text.Lacks "\n"
      (comparedLine dialect (Decimal.literal least) (Decimal.literal weight)) := by
  have hchars :=
    not_isLiteralChar_of_mem (List.mem_cons_self : "\n" ∈ ["\n", stepWord])
  have hbefore : Text.Lacks "\n" ("sum += s * step(" ++ scalarHead dialect) := by
    cases dialect <;> decide +kernel
  have hbetween :
      Text.Lacks "\n"
        (scalarTail dialect ++ ", dot(s.rgb, " ++ luma dialect ++ ")) * " ++
          scalarHead dialect) := by
    cases dialect <;> decide +kernel
  have hafter : Text.Lacks "\n" (scalarTail dialect ++ ";") := by
    cases dialect <;> decide +kernel
  have hfront := hbefore.around_literal hchars hbetween least
  unfold comparedLine
  simpa only [scalarText, String.append_assoc] using
    hfront.around_literal hchars hafter weight

/-! ## The lines of a body -/

theorem addsToSum_iff {line : List Char} :
    addsToSum line = true ↔ "sum += ".toList <+: line :=
  List.isPrefixOf_iff_prefix

theorem addsToSum_plainLine (dialect : Dialect) (offset weight : String) :
    addsToSum (plainLine dialect offset weight).toList = true := by
  rw [addsToSum_iff]
  simp only [plainLine, String.append_assoc]
  rw [String.toList_append]
  exact List.prefix_append _ _

theorem addsToSum_sampleLine (dialect : Dialect) (offset : String) :
    addsToSum (sampleLine dialect offset).toList = false := by
  rw [sampleLine, String.append_assoc, String.toList_append]
  rfl

theorem prefix_comparedLine (dialect : Dialect) (least weight : String) :
    "sum += s * step(".toList <+: (comparedLine dialect least weight).toList := by
  unfold comparedLine
  simp only [String.append_assoc]
  rw [String.toList_append]
  exact List.prefix_append _ _

theorem addsToSum_comparedLine (dialect : Dialect) (least weight : String) :
    addsToSum (comparedLine dialect least weight).toList = true := by
  have hhead : "sum += ".toList <+: "sum += s * step(".toList := by decide
  exact addsToSum_iff.mpr (hhead.trans (prefix_comparedLine dialect least weight))

theorem stepWord_infix_comparedLine (dialect : Dialect) (least weight : String) :
    stepWord.toList <:+: (comparedLine dialect least weight).toList := by
  have hhead : stepWord.toList <:+: "sum += s * step(".toList := by decide
  exact hhead.trans (prefix_comparedLine dialect least weight).isInfix

/-- What holds of every line of a body: it is one line, and it compares a sample with the
threshold exactly when it adds to the sum and there is a threshold. -/
structure BodyLine (thresholded : Bool) (line : String) : Prop where
  nonempty : line ≠ ""
  unbroken : '\n' ∉ line.toList
  compares_iff :
    stepWord.toList <:+: line.toList ↔ thresholded = true ∧ addsToSum line.toList = true

theorem unbroken_of_lacks {line : String} (hlacks : Text.Lacks "\n" line) :
    '\n' ∉ line.toList := by
  intro hmem
  obtain ⟨front, back, hsplit⟩ := List.append_of_mem hmem
  exact hlacks ⟨front, back, by simp [hsplit]⟩

theorem BodyLine.of_lacks
    {thresholded : Bool} {line : String} (hnonempty : line ≠ "")
    (hlacks : ∀ word ∈ ["\n", stepWord], Text.Lacks word line)
    (hadds : ¬ (thresholded = true ∧ addsToSum line.toList = true)) :
    BodyLine thresholded line := by
  refine ⟨hnonempty, unbroken_of_lacks (hlacks "\n" (by simp)), ?_⟩
  exact iff_of_false (hlacks stepWord (by simp)) hadds

theorem bodyLine_plainLine (dialect : Dialect) (offset weight : Float32) :
    BodyLine false
      (plainLine dialect (Decimal.literal offset) (Decimal.literal weight)) := by
  apply BodyLine.of_lacks
  · simp [plainLine]
  · exact fun word hword => lacks_plainLine hword dialect offset weight
  · simp

theorem bodyLine_sampleLine (thresholded : Bool) (dialect : Dialect) (offset : Float32) :
    BodyLine thresholded (sampleLine dialect (Decimal.literal offset)) := by
  apply BodyLine.of_lacks
  · simp [sampleLine]
  · exact fun word hword => lacks_sampleLine hword dialect offset
  · rw [addsToSum_sampleLine]
    simp

theorem bodyLine_comparedLine (dialect : Dialect) (least weight : Float32) :
    BodyLine true
      (comparedLine dialect (Decimal.literal least) (Decimal.literal weight)) := by
  have hunbroken := unbroken_of_lacks (unbroken_comparedLine dialect least weight)
  refine ⟨?_, hunbroken, ?_⟩
  · unfold comparedLine
    simp
  · exact iff_of_true (stepWord_infix_comparedLine dialect _ _)
      ⟨rfl, addsToSum_comparedLine dialect _ _⟩

theorem bodyLine_of_mem_accumulate
    {dialect : Dialect} {threshold : Option Float32} {tap : Tap} {line : String}
    (hline : line ∈ accumulate dialect threshold tap) : BodyLine threshold.isSome line := by
  rw [accumulate_eq_tapText] at hline
  cases threshold with
  | none =>
      rw [Option.map_none, tapText] at hline
      rw [List.mem_singleton.mp hline]
      exact bodyLine_plainLine dialect tap.offset tap.weight
  | some least =>
      rw [Option.map_some, tapText] at hline
      rcases List.mem_cons.mp hline with rfl | hsum
      · exact bodyLine_sampleLine true dialect tap.offset
      · rw [List.mem_singleton.mp hsum]
        exact bodyLine_comparedLine dialect least tap.weight

/-- One line of each tap adds to the sum. -/
theorem countP_accumulate (dialect : Dialect) (threshold : Option Float32) (tap : Tap) :
    (accumulate dialect threshold tap).countP (fun line => addsToSum line.toList) = 1 := by
  rw [accumulate_eq_tapText]
  cases threshold with
  | none =>
      rw [Option.map_none, tapText, List.countP_singleton, addsToSum_plainLine, if_pos rfl]
  | some least =>
      rw [Option.map_some, tapText, List.countP_cons_of_neg, List.countP_singleton,
        addsToSum_comparedLine, if_pos rfl]
      rw [addsToSum_sampleLine]
      decide

theorem prologue_some (dialect : Dialect) (least other : Float32) :
    prologue dialect (some least) = prologue dialect (some other) := by
  cases dialect <;> rfl

/-- No line around the taps adds to the sum or compares. -/
theorem plain_of_mem_frame
    {dialect : Dialect} {threshold : Option Float32} {line : String}
    (hline : line ∈ prologue dialect threshold ++ ["return sum;"]) :
    line ≠ "" ∧ (∀ word ∈ ["\n", stepWord], Text.Lacks word line) ∧
      addsToSum line.toList = false := by
  cases threshold with
  | none =>
      revert line
      cases dialect <;> decide +kernel
  | some least =>
      rw [prologue_some dialect least 0.0] at hline
      revert line
      cases dialect <;> decide +kernel

theorem bodyLine_of_mem_bodyLines
    {dialect : Dialect} {threshold : Option Float32} {window : List Tap} {line : String}
    (hline : line ∈ bodyLines dialect threshold window) : BodyLine threshold.isSome line := by
  have hframe (hmem : line ∈ prologue dialect threshold ++ ["return sum;"]) :
      BodyLine threshold.isSome line := by
    obtain ⟨hnonempty, hlacks, hadds⟩ := plain_of_mem_frame hmem
    exact .of_lacks hnonempty hlacks (by simp [hadds])
  simp only [bodyLines, List.mem_append] at hline
  rcases hline with (hprologue | htap) | hreturn
  · exact hframe (List.mem_append_left _ hprologue)
  · obtain ⟨tap, -, hmem⟩ := List.mem_flatMap.mp htap
    exact bodyLine_of_mem_accumulate hmem
  · exact hframe (List.mem_append_right _ hreturn)

end ReferenceBlur

end ShaderComposer
