import ShaderComposer.Program.Source
import ShaderComposer.Proofs.MangledNames
import ShaderComposer.Proofs.TextPieces

/-!
# Mangled names are apart from everything a dialect writes by itself

The names of the catalog are not the only ones in a program that no effect brings:
there are the variables of the header, the entry point and the output it assembles.
None of these texts has a digit in front of an underscore anywhere.  A name within a
text is a piece of it, so a mark of the name would be a mark of the text, and no
mangled name can stand in a text that has none.
-/

namespace ShaderComposer

theorem holdsStemMark_iff {text : List Char} :
    holdsStemMark text = true ↔
      ∃ before digit after, digit.isDigit = true ∧ text = before ++ digit :: '_' :: after := by
  constructor
  · intro hmark
    induction text with
    | nil =>
        contradiction
    | cons first rest ih =>
        cases rest with
        | nil =>
            contradiction
        | cons second rest =>
            simp only [holdsStemMark, Bool.or_eq_true, Bool.and_eq_true, beq_iff_eq] at hmark
            rcases hmark with ⟨hdigit, rfl⟩ | hrest
            · exact ⟨[], first, rest, hdigit, rfl⟩
            · obtain ⟨before, digit, after, hdigit, heq⟩ := ih hrest
              exact ⟨first :: before, digit, after, hdigit, by rw [heq, List.cons_append]⟩
  · rintro ⟨before, digit, after, hdigit, rfl⟩
    exact holdsStemMark_append before hdigit after

theorem holdsStemMark_of_infix
    {piece text : List Char} (hpiece : piece <:+: text) (hmark : holdsStemMark piece = true) :
    holdsStemMark text = true := by
  obtain ⟨front, back, rfl⟩ := hpiece
  obtain ⟨before, digit, after, hdigit, rfl⟩ := holdsStemMark_iff.mp hmark
  rw [holdsStemMark_iff]
  exact ⟨front ++ before, digit, after ++ back, hdigit, by simp⟩

/-- No name in a text without a mark is a mangled one. -/
theorem mangled_not_mem_words
    {text : String} (htext : holdsStemMark text.toList = false)
    (stem : String) (index : Nat) (name : String) :
    effectStem stem index ++ name ∉ Text.words text := by
  intro hword
  have hmark :=
    holdsStemMark_of_infix (Text.infix_of_mem_words hword)
      (holdsStemMark_mangled stem index name)
  rw [htext] at hmark
  contradiction

theorem Catalog.holdsStemMark_structNames
    {dialect : Dialect} {name : String} (hname : name ∈ structNames dialect) :
    holdsStemMark name.toList = false := by
  revert name
  cases dialect <;> decide

namespace Program

/-- The program to whose stage no effect contributes: what a dialect writes by itself. -/
def bare (dialect : Dialect) (stage : Stage) : Program where
  dialect := dialect
  stage := stage
  structs := []
  bindings := []
  functions := []
  temporaries := []
  invocations := []
  output := none

/-- The texts of a program that come from its dialect alone. -/
def ownTexts (dialect : Dialect) (stage : Stage) : List String :=
  header dialect stage :: (bare dialect stage).entry :: (bare dialect stage).mainLines

theorem holdsStemMark_header (dialect : Dialect) (stage : Stage) :
    holdsStemMark (header dialect stage).toList = false := by
  -- the characters of short lines are found much sooner than those of one long text
  unfold header
  split
  · simp only [String.toList_append]
    decide +kernel
  · simp only [String.toList_append]
    decide +kernel
  · decide +kernel

theorem holdsStemMark_ownTexts
    {dialect : Dialect} {stage : Stage} {text : String} (htext : text ∈ ownTexts dialect stage) :
    holdsStemMark text.toList = false := by
  rcases List.mem_cons.mp htext with rfl | hmain
  · exact holdsStemMark_header dialect stage
  · clear htext
    revert text
    cases dialect <;> cases stage <;> decide +kernel

/-- The names of entry points and of the output that the vertex stage assembles. -/
def entryNames : List String :=
  ["main", "ShaderVertexFunction", "ShaderFragmentFunction", "cc_FragOut"]

theorem exists_ownText_of_mem_entryNames {name : String} (hname : name ∈ entryNames) :
    ∃ dialect stage, ∃ text ∈ ownTexts dialect stage, name ∈ Text.words text := by
  have hentry (dialect : Dialect) (stage : Stage) :
      (bare dialect stage).entry ∈ ownTexts dialect stage := by
    simp [ownTexts]
  have houtput : "return cc_FragOut;" ∈ ownTexts .metal .vertex := by
    simp [ownTexts, mainLines, writeBack, bare]
  simp only [entryNames, List.mem_cons, List.not_mem_nil, or_false] at hname
  rcases hname with rfl | rfl | rfl | rfl
  · exact ⟨.gl, .vertex, _, hentry _ _, by decide +kernel⟩
  · exact ⟨.metal, .vertex, _, hentry _ _, by decide +kernel⟩
  · exact ⟨.metal, .fragment, _, hentry _ _, by decide +kernel⟩
  · exact ⟨.metal, .vertex, _, houtput, by decide +kernel⟩

end Program

/-- A mangled name stands for one effect and one local name, and for nothing that the
catalog or a dialect names. -/
theorem mangled_names_apart_and_free (stem : String) (index : Nat) (name : String) :
    (∀ otherIndex otherName,
      effectStem stem index ++ name = effectStem stem otherIndex ++ otherName →
        index = otherIndex ∧ name = otherName) ∧
    (∀ dialect stage,
      effectStem stem index ++ name ∉ Catalog.argumentNames dialect stage) ∧
    (∀ dialect, effectStem stem index ++ name ∉ Catalog.structNames dialect) ∧
    (∀ dialect stage,
      effectStem stem index ++ name ∉ Text.words (Program.header dialect stage)) ∧
    (∀ dialect stage, ∀ text ∈ Program.ownTexts dialect stage,
      effectStem stem index ++ name ∉ Text.words text) ∧
    effectStem stem index ++ name ∉ Program.entryNames := by
  have hmark := holdsStemMark_mangled stem index name
  have hown (dialect : Dialect) (stage : Stage) :
      ∀ text ∈ Program.ownTexts dialect stage,
        effectStem stem index ++ name ∉ Text.words text :=
    fun _ htext =>
      mangled_not_mem_words (Program.holdsStemMark_ownTexts htext) stem index name
  refine ⟨fun _ _ => effectStem_append_inj, ?_, ?_, ?_, hown, ?_⟩
  · intro dialect stage hname
    rw [Catalog.holdsStemMark_argumentNames hname] at hmark
    contradiction
  · intro dialect hname
    rw [Catalog.holdsStemMark_structNames hname] at hmark
    contradiction
  · intro dialect stage
    exact hown dialect stage _ List.mem_cons_self
  · intro hname
    obtain ⟨dialect, stage, text, htext, hword⟩ :=
      Program.exists_ownText_of_mem_entryNames hname
    exact hown dialect stage text htext hword

end ShaderComposer
