import ShaderComposer.Composition.Shader
import ShaderComposer.Proofs.Templates
import ShaderComposer.Text.Identifier

/-!
# Texts that follow one template

The names of a pass begin with a word that stands for its position.  A text that
depends on these words is uniform when one template gives it whatever solid words
they are.  Everything a program is written with keeps texts uniform: putting them
one after the other, joining, indenting and leaving out sections.

A naming is the choice of a stem and of the index of the first pass; its words are
solid when the stem can begin an identifier.
-/

namespace ShaderComposer

namespace Text

theorem isBlank_of_isIdentifierPart
    {c : Char} (hc : isIdentifierPart c = true) : isBlank c = false := by
  unfold isIdentifierPart Char.isAlphanum Char.isAlpha Char.isUpper Char.isLower
    Char.isDigit at hc
  simp only [Bool.or_eq_true, Bool.and_eq_true, decide_eq_true_eq, beq_iff_eq,
    ge_iff_le, UInt32.le_iff_toNat_le] at hc
  have hranges :
      (((65 ≤ c.toNat ∧ c.toNat ≤ 90) ∨ (97 ≤ c.toNat ∧ c.toNat ≤ 122)) ∨
        (48 ≤ c.toNat ∧ c.toNat ≤ 57)) ∨ c = '_' :=
    hc
  have hcode : 48 ≤ c.toNat ∧ c.toNat ≤ 122 := by
    rcases hranges with hletter | rfl
    · omega
    · decide
  simp only [isBlank, Bool.or_eq_false_iff, Bool.and_eq_false_iff,
    decide_eq_false_iff_not, beq_eq_false_iff_ne]
  omega

theorem isIdentifierPart_of_mem
    {text : String} (htext : isIdentifier text = true)
    {c : Char} (hc : c ∈ text.toList) : isIdentifierPart c = true := by
  unfold isIdentifier at htext
  cases hlist : text.toList with
  | nil =>
      simp [hlist] at hc
  | cons first rest =>
      rw [hlist] at htext hc
      simp only [Bool.and_eq_true, List.all_eq_true] at htext
      rcases List.mem_cons.mp hc with rfl | hrest
      · have hstart := htext.1
        simp only [isIdentifierStart, Bool.or_eq_true] at hstart
        simp only [isIdentifierPart, Char.isAlphanum, Bool.or_eq_true]
        exact hstart.imp_left .inl
      · exact htext.2 c hrest

end Text

/-- The stem of all names and the index of the first pass. -/
structure Naming where
  stem : String
  startIndex : Nat

namespace Naming

def stemAt (naming : Naming) (position : Nat) : String :=
  effectStem naming.stem (naming.startIndex + position)

def setting (naming : Naming) (dialect : Dialect) (listIndex : Nat) : Setting :=
  ⟨dialect, naming.stem, listIndex, naming.startIndex⟩

theorem solid_stemAt
    {naming : Naming} (hidentifier : Text.isIdentifier naming.stem = true)
    (position : Nat) :
    Text.Solid (naming.stemAt position) := by
  constructor
  · simp [stemAt, effectStem]
  · intro c hc
    apply Text.isBlank_of_isIdentifierPart
    simp only [stemAt, effectStem, String.toList_append, List.mem_append,
      or_assoc] at hc
    rcases hc with hstem | hnumeral | hmark
    · exact Text.isIdentifierPart_of_mem hidentifier hstem
    · exact Text.isIdentifierPart_of_mem_numeral hnumeral
    · obtain rfl : c = '_' := by
        simpa using hmark
      decide

end Naming

/-- One template gives the text for all solid words. -/
def Uniform (text : (Nat → String) → String) : Prop :=
  ∃ template : Template, ∀ words, (∀ position, Text.Solid (words position)) →
    text words = template.fill words

def UniformTexts (texts : (Nat → String) → List String) : Prop :=
  ∃ templates : List Template, ∀ words, (∀ position, Text.Solid (words position)) →
    texts words = templates.map (Template.fill words)

section

variable {text first second : (Nat → String) → String}
  {texts before after : (Nat → String) → List String}

theorem Uniform.const (text : String) : Uniform fun _ => text := by
  refine ⟨Template.closed text, ?_⟩
  intro words _
  simp only [Template.fill_closed]

theorem Uniform.append (hfirst : Uniform first) (hsecond : Uniform second) :
    Uniform fun words => first words ++ second words := by
  obtain ⟨front, hfront⟩ := hfirst
  obtain ⟨back, hback⟩ := hsecond
  refine ⟨front ++ back, ?_⟩
  intro words hsolid
  simp only [Template.fill_append, hfront words hsolid, hback words hsolid]

theorem Uniform.between (opening closing : String) (htext : Uniform text) :
    Uniform fun words => opening ++ text words ++ closing :=
  ((Uniform.const opening).append htext).append (Uniform.const closing)

theorem Uniform.mangled (position : Nat) (name : String) :
    Uniform fun words => words position ++ name := by
  apply Uniform.append
  · refine ⟨[.hole position], ?_⟩
    intro words _
    simp only [Template.fill_hole]
  · exact Uniform.const name

theorem Uniform.indent (levels : Nat) (htext : Uniform text) :
    Uniform fun words => Text.indent levels (text words) := by
  obtain ⟨template, htemplate⟩ := htext
  refine ⟨template.indent levels, ?_⟩
  intro words hsolid
  simp only [Template.fill_indent hsolid, htemplate words hsolid]

theorem UniformTexts.nil : UniformTexts fun _ => [] :=
  ⟨[], fun _ _ => rfl⟩

theorem UniformTexts.append
    (hbefore : UniformTexts before) (hafter : UniformTexts after) :
    UniformTexts fun words => before words ++ after words := by
  obtain ⟨front, hfront⟩ := hbefore
  obtain ⟨back, hback⟩ := hafter
  refine ⟨front ++ back, ?_⟩
  intro words hsolid
  simp only [List.map_append, hfront words hsolid, hback words hsolid]

theorem UniformTexts.singleton (htext : Uniform text) :
    UniformTexts fun words => [text words] := by
  obtain ⟨template, htemplate⟩ := htext
  refine ⟨[template], ?_⟩
  intro words hsolid
  simp only [List.map_singleton, htemplate words hsolid]

theorem UniformTexts.flatMap
    {α : Type} {items : List α} {write : (Nat → String) → α → List String}
    (hwrite : ∀ item ∈ items, UniformTexts fun words => write words item) :
    UniformTexts fun words => items.flatMap (write words) := by
  induction items with
  | nil =>
      exact UniformTexts.nil
  | cons item rest ih =>
      simp only [List.flatMap_cons]
      apply UniformTexts.append
      · exact hwrite item List.mem_cons_self
      · exact ih fun other hother => hwrite other (List.mem_cons_of_mem item hother)

theorem UniformTexts.map
    {α : Type} {items : List α} {write : (Nat → String) → α → String}
    (hwrite : ∀ item ∈ items, Uniform fun words => write words item) :
    UniformTexts fun words => items.map (write words) := by
  simp only [List.map_eq_flatMap]
  apply UniformTexts.flatMap
  intro item hitem
  exact UniformTexts.singleton (hwrite item hitem)

theorem UniformTexts.const (texts : List String) :
    UniformTexts fun _ => texts := by
  refine ⟨texts.map Template.closed, ?_⟩
  intro words _
  simp [Function.comp_def]

theorem UniformTexts.joinWith (separator : String) (htexts : UniformTexts texts) :
    Uniform fun words => Text.joinWith separator (texts words) := by
  obtain ⟨templates, htemplates⟩ := htexts
  refine ⟨Template.joinWith separator templates, ?_⟩
  intro words hsolid
  simp only [Template.fill_joinWith, htemplates words hsolid]

theorem UniformTexts.optionalSection
    (separator : String) (htexts : UniformTexts texts) :
    UniformTexts fun words =>
      Program.optionalSection separator (texts words) := by
  obtain ⟨templates, htemplates⟩ := htexts
  refine
    ⟨if templates.isEmpty then [] else [Template.joinWith separator templates], ?_⟩
  intro words hsolid
  simp only [Program.optionalSection, htemplates words hsolid, List.isEmpty_map]
  cases templates.isEmpty with
  | true =>
      rfl
  | false =>
      simp [Template.fill_joinWith]

/-! ## Source text -/

theorem Program.writeBack_eq (dialect : Dialect) (stage : Stage) :
    ∃ before opening after, ∀ result,
      Program.writeBack dialect stage result =
        before ++ [opening ++ result ++ ";"] ++ after := by
  cases dialect with
  | gl =>
      cases stage with
      | vertex =>
          exact ⟨[], "gl_Position = ", _, fun _ => rfl⟩
      | fragment =>
          exact ⟨[], "gl_FragColor = ", [], fun _ => rfl⟩
  | metal =>
      cases stage with
      | vertex =>
          exact ⟨["CCFragData cc_FragOut;"], "cc_FragOut.position = ", _, fun _ => rfl⟩
      | fragment =>
          exact ⟨[], "return ", [], fun _ => rfl⟩

theorem UniformTexts.writeBack
    (dialect : Dialect) (stage : Stage) (htext : Uniform text) :
    UniformTexts fun words => Program.writeBack dialect stage (text words) := by
  obtain ⟨front, opening, back, hlines⟩ := Program.writeBack_eq dialect stage
  simp only [hlines]
  apply UniformTexts.append
  · apply UniformTexts.append
    · exact UniformTexts.const front
    · apply UniformTexts.singleton
      exact htext.between opening ";"
  · exact UniformTexts.const back

theorem Program.entry_eq (dialect : Dialect) (stage : Stage) :
    ∃ opening closing, ∀ program : Program,
      program.dialect = dialect → program.stage = stage →
        program.entry =
          match dialect with
          | .gl => opening
          | .metal =>
            opening ++ Text.joinWith ",\n    " program.argumentDeclarations ++
              closing := by
  cases dialect with
  | gl =>
      refine ⟨"void main()", "", ?_⟩
      intro program hdialect _
      unfold Program.entry
      simp [hdialect]
  | metal =>
      cases stage with
      | vertex =>
          refine ⟨"vertex CCFragData ShaderVertexFunction(" ++ "\n    ", ")", ?_⟩
          intro program hdialect hstage
          unfold Program.entry Program.entry.parameters
          rw [hdialect, hstage]
          simp only [String.append_assoc]
      | fragment =>
          refine ⟨"fragment half4 ShaderFragmentFunction(" ++ "\n    ", ")", ?_⟩
          intro program hdialect hstage
          unfold Program.entry Program.entry.parameters
          rw [hdialect, hstage]
          simp only [String.append_assoc]

theorem UniformTexts.uniformSection
    (dialect : Dialect) (htexts : UniformTexts texts) :
    UniformTexts fun words =>
      match dialect with
      | .gl => Program.optionalSection "\n" (texts words)
      | .metal => [] := by
  cases dialect with
  | gl =>
      exact htexts.optionalSection "\n"
  | metal =>
      exact UniformTexts.nil

theorem Uniform.source
    {program : (Nat → String) → Program} {dialect : Dialect} {stage : Stage}
    {structs : List StructDecl}
    (hdialect : ∀ words, (program words).dialect = dialect)
    (hstage : ∀ words, (program words).stage = stage)
    (hstructs : ∀ words, (program words).structs = structs)
    (harguments : UniformTexts fun words => (program words).argumentDeclarations)
    (hfunctions :
      UniformTexts fun words =>
        (program words).functions.map ShaderFunction.definition)
    (hlines : UniformTexts fun words => (program words).mainLines) :
    Uniform fun words => (program words).source := by
  have hentry : Uniform fun words => (program words).entry := by
    obtain ⟨opening, closing, heq⟩ := Program.entry_eq dialect stage
    have hprogram (words : Nat → String) :=
      heq (program words) (hdialect words) (hstage words)
    simp only [hprogram]
    cases dialect with
    | gl =>
        exact Uniform.const opening
    | metal =>
        exact (harguments.joinWith ",\n    ").between opening closing
  have hbody :
      Uniform fun words =>
        (program words).entry ++ "\n\x7b\n" ++
          Text.indent 1 (Text.joinWith "\n" (program words).mainLines) ++
          "\n\x7d" := by
    apply Uniform.append
    · apply Uniform.append
      · exact hentry.append (Uniform.const _)
      · exact (hlines.joinWith "\n").indent 1
    · exact Uniform.const _
  simp only [Program.source, Program.sections, hdialect, hstage, hstructs]
  apply Uniform.append
  · apply UniformTexts.joinWith
    apply UniformTexts.append
    · apply UniformTexts.append
      · apply UniformTexts.append
        · exact UniformTexts.const _
        · exact UniformTexts.uniformSection dialect harguments
      · exact hfunctions.optionalSection "\n\n"
    · exact UniformTexts.singleton hbody
  · exact Uniform.const "\n"

end

end ShaderComposer
