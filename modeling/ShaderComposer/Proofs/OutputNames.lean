import ShaderComposer.Chain.Validation
import ShaderComposer.Command.Output
import ShaderComposer.Proofs.MangledNames
import ShaderComposer.Proofs.StackNumbering

/-!
# The names of a chain's files

Behind the name of the chain every file has a mark of its own: the sources have the
decimal index of their pass up to the next dot and then the stage, and the manifest
has no index at all.  So no two files share a name, however many passes there are.
A name without slashes stays one behind which these marks are put, and is never one
of the two that lead elsewhere.
-/

namespace ShaderComposer

variable {chain : String} {dialect : Dialect} {shaders : List Shader}

/-- The names of all files of a chain with so many passes. -/
def outputNames (chain : String) (dialect : Dialect) (count : Nat) : List String :=
  ((List.range count).flatMap fun index =>
    [sourceName chain index .vertex dialect, sourceName chain index .fragment dialect]) ++
    [manifestName chain]

/-! ## Names tell files apart -/

theorem toList_sourceName
    (chain : String) (index : Nat) (stage : Stage) (dialect : Dialect) :
    (sourceName chain index stage dialect).toList =
      chain.toList ++ ".pass".toList ++
        (Nat.toDigits 10 index ++
          '.' :: (stage.name.toList ++ '.' :: dialect.extension.toList)) := by
  simp [sourceName]

theorem dot_not_mem_toDigits (index : Nat) : '.' ∉ Nat.toDigits 10 index := by
  intro hdot
  have hdigit := Nat.isDigit_of_mem_toDigits (b := 10) (by decide) (by decide) hdot
  contradiction

theorem sourceName_inj
    {index₁ index₂ : Nat} {stage₁ stage₂ : Stage}
    (hname :
      sourceName chain index₁ stage₁ dialect = sourceName chain index₂ stage₂ dialect) :
    index₁ = index₂ ∧ stage₁ = stage₂ := by
  have htexts := congrArg String.toList hname
  rw [toList_sourceName, toList_sourceName] at htexts
  obtain ⟨hindex, hafter⟩ :=
    append_mark_inj (dot_not_mem_toDigits index₁) (dot_not_mem_toDigits index₂)
      (List.append_cancel_left htexts)
  have hstage : stage₁.name.toList = stage₂.name.toList := List.append_cancel_right hafter
  refine ⟨toDigits_ten_inj hindex, ?_⟩
  cases stage₁ <;> cases stage₂ <;> simp [Stage.name] at hstage ⊢

theorem sourceName_ne_manifestName (index : Nat) (stage : Stage) :
    sourceName chain index stage dialect ≠ manifestName chain := by
  intro hname
  have htexts := congrArg String.toList hname
  have hmanifest : (manifestName chain).toList = chain.toList ++ ".bindings.json".toList := by
    simp [manifestName]
  rw [toList_sourceName, hmanifest, List.append_assoc] at htexts
  have hafter := List.append_cancel_left htexts
  simp at hafter

theorem nodup_outputNames (chain : String) (dialect : Dialect) (count : Nat) :
    (outputNames chain dialect count).Nodup := by
  unfold outputNames
  rw [List.nodup_append]
  refine ⟨?_, by simp, ?_⟩
  · rw [List.nodup_flatMap]
    constructor
    · intro index _
      have hstages :
          sourceName chain index .vertex dialect ≠ sourceName chain index .fragment dialect := by
        intro hname
        have hstage := (sourceName_inj hname).2
        contradiction
      simpa using hstages
    · apply List.nodup_range.imp
      intro first second hne name hfirst hsecond
      simp only [List.mem_cons, List.not_mem_nil, or_false] at hfirst hsecond
      apply hne
      rcases hfirst with rfl | rfl <;> rcases hsecond with hname | hname <;>
        exact (sourceName_inj hname).1
  · intro name hsource other hmanifest
    obtain ⟨index, -, hname⟩ := List.mem_flatMap.mp hsource
    obtain rfl : other = manifestName chain := by simpa using hmanifest
    simp only [List.mem_cons, List.not_mem_nil, or_false] at hname
    rcases hname with rfl | rfl <;> exact sourceName_ne_manifestName _ _

theorem length_outputNames (chain : String) (dialect : Dialect) (count : Nat) :
    (outputNames chain dialect count).length = 2 * count + 1 := by
  simp [outputNames, Nat.mul_comm]

/-! ## The files of shaders -/

theorem mem_sourceFilesFrom
    {index position : Nat} {shader : Shader} (hshader : shaders[position]? = some shader)
    (stage : Stage) :
    ⟨sourceName chain (index + position) stage shader.dialect,
        (shader.program stage).source⟩ ∈
      sourceFilesFrom chain index shaders := by
  induction shaders generalizing index position with
  | nil =>
      simp at hshader
  | cons first rest ih =>
      rw [sourceFilesFrom, List.mem_append]
      cases position with
      | zero =>
          obtain rfl : first = shader := by simpa using hshader
          left
          cases stage <;> simp [Shader.files, Shader.program]
      | succ position =>
          right
          rw [← Nat.add_assoc, Nat.add_right_comm]
          exact ih (by simpa using hshader)

theorem map_name_sourceFilesFrom
    (hdialect : ∀ shader ∈ shaders, shader.dialect = dialect) (index : Nat) :
    (sourceFilesFrom chain index shaders).map OutputFile.name =
      (List.range' index shaders.length).flatMap fun index =>
        [sourceName chain index .vertex dialect, sourceName chain index .fragment dialect] := by
  induction shaders generalizing index with
  | nil =>
      rfl
  | cons shader rest ih =>
      have hfirst : shader.dialect = dialect := hdialect shader List.mem_cons_self
      have hrest := ih (fun other hother => hdialect other (List.mem_cons_of_mem shader hother))
      rw [sourceFilesFrom, List.map_append, hrest, List.length_cons, List.range'_succ,
        List.flatMap_cons, ← hfirst]
      rfl

theorem map_name_outputFiles (hdialect : ∀ shader ∈ shaders, shader.dialect = dialect) :
    (outputFiles chain shaders).map OutputFile.name =
      outputNames chain dialect shaders.length := by
  rw [outputFiles, List.map_append, map_name_sourceFilesFrom hdialect, outputNames,
    List.range_eq_range']
  rfl

theorem EffectStack.dialect_of_mem_build
    {stack : EffectStack} (hbuild : stack.build dialect = .ok shaders) :
    ∀ shader ∈ shaders, shader.dialect = dialect := by
  intro shader hshader
  rw [build_eq_composeFrom] at hbuild
  obtain ⟨list, -, number, start, hcomposed⟩ :=
    exists_compose_of_mem_composeFrom hbuild hshader
  obtain ⟨-, -, rfl⟩ := (Setting.compose_eq_ok_iff _).mp hcomposed
  rfl

/-! ## Names stay inside a directory -/

/-- No character of the text stands between the names of a path. -/
def HoldsNoSlash (text : String) : Prop :=
  '/' ∉ text.toList ∧ '\\' ∉ text.toList

instance (text : String) : Decidable (HoldsNoSlash text) :=
  inferInstanceAs (Decidable (_ ∧ _))

theorem HoldsNoSlash.append
    {first rest : String} (hfirst : HoldsNoSlash first) (hrest : HoldsNoSlash rest) :
    HoldsNoSlash (first ++ rest) := by
  simp only [HoldsNoSlash, String.toList_append, List.mem_append, not_or]
  exact ⟨⟨hfirst.1, hrest.1⟩, ⟨hfirst.2, hrest.2⟩⟩

theorem isPlainFileName_append
    {name mark : String} (hname : HoldsNoSlash name) (hmark : HoldsNoSlash mark)
    (hlong : 2 < mark.length) :
    isPlainFileName (name ++ mark) = true ∧ name ++ mark ≠ "" := by
  have hslashes := hname.append hmark
  have hlength : 2 < (name ++ mark).length := by
    rw [String.length_append]
    omega
  have hdot : name ++ mark ≠ "." := by
    intro hdot
    exact absurd (hdot ▸ hlength) (by decide)
  have hdots : name ++ mark ≠ ".." := by
    intro hdots
    exact absurd (hdots ▸ hlength) (by decide)
  have hempty : name ++ mark ≠ "" := by
    intro hempty
    exact absurd (hempty ▸ hlength) (by decide)
  simp only [isPlainFileName, Bool.and_eq_true, Bool.not_eq_true', bne_iff_ne,
    List.contains_eq_mem, decide_eq_false_iff_not]
  exact ⟨⟨⟨⟨hslashes.1, hslashes.2⟩, hdot⟩, hdots⟩, hempty⟩

theorem holdsNoSlash_toString (index : Nat) : HoldsNoSlash (toString index) := by
  have hdigits : ∀ c ∈ (toString index).toList, c.isDigit = true := by
    intro c hc
    have hmem : c ∈ Nat.toDigits 10 index := by simpa using hc
    exact Nat.isDigit_of_mem_toDigits (b := 10) (by decide) (by decide) hmem
  constructor <;> intro hslash <;> exact absurd (hdigits _ hslash) (by decide)

theorem isPlainFileName_of_mem_outputNames
    (hchain : HoldsNoSlash chain) {count : Nat} {name : String}
    (hname : name ∈ outputNames chain dialect count) :
    isPlainFileName name = true ∧ name ≠ "" := by
  have hsource (index : Nat) (stage : Stage) :
      isPlainFileName (sourceName chain index stage dialect) = true ∧
        sourceName chain index stage dialect ≠ "" := by
    have hending : HoldsNoSlash ("." ++ stage.name ++ "." ++ dialect.extension) := by
      cases stage <;> cases dialect <;> decide
    have hmark :=
      (show HoldsNoSlash ".pass" by decide).append
        ((holdsNoSlash_toString index).append hending)
    have hplain := isPlainFileName_append hchain hmark (by
      have hpass : ".pass".length = 5 := rfl
      rw [String.length_append, hpass]
      omega)
    simpa [sourceName, String.append_assoc] using hplain
  rw [outputNames, List.mem_append] at hname
  rcases hname with hpass | hmanifest
  · obtain ⟨index, -, hstage⟩ := List.mem_flatMap.mp hpass
    simp only [List.mem_cons, List.not_mem_nil, or_false] at hstage
    rcases hstage with rfl | rfl <;> exact hsource index _
  · obtain rfl : name = manifestName chain := by simpa using hmanifest
    exact isPlainFileName_append hchain (by decide) (by decide)

theorem Chain.isPlainFileName_of_valid
    {chain : Chain} (hvalid : chain.Valid) {metadata : Metadata}
    (hmetadata : chain.metadata = some metadata) : isPlainFileName metadata.name = true := by
  unfold Valid fault? at hvalid
  split at hvalid
  · contradiction
  · split at hvalid
    · contradiction
    · by_contra hname
      have hbad :
          chain.metadata.filter (fun metadata => !isPlainFileName metadata.name) =
            some metadata := by
        simpa [hmetadata] using hname
      rw [hbad] at hvalid
      contradiction

theorem Chain.holdsNoSlash_name {chain : Chain} (hvalid : chain.Valid) :
    HoldsNoSlash chain.name := by
  unfold name
  cases hmetadata : chain.metadata with
  | none =>
      decide
  | some metadata =>
      simp only
      split
      · decide
      · have hplain := isPlainFileName_of_valid hvalid hmetadata
        simp only [isPlainFileName, Bool.and_eq_true, Bool.not_eq_true',
          List.contains_eq_mem, decide_eq_false_iff_not] at hplain
        exact hplain.1.1

end ShaderComposer
