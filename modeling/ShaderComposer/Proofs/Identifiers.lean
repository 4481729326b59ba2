import ShaderComposer.Proofs.ContributedParts
import ShaderComposer.Text.Identifier

/-!
# Names that a shading language accepts

A mangled name begins with the stem of the chain.  If that can begin an
identifier, and the local name holds nothing that an identifier may not hold, then
the mangled name is an identifier whatever its index.  The names of the catalog are
identifiers, so every name that a composed program introduces is one.
-/

namespace ShaderComposer

/-- The local names of a part, which a composition puts behind a stem. -/
def Part.names (part : Part) : List String :=
  part.functions.map ShaderFunction.name ++ part.localNames

def Part.FitsIdentifiers (part : Part) : Prop :=
  ∀ name ∈ part.names, name.toList.all Text.isIdentifierPart = true

structure Program.NamedByIdentifiers (program : Program) : Prop where
  functions :
    ∀ function ∈ program.functions, Text.isIdentifier function.name = true
  targets :
    ∀ statement ∈ program.body, Text.isIdentifier statement.target = true
  bindings : ∀ binding ∈ program.bindings, Text.isIdentifier binding.name = true

theorem isIdentifier_effectStem_append
    {stem : String} (hstem : Text.isIdentifier stem = true) (index : Nat)
    {name : String} (hname : name.toList.all Text.isIdentifierPart = true) :
    Text.isIdentifier (effectStem stem index ++ name) = true := by
  have hnumeral : (toString index).toList.all Text.isIdentifierPart = true := by
    rw [List.all_eq_true]
    intro c hc
    exact Text.isIdentifierPart_of_mem_numeral hc
  have hnumbered := Text.isIdentifier_append hstem hnumeral
  have hmark : Text.isIdentifier (effectStem stem index) = true :=
    Text.isIdentifier_append hnumbered (by decide)
  exact Text.isIdentifier_append hmark hname

theorem Catalog.isIdentifier_argumentNames
    {dialect : Dialect} {stage : Stage} {name : String}
    (hname : name ∈ argumentNames dialect stage) : Text.isIdentifier name = true := by
  revert name
  cases dialect <;> cases stage <;> decide

theorem Site.mem_names_of_mem_locals
    {stage : Stage} {site : Site} {name : String} (hname : name ∈ site.locals stage) :
    name ∈ site.part.names := by
  rcases List.mem_append.mp hname with htemporary | hcall
  · obtain ⟨temporary, hmem, rfl⟩ := List.mem_map.mp htemporary
    have hdeclared : temporary ∈ site.part.temporaries := (List.mem_filter.mp hmem).1
    have hlocal := List.mem_map_of_mem (f := Temporary.name) hdeclared
    simp [Part.names, Part.localNames, hlocal]
  · simp [Part.names, Part.localNames, hcall]

namespace Setting

variable (setting : Setting) {stage : Stage} {passes : List Pass}

theorem namedByIdentifiers_program
    (hstem : Text.isIdentifier setting.stem = true)
    (hnames : ∀ site ∈ sites stage passes, site.part.FitsIdentifiers) :
    (setting.builder stage passes).program.NamedByIdentifiers := by
  have hmangled {site : Site} (hsite : site ∈ sites stage passes)
      {name : String} (hname : name ∈ site.part.names) :
      Text.isIdentifier (setting.stemAt site.position ++ name) = true :=
    isIdentifier_effectStem_append hstem _ (hnames site hsite name hname)
  constructor
  · intro function hfunction
    have hlisted : function ∈ (setting.builder stage passes).part.functions := by
      rcases Merge.mem_outcome hfunction with hlisted | ⟨hdefault, -⟩
      · exact hlisted
      · contradiction
    rw [functions_builder] at hlisted
    obtain ⟨site, hsite, hmem⟩ := List.mem_flatMap.mp hlisted
    obtain ⟨original, horiginal, rfl⟩ := List.mem_map.mp hmem
    exact
      hmangled hsite (List.mem_append_left _ (List.mem_map_of_mem horiginal))
  · intro statement hstatement
    have htarget :
        statement.target ∈ (setting.builder stage passes).part.variables := by
      rw [← Builder.map_target_body]
      exact List.mem_map_of_mem hstatement
    rw [(setting.variables_builder stage passes).mem_iff] at htarget
    obtain ⟨site, hsite, hmem⟩ := List.mem_flatMap.mp htarget
    obtain ⟨name, hname, hsame⟩ := List.mem_map.mp hmem
    rw [← hsame]
    exact hmangled hsite (Site.mem_names_of_mem_locals hname)
  · intro binding hbinding
    have hbound :
        binding.name ∈
          (setting.builder stage passes).program.bindings.map Binding.name :=
      List.mem_map_of_mem hbinding
    rcases setting.mem_map_name_bindings.mp hbound with
      hcatalog | ⟨site, hsite, argument, hargument, hname⟩
    · exact Catalog.isIdentifier_argumentNames hcatalog
    · rw [hname, bindingName_program]
      split
      · next hholds =>
        exact Catalog.isIdentifier_argumentNames (List.contains_iff_mem.mp hholds)
      · have hlocal := List.mem_map_of_mem (f := Argument.name) hargument
        apply hmangled hsite
        simp [Part.names, Part.localNames, hlocal]

end Setting

end ShaderComposer
