import ShaderComposer.Command.Run
import ShaderComposer.Proofs.ChainBuilds
import ShaderComposer.Proofs.FilePlaces
import ShaderComposer.Proofs.OutputNames

/-!
# What a run does to the files

A run decides everything before it changes anything: the plan is made from the words
of the command line and the tree as it is, and a run whose plan fails leaves the tree
alone.  Carrying a plan out adds directories and then puts each file at its own place
inside the output directory.  No two files of a chain share a name, whatever the
number of passes, and no name leads out of the directory.
-/

namespace ShaderComposer

/-- Whether a run has failed before it came to change anything. -/
def Failure.Early : Failure → Prop
  | .noDirectory _ _ | .unwritableFile _ _ => False
  | .badOptions _ | .noChain | .unreadableFile _ _ | .badChain _ _ | .badComposition _ _ => True

namespace FileTree

variable {tree grown final : FileTree} {path text : String} {place outer : Place}

/-! ## Changes to a tree -/

/-- All that is in the first tree is in the second, which may have more directories. -/
structure GainsDirectories (tree grown : FileTree) : Prop where
  working : grown.working = tree.working
  nodes :
    ∀ place, grown.node? place = tree.node? place ∨
      (tree.node? place = none ∧ grown.node? place = some .directory)

theorem GainsDirectories.refl (tree : FileTree) : tree.GainsDirectories tree :=
  ⟨rfl, fun _ => .inl rfl⟩

theorem GainsDirectories.trans
    (hfirst : tree.GainsDirectories grown) (hsecond : grown.GainsDirectories final) :
    tree.GainsDirectories final := by
  constructor
  · rw [hsecond.working, hfirst.working]
  · intro place
    rcases hsecond.nodes place with hkept | ⟨hnone, hnew⟩
    · rw [hkept]
      exact hfirst.nodes place
    · rcases hfirst.nodes place with hkept | ⟨-, hdirectory⟩
      · exact .inr ⟨hkept ▸ hnone, hnew⟩
      · rw [hnone] at hdirectory
        contradiction

theorem GainsDirectories.directories (hgains : tree.GainsDirectories grown) :
    ∀ place, tree.node? place = some .directory → grown.node? place = some .directory := by
  intro place hplace
  rcases hgains.nodes place with hkept | ⟨hnone, -⟩
  · rw [hkept, hplace]
  · rw [hnone] at hplace
    contradiction

theorem makeDirectory_gains (hmade : tree.makeDirectory path = .ok grown) :
    tree.GainsDirectories grown := by
  unfold makeDirectory at hmade
  cases hlocate : tree.locate path with
  | error error =>
      rw [hlocate] at hmade
      contradiction
  | ok place =>
      rw [hlocate] at hmade
      simp only [bind, Except.bind] at hmade
      cases hnode : tree.node? place with
      | some node =>
          simp [hnode] at hmade
      | none =>
          obtain rfl : tree.put place .directory = grown := by simpa [hnode] using hmade
          have hplace : place ≠ [] := by
            rintro rfl
            simp at hnode
          refine ⟨rfl, fun other => ?_⟩
          by_cases hother : other = place
          · subst hother
            exact .inr ⟨hnode, node?_put_self tree .directory hplace⟩
          · exact .inl (node?_put_of_ne tree .directory hother)

theorem write_eq_ok_iff :
    tree.write path text = .ok grown ↔
      ∃ place, tree.locate path = .ok place ∧ tree.node? place ≠ some .directory ∧
        Path.endsWithSlash path = false ∧ grown = tree.put place (.file text.toUTF8) := by
  unfold write
  cases hlocate : tree.locate path with
  | error error =>
      simp [bind, Except.bind]
  | ok place =>
      simp only [bind, Except.bind, Except.ok.injEq, exists_eq_left']
      cases hnode : tree.node? place with
      | none =>
          cases hends : Path.endsWithSlash path <;> simp [eq_comm]
      | some node =>
          cases node with
          | directory =>
              simp
          | file found =>
              cases hends : Path.endsWithSlash path <;> simp [eq_comm]

/-! ## Making directories -/

/-- Whatever an action is done on, it changes nothing but to add directories. -/
def AddsDirectories {α : Type} (action : StateM FileTree α) : Prop :=
  ∀ tree : FileTree, tree.GainsDirectories (action tree).2

theorem addsDirectories_pure {α : Type} (value : α) :
    AddsDirectories (pure value : StateM FileTree α) :=
  fun tree => GainsDirectories.refl tree

theorem AddsDirectories.bind
    {α β : Type} {action : StateM FileTree α} {next : α → StateM FileTree β}
    (haction : AddsDirectories action) (hnext : ∀ value, AddsDirectories (next value)) :
    AddsDirectories (action >>= next) :=
  fun tree => (haction tree).trans (hnext _ _)

theorem addsDirectories_makeDirectory (path : String) :
    AddsDirectories (access.makeDirectory path) := by
  intro tree
  change tree.GainsDirectories (change (fun tree => tree.makeDirectory path) tree).2
  cases hmade : tree.makeDirectory path with
  | error error =>
      simpa only [change, hmade] using GainsDirectories.refl tree
  | ok grown =>
      simpa only [change, hmade] using makeDirectory_gains hmade

theorem addsDirectories_accept (path : String) (result : Except FileError Unit) :
    AddsDirectories (access.accept path result) := by
  cases result with
  | ok =>
      exact addsDirectories_pure _
  | error error =>
      have hlooked : AddsDirectories (access.isDirectory path) :=
        fun tree => GainsDirectories.refl tree
      apply hlooked.bind
      intro there
      cases there <;> exact addsDirectories_pure _

theorem addsDirectories_makeDirectories (paths : List String) :
    AddsDirectories (access.makeDirectories paths) := by
  induction paths with
  | nil =>
      exact addsDirectories_pure _
  | cons path ancestors ih =>
      unfold FileAccess.makeDirectories
      apply (addsDirectories_makeDirectory path).bind
      intro result
      split
      · apply ih.bind
        intro outcome
        cases outcome with
        | error error =>
            exact addsDirectories_pure _
        | ok =>
            apply (addsDirectories_makeDirectory path).bind
            intro again
            exact addsDirectories_accept path again
      · exact addsDirectories_accept path result

theorem addsDirectories_ensureDirectory (path : String) :
    AddsDirectories (access.ensureDirectory path) := by
  unfold FileAccess.ensureDirectory
  split
  · exact addsDirectories_pure _
  · exact addsDirectories_makeDirectories _

/-! ## Writing files -/

/-- The second tree has the files at their places, where no directories were, and is
the first one everywhere else. -/
structure Receives (tree final : FileTree) (outer : Place) (files : List OutputFile) :
    Prop where
  working : final.working = tree.working
  directories :
    ∀ place, tree.node? place = some .directory → final.node? place = some .directory
  holds :
    ∀ file ∈ files, final.node? (file.name :: outer) = some (.file file.text.toUTF8)
  others :
    ∀ place, place ∉ files.map (fun file => file.name :: outer) →
      final.node? place = tree.node? place

/-- What an action comes to, and the tree that it leaves. -/
def perform {α : Type} (action : ExceptT Failure (StateM FileTree) α) (tree : FileTree) :
    Except Failure α × FileTree :=
  action.run tree

theorem perform_bind
    {α β : Type} (action : ExceptT Failure (StateM FileTree) β)
    (next : β → ExceptT Failure (StateM FileTree) α) (tree : FileTree) :
    perform (action >>= next) tree =
      match perform action tree with
      | (.error failure, grown) => (.error failure, grown)
      | (.ok value, grown) => perform (next value) grown := by
  have hsteps :
      perform (action >>= next) tree =
        ExceptT.bindCont next (perform action tree).1 (perform action tree).2 := rfl
  rw [hsteps]
  obtain ⟨result, grown⟩ := perform action tree
  cases result <;> rfl

theorem perform_lift_bind
    {α β : Type} (action : StateM FileTree β) (next : β → ExceptT Failure (StateM FileTree) α)
    (tree : FileTree) :
    perform (liftM action >>= next) tree = perform (next (action tree).1) (action tree).2 := rfl

theorem access_write (path text : String) (tree : FileTree) :
    access.write path text tree =
      match tree.write path text with
      | .ok changed => (.ok (), changed)
      | .error error => (.error error, tree) := rfl

theorem perform_writeFiles_cons
    (directory : String) (file : OutputFile) (rest : List OutputFile) (tree : FileTree) :
    perform (access.writeFiles directory (file :: rest)) tree =
      match tree.write (Path.join directory file.name) file.text with
      | .error error =>
        (.error (.unwritableFile (Path.join directory file.name) error), tree)
      | .ok grown => perform (access.writeFiles directory rest) grown := by
  rw [FileAccess.writeFiles, perform_lift_bind, access_write]
  cases tree.write (Path.join directory file.name) file.text <;> rfl

/-- A file with a plain name is put right inside the directory. -/
theorem exists_of_write_join
    {directory : String} {file : OutputFile}
    (hname : isPlainFileName file.name = true ∧ file.name ≠ "")
    (hwritten : tree.write (Path.join directory file.name) file.text = .ok grown) :
    ∃ outer, tree.directoryPlace directory = .ok outer ∧
      tree.node? outer = some .directory ∧
      tree.node? (file.name :: outer) ≠ some .directory ∧
      grown = tree.put (file.name :: outer) (.file file.text.toUTF8) := by
  obtain ⟨place, hlocate, hnode, -, hgrown⟩ := write_eq_ok_iff.mp hwritten
  obtain ⟨outer, houter, hdirectory, rfl⟩ := locate_join hname.1 hname.2 hlocate
  exact ⟨outer, houter, hdirectory, hnode, hgrown⟩

theorem node?_put_of_directory
    (hplace : tree.node? place ≠ some .directory) (node : FileNode) {other : Place}
    (hother : tree.node? other = some .directory) :
    (tree.put place node).node? other = some .directory := by
  rw [node?_put_of_ne]
  · exact hother
  · rintro rfl
    exact hplace hother

/-- Writing files that have distinct plain names puts each of them at its place. -/
theorem receives_of_writeFiles
    {directory : String} {files : List OutputFile}
    (hplain : ∀ file ∈ files, isPlainFileName file.name = true ∧ file.name ≠ "")
    (hdistinct : (files.map OutputFile.name).Nodup)
    (houter : tree.directoryPlace directory = .ok outer)
    (hwritten : perform (access.writeFiles directory files) tree = (.ok (), final)) :
    tree.Receives final outer files := by
  induction files generalizing tree with
  | nil =>
      obtain rfl : tree = final := (Prod.mk.inj hwritten).2
      exact ⟨rfl, fun _ hplace => hplace, by simp, fun _ _ => rfl⟩
  | cons file rest ih =>
      rw [perform_writeFiles_cons] at hwritten
      rw [List.map_cons, List.nodup_cons] at hdistinct
      cases hfirst : tree.write (Path.join directory file.name) file.text with
      | error error =>
          simp [hfirst] at hwritten
      | ok grown =>
          simp only [hfirst] at hwritten
          obtain ⟨outer', houter', -, hnode, hgrown⟩ :=
            exists_of_write_join (hplain file List.mem_cons_self) hfirst
          obtain rfl : outer = outer' := Except.ok.inj (houter.symm.trans houter')
          have hworking : grown.working = tree.working := by
            rw [hgrown]
            rfl
          have hkept : ∀ place, tree.node? place = some .directory →
              grown.node? place = some .directory := by
            intro place hplace
            rw [hgrown]
            exact node?_put_of_directory hnode _ hplace
          have hrest :=
            ih (fun other hother => hplain other (List.mem_cons_of_mem file hother))
              hdistinct.2 (directoryPlace_of_directories hworking hkept houter) hwritten
          constructor
          · rw [hrest.working, hworking]
          · intro place hplace
            exact hrest.directories place (hkept place hplace)
          · intro other hother
            rcases List.mem_cons.mp hother with rfl | hlater
            · rw [hrest.others _ (by simpa using hdistinct.1), hgrown]
              exact node?_put_self tree _ (by simp)
            · exact hrest.holds other hlater
          · intro place hplace
            simp only [List.map_cons, List.mem_cons, not_or] at hplace
            rw [hrest.others place hplace.2, hgrown, node?_put_of_ne tree _ hplace.1]

theorem exists_directoryPlace_of_writeFiles
    {directory : String} {files : List OutputFile} (hfiles : files ≠ [])
    (hplain : ∀ file ∈ files, isPlainFileName file.name = true ∧ file.name ≠ "")
    (hwritten : perform (access.writeFiles directory files) tree = (.ok (), final)) :
    ∃ outer, tree.directoryPlace directory = .ok outer ∧
      tree.node? outer = some .directory := by
  obtain ⟨file, rest, rfl⟩ := List.exists_cons_of_ne_nil hfiles
  rw [perform_writeFiles_cons] at hwritten
  cases hfirst : tree.write (Path.join directory file.name) file.text with
  | error error =>
      simp [hfirst] at hwritten
  | ok grown =>
      obtain ⟨outer, houter, hdirectory, -⟩ :=
        exists_of_write_join (hplain file List.mem_cons_self) hfirst
      exact ⟨outer, houter, hdirectory⟩

theorem unwritableFile_of_writeFiles
    {directory : String} {files : List OutputFile} {failure : Failure}
    (hfailed : perform (access.writeFiles directory files) tree = (.error failure, final)) :
    ∃ path error, failure = .unwritableFile path error := by
  induction files generalizing tree with
  | nil =>
      have hended := (Prod.mk.inj hfailed).1
      contradiction
  | cons file rest ih =>
      rw [perform_writeFiles_cons] at hfailed
      cases hfirst : tree.write (Path.join directory file.name) file.text with
      | error error =>
          simp only [hfirst, Prod.mk.injEq, Except.error.injEq] at hfailed
          exact ⟨_, _, hfailed.1.symm⟩
      | ok grown =>
          simp only [hfirst] at hfailed
          exact ih hfailed

/-! ## Plans -/

/-- The chain in the file at a path. -/
def chainAt (tree : FileTree) (path : String) : Except Failure Chain :=
  match tree.read path with
  | .error error => .error (.unreadableFile path error)
  | .ok content =>
    match String.fromUTF8? content with
    | none => .error (.unreadableFile path .notText)
    | some text =>
      match Chain.parse text with
      | .error error => .error (.badChain path error)
      | .ok chain => .ok chain

/-- What the words of the command line ask to be written. -/
def plan (tree : FileTree) (words : List String) : Except Failure Output :=
  match Options.parse words with
  | .error error => .error (.badOptions error)
  | .ok options =>
    match options.chain with
    | none => .error .noChain
    | some path =>
      match tree.chainAt path with
      | .error failure => .error failure
      | .ok chain => options.output path chain

theorem readText_eq (path : String) (tree : FileTree) :
    access.readText path tree =
      (match tree.read path with
        | .error error => .error error
        | .ok content =>
          match String.fromUTF8? content with
          | none => .error .notText
          | some text => .ok text,
        tree) := by
  have hbind {α β : Type} (action : StateM FileTree α) (next : α → StateM FileTree β) :
      (action >>= next) tree = next (action tree).1 (action tree).2 := rfl
  have hread : access.read path tree = (tree.read path, tree) := rfl
  rw [FileAccess.readText, hbind, hread]
  cases tree.read path with
  | error error =>
      rfl
  | ok content =>
      simp only
      cases String.fromUTF8? content <;> rfl

theorem perform_loadChain (path : String) (tree : FileTree) :
    perform (access.loadChain path) tree = (tree.chainAt path, tree) := by
  rw [FileAccess.loadChain, perform_lift_bind, readText_eq, chainAt]
  cases tree.read path with
  | error error =>
      rfl
  | ok content =>
      simp only
      cases String.fromUTF8? content with
      | none =>
          rfl
      | some text =>
          simp only
          cases Chain.parse text <;> rfl

theorem perform_run (words : List String) (tree : FileTree) :
    perform (access.run words) tree =
      match tree.plan words with
      | .error failure => (.error failure, tree)
      | .ok output => perform (access.save output) tree := by
  unfold FileAccess.run plan
  cases Options.parse words with
  | error error =>
      rfl
  | ok options =>
      simp only
      cases options.chain with
      | none =>
          rfl
      | some path =>
          simp only
          rw [perform_bind, perform_loadChain]
          cases tree.chainAt path with
          | error failure =>
              rfl
          | ok chain =>
              simp only
              cases options.output path chain <;> rfl

theorem perform_save (output : Output) (tree : FileTree) :
    perform (access.save output) tree =
      match (access.ensureDirectory output.directory tree).1 with
      | .error error =>
        (.error (.noDirectory output.directory error),
          (access.ensureDirectory output.directory tree).2)
      | .ok () =>
        perform (access.writeFiles output.directory output.files)
          (access.ensureDirectory output.directory tree).2 := by
  rw [FileAccess.save, perform_lift_bind]
  cases (access.ensureDirectory output.directory tree).1 <;> rfl

/-! ## Whole runs -/

/-- The places of all files of a chain with so many passes. -/
def outputPlaces (outer : Place) (chain : Chain) (count : Nat) : List Place :=
  (outputNames chain.name chain.dialect count).map (· :: outer)

/-- The second tree has, at places of their own inside a directory, exactly the files
of the shaders more than the first, and otherwise only directories. -/
structure Delivers (tree final : FileTree) (outer : Place) (chain : Chain)
    (shaders : List Shader) : Prop where
  inside : final.node? outer = some .directory
  sources :
    ∀ index shader, shaders[index]? = some shader → ∀ stage,
      final.node? (sourceName chain.name index stage chain.dialect :: outer) =
        some (.file (shader.program stage).source.toUTF8)
  manifest :
    final.node? (manifestName chain.name :: outer) = some (.file (manifest shaders).toUTF8)
  count : (outputPlaces outer chain shaders.length).length = 2 * shaders.length + 1
  apart : (outputPlaces outer chain shaders.length).Nodup
  others :
    ∀ place, place ∉ outputPlaces outer chain shaders.length →
      final.node? place = tree.node? place ∨
        (tree.node? place = none ∧ final.node? place = some .directory)

theorem not_early_of_save {output : Output} {failure : Failure}
    (hfailed : perform (access.save output) tree = (.error failure, final)) :
    ¬ failure.Early := by
  rw [perform_save] at hfailed
  cases hmade : (access.ensureDirectory output.directory tree).1 with
  | error error =>
      simp only [hmade, Prod.mk.injEq, Except.error.injEq] at hfailed
      rw [← hfailed.1]
      exact id
  | ok =>
      simp only [hmade] at hfailed
      obtain ⟨path, error, rfl⟩ := unwritableFile_of_writeFiles hfailed
      exact id

theorem plain_of_mem_outputFiles
    {chain : Chain} {shaders : List Shader} (hvalid : chain.Valid)
    (hbuild : chain.build = .ok shaders) {file : OutputFile}
    (hfile : file ∈ outputFiles chain.name shaders) :
    isPlainFileName file.name = true ∧ file.name ≠ "" := by
  have hname : file.name ∈ outputNames chain.name chain.dialect shaders.length := by
    rw [← map_name_outputFiles (EffectStack.dialect_of_mem_build hbuild)]
    exact List.mem_map_of_mem hfile
  exact isPlainFileName_of_mem_outputNames (Chain.holdsNoSlash_name hvalid) hname

theorem map_place_outputFiles
    {chain : Chain} {shaders : List Shader} (hbuild : chain.build = .ok shaders)
    (outer : Place) :
    (outputFiles chain.name shaders).map (fun file => file.name :: outer) =
      outputPlaces outer chain shaders.length := by
  rw [outputPlaces, ← map_name_outputFiles (EffectStack.dialect_of_mem_build hbuild),
    List.map_map]
  rfl

theorem delivers_of_receives
    {chain : Chain} {shaders : List Shader} (hbuild : chain.build = .ok shaders)
    (hgains : tree.GainsDirectories grown) (hdirectory : grown.node? outer = some .directory)
    (hreceives : grown.Receives final outer (outputFiles chain.name shaders)) :
    tree.Delivers final outer chain shaders := by
  constructor
  · exact hreceives.directories outer hdirectory
  · intro index shader hshader stage
    have hdialect :=
      EffectStack.dialect_of_mem_build hbuild shader (List.mem_of_getElem? hshader)
    have hsource :
        ⟨sourceName chain.name (0 + index) stage shader.dialect,
            (shader.program stage).source⟩ ∈ sourceFilesFrom chain.name 0 shaders :=
      mem_sourceFilesFrom hshader stage
    rw [Nat.zero_add, hdialect] at hsource
    exact hreceives.holds _ (List.mem_append_left _ hsource)
  · exact hreceives.holds _ (List.mem_append_right _ List.mem_cons_self)
  · rw [outputPlaces, List.length_map, length_outputNames]
  · apply List.Nodup.map _ (nodup_outputNames _ _ _)
    intro first second hsame
    exact (List.cons.inj hsame).1
  · intro place hplace
    rw [hreceives.others place (by rwa [map_place_outputFiles hbuild])]
    exact hgains.nodes place

theorem delivers_of_save
    {directory : String} {chain : Chain} {shaders : List Shader}
    (hvalid : chain.Valid) (hbuild : chain.build = .ok shaders)
    (hsaved :
      perform (access.save ⟨directory, outputFiles chain.name shaders⟩) tree =
        (.ok (), final)) :
    ∃ outer, final.directoryPlace directory = .ok outer ∧
      (∀ place, tree.directoryPlace directory = .ok place → place = outer) ∧
      tree.Delivers final outer chain shaders := by
  rw [perform_save] at hsaved
  cases hmade : (access.ensureDirectory directory tree).1 with
  | error error =>
      simp [hmade] at hsaved
  | ok =>
      simp only [hmade] at hsaved
      have hgains := addsDirectories_ensureDirectory directory tree
      generalize (access.ensureDirectory directory tree).2 = grown at hgains hsaved
      have hplain : ∀ file ∈ outputFiles chain.name shaders,
          isPlainFileName file.name = true ∧ file.name ≠ "" :=
        fun _ hfile => plain_of_mem_outputFiles hvalid hbuild hfile
      have hdistinct : ((outputFiles chain.name shaders).map OutputFile.name).Nodup := by
        rw [map_name_outputFiles (EffectStack.dialect_of_mem_build hbuild)]
        exact nodup_outputNames chain.name chain.dialect shaders.length
      obtain ⟨outer, houter, hdirectory⟩ :=
        exists_directoryPlace_of_writeFiles (by simp [outputFiles]) hplain hsaved
      have hreceives := receives_of_writeFiles hplain hdistinct houter hsaved
      have hfinal :=
        directoryPlace_of_directories hreceives.working hreceives.directories houter
      refine ⟨outer, hfinal, ?_, delivers_of_receives hbuild hgains hdirectory hreceives⟩
      intro place hplace
      have hgrown := directoryPlace_of_directories hgains.working hgains.directories hplace
      exact Except.ok.inj (hgrown.symm.trans houter)

theorem chainAt_eq_ok_iff {chain : Chain} :
    tree.chainAt path = .ok chain ↔
      ∃ content text, tree.read path = .ok content ∧ String.fromUTF8? content = some text ∧
        Chain.parse text = .ok chain := by
  unfold chainAt
  cases tree.read path with
  | error error =>
      simp
  | ok content =>
      cases hcontent : String.fromUTF8? content with
      | none =>
          simp [hcontent]
      | some text =>
          cases hparse : Chain.parse text <;> simp [hcontent, hparse]

theorem plan_eq_ok_iff {words : List String} {output : Output} :
    tree.plan words = .ok output ↔
      ∃ options path chain shaders,
        Options.parse words = .ok options ∧ options.chain = some path ∧
        tree.chainAt path = .ok chain ∧ (options.choose chain).build = .ok shaders ∧
        output =
          ⟨options.outputDirectory.getD (Path.directory path),
            outputFiles (options.choose chain).name shaders⟩ := by
  unfold plan
  cases Options.parse words with
  | error error =>
      simp
  | ok options =>
      cases hpath : options.chain with
      | none =>
          simp [hpath]
      | some path =>
          cases hchain : tree.chainAt path with
          | error failure =>
              simp [hpath, hchain]
          | ok chain =>
              cases hbuild : (options.choose chain).build <;>
                simp [Options.output, hpath, hchain, hbuild, eq_comm]

/-- Whatever the words and the files are, a run that ends well leaves the two sources
of every pass and the manifest in the output directory and touches no other file, and
a run that fails before it is to write has touched nothing. -/
theorem run_delivers_or_leaves (words : List String) (tree : FileTree) :
    (∀ final, perform (access.run words) tree = (.ok (), final) →
      ∃ options path content text chain shaders outer,
        Options.parse words = .ok options ∧ options.chain = some path ∧
        tree.read path = .ok content ∧ String.fromUTF8? content = some text ∧
        Chain.parse text = .ok chain ∧ (options.choose chain).build = .ok shaders ∧
        final.directoryPlace (options.outputDirectory.getD (Path.directory path)) =
          .ok outer ∧
        (tree.Rooted → options.outputDirectory = none →
          ∃ name, tree.locate path = .ok (name :: outer)) ∧
        tree.Delivers final outer (options.choose chain) shaders) ∧
    ∀ failure final, perform (access.run words) tree = (.error failure, final) →
      failure.Early → final = tree := by
  rw [perform_run]
  constructor
  · intro final hrun
    cases hplan : tree.plan words with
    | error failure =>
        simp [hplan] at hrun
    | ok output =>
        simp only [hplan] at hrun
        obtain ⟨options, path, chain, shaders, hoptions, hpath, hchain, hbuild, rfl⟩ :=
          plan_eq_ok_iff.mp hplan
        obtain ⟨content, text, hread, htext, hparse⟩ := chainAt_eq_ok_iff.mp hchain
        have hparsed : chain.Valid := Chain.valid_of_parse hparse
        have hvalid : (options.choose chain).Valid := hparsed
        obtain ⟨outer, houter, hsame, hdelivers⟩ := delivers_of_save hvalid hbuild hrun
        refine
          ⟨options, path, content, text, chain, shaders, outer, hoptions, hpath, hread, htext,
            hparse, hbuild, houter, ?_, hdelivers⟩
        intro hrooted hnone
        obtain ⟨name, around, hlocate, haround⟩ := directoryPlace_directory hrooted hread
        rw [hnone, Option.getD_none] at hsame
        obtain rfl : around = outer := hsame around haround
        exact ⟨name, hlocate⟩
  · intro failure final hrun hearly
    cases hplan : tree.plan words with
    | error early =>
        simp only [hplan, Prod.mk.injEq] at hrun
        exact hrun.2.symm
    | ok output =>
        simp only [hplan] at hrun
        exact absurd hearly (not_early_of_save hrun)

/-- A tree with the file of a chain without effects in a directory. -/
def plainTree : FileTree where
  nodes :=
    [(["c.json", "in"], .file "\x7b\"version\": \"1\"\x7d".toUTF8), (["in"], .directory)]
  working := []

theorem rooted_plainTree : plainTree.Rooted := by
  constructor
  · intro name outer hnode
    by_cases hfile : name :: outer = ["c.json", "in"]
    · obtain ⟨-, rfl⟩ := List.cons.inj hfile
      decide
    · by_cases hdirectory : name :: outer = ["in"]
      · obtain ⟨-, rfl⟩ := List.cons.inj hdirectory
        decide
      · have hnone : plainTree.node? (name :: outer) = none := by
          simp only [node?, plainTree, List.lookup_cons, List.lookup_nil, reduceCtorEq,
            beq_eq_false_iff_ne.mpr hfile, beq_eq_false_iff_ne.mpr hdirectory, if_false]
        exact absurd hnone hnode
  · decide

theorem plainTree_run_delivers :
    (∃ final chain shaders,
      perform (access.run ["--chain", "in/c.json"]) plainTree = (.ok (), final) ∧
        plainTree.Delivers final ["in"] chain shaders) ∧
      (perform (access.run ["--chain"]) plainTree).2 = plainTree := by
  constructor
  · have hends : (perform (access.run ["--chain", "in/c.json"]) plainTree).1.isOk = true := by
      decide +kernel
    cases hrun : perform (access.run ["--chain", "in/c.json"]) plainTree with
    | mk result final =>
        cases result with
        | error failure =>
            rw [hrun] at hends
            contradiction
        | ok =>
            obtain
              ⟨options, path, content, text, chain, shaders, outer, hoptions, hpath, -, -, -, -,
                -, houter, hdelivers⟩ :=
              (run_delivers_or_leaves ["--chain", "in/c.json"] plainTree).1 final hrun
            have hparsed :
                Options.parse ["--chain", "in/c.json"] =
                  .ok { chain := some "in/c.json" } := rfl
            obtain rfl := Except.ok.inj (hparsed.symm.trans hoptions)
            obtain rfl : "in/c.json" = path := Option.some.inj hpath
            have hlocated : plainTree.locate "in/c.json" = .ok ["c.json", "in"] := by
              decide +kernel
            obtain ⟨name, hname⟩ := houter rooted_plainTree rfl
            obtain ⟨-, rfl⟩ := List.cons.inj (Except.ok.inj (hlocated.symm.trans hname))
            exact ⟨final, _, shaders, rfl, hdelivers⟩
  · have hfails :
        perform (access.run ["--chain"]) plainTree =
          (.error (.badOptions (.missingValue .chain)),
            (perform (access.run ["--chain"]) plainTree).2) := rfl
    exact (run_delivers_or_leaves ["--chain"] plainTree).2 _ _ hfails trivial

end FileTree

end ShaderComposer
