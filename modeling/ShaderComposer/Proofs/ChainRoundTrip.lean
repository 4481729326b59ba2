import ShaderComposer.Proofs.ChainBuilds
import ShaderComposer.Proofs.EffectReading

/-!
# Chains that are saved and loaded again

A chain is written with all its members, in the order of its fields, and every member
is in the form in which its reader takes it back: names and stems as texts, what is
missing as null, and settings as numbers and truth values.  The checks look at the
chain only, so they pass again.  The one thing that is not taken back is an amount
beyond the range of floats, which becomes infinite when it is read and is then written
as null; thresholds of that kind are refused at once.
-/

namespace ShaderComposer

namespace Chain

open Scan

variable {α : Type}

/-- The numbers among the settings of the effects. -/
def numbers (chain : Chain) : List Float32 :=
  chain.effects.flatMap ChainEffect.numbers

/-! ## Members -/

theorem once_of_reads
    {scan : Scan α} {document : Document} {value : α} (hreads : Reads scan document value)
    (name : String) ⦃rest : List Char⦄ (hrest : Delimited rest) :
    Reader.once name none scan (':' :: (document.compact ++ rest)) = .ok (some value, rest) := by
  have hstep (text : List Char) :
      Reader.once name none scan (':' :: text) =
        (scan >>= fun value => pure (some value)) text := rfl
  rw [hstep, bind_of_ok (hreads hrest)]
  rfl

theorem reads_nullable_ofOption
    {scan : Scan α} {item : α → Document} (hscan : ∀ value, Reads scan (item value) value)
    (hbegins : ∀ value, Begins (item value)) (option : Option α) :
    Reads (nullable scan) (Document.ofOption item option) option := by
  cases option with
  | none =>
      exact reads_nullable_null scan
  | some value =>
      exact (hscan value).nullable (hbegins value)

theorem reads_string (value : String) : Reads Reader.string (.string value) value :=
  reads_text "a string" value

theorem reads_dialect (room : Nat) (dialect : Dialect) :
    Reads (Reader.dialect room) dialect.document dialect := by
  intro rest _
  have hstep (text : List Char) :
      Reader.dialect room ('"' :: text) =
        (textLiteral .value >>= fun name => variant Reader.dialects name) ('"' :: text) := rfl
  have hname := textLiteral_append dialect.name rest
  obtain ⟨text, htext⟩ : ∃ text, Document.textLiteral dialect.name = '"' :: text := ⟨_, rfl⟩
  change Reader.dialect room (Document.textLiteral dialect.name ++ rest) = _
  rw [htext, List.cons_append] at hname ⊢
  rw [hstep, bind_of_ok hname]
  cases dialect <;> rfl

theorem metadata_object (room : Nat) (entries : List (String × Document)) (rest : List Char) :
    Reader.metadata room ((Document.object entries).compact ++ rest) =
      Reader.metadataObject room ((Document.object entries).compact ++ rest) := by
  rw [compact_object]
  rfl

theorem reads_metadata (room : Nat) (metadata : Metadata) :
    Reads (Reader.metadata (room + 1)) metadata.document metadata := by
  have hoption := reads_nullable_ofOption reads_string begins_string
  have hgathers :
      Gathers (Reader.metadataMember room) {}
        [("name", .string metadata.name), ("created", .ofOption .string metadata.created),
          ("modified", .ofOption .string metadata.modified)]
        ⟨some metadata.name, some metadata.created, some metadata.modified⟩ := by
    refine .more ⟨some metadata.name, none, none⟩ ?_
      (.more ⟨some metadata.name, some metadata.created, none⟩ ?_ (.more _ ?_ (.none _)))
    · intro rest hrest
      rw [Reader.metadataMember, if_pos rfl,
        bind_of_ok (once_of_reads (reads_string metadata.name) "name" hrest)]
      rfl
    · intro rest hrest
      rw [Reader.metadataMember, if_neg (by decide), if_pos rfl,
        bind_of_ok (once_of_reads (hoption metadata.created) "created" hrest)]
      rfl
    · intro rest hrest
      rw [Reader.metadataMember, if_neg (by decide), if_neg (by decide), if_pos rfl,
        bind_of_ok (once_of_reads (hoption metadata.modified) "modified" hrest)]
      rfl
  intro rest hrest
  rw [Metadata.document, metadata_object, Reader.metadataObject,
    bind_of_ok (reads_objectOf hgathers hrest)]
  rfl

theorem effects_array (room : Nat) (items : List Document) (rest : List Char) :
    Reader.effects room ((Document.array items).compact ++ rest) =
      arrayOf room Reader.effect ((Document.array items).compact ++ rest) := by
  rw [compact_array]
  rfl

theorem forall₂_reads_effect
    (room : Nat) {effects : List ChainEffect} (hsaveable : ∀ effect ∈ effects, effect.Saveable) :
    List.Forall₂ (Reads (Reader.effect (room + 1))) (effects.map ChainEffect.document)
      effects := by
  rw [List.forall₂_map_left_iff, List.forall₂_same]
  exact fun effect heffect => ChainEffect.reads_effect room (hsaveable effect heffect)

theorem begins_effect {effects : List ChainEffect} :
    ∀ item ∈ effects.map ChainEffect.document, Begins item := by
  intro item hitem
  obtain ⟨effect, -, rfl⟩ := List.mem_map.mp hitem
  cases effect <;> exact begins_object _

theorem reads_effects
    (room : Nat) {effects : List ChainEffect} (hsaveable : ∀ effect ∈ effects, effect.Saveable) :
    Reads (Reader.effects (room + 2)) (.array (effects.map ChainEffect.document)) effects := by
  intro rest hrest
  rw [effects_array]
  exact reads_arrayOf (forall₂_reads_effect room hsaveable) begins_effect hrest

/-- The first amount that is no finite number is where the effects are refused. -/
theorem refuses_effects
    (room : Nat) {front : List ChainEffect} (hsaveable : ∀ effect ∈ front, effect.Saveable)
    (adjustment : Adjustment) {amount : Float32} (hamount : amount.isFinite = false)
    (back : List ChainEffect) :
    Refuses (Reader.effects (room + 2))
      (.array ((front ++ .adjust adjustment amount :: back).map ChainEffect.document))
      (.mismatch (.invalidType .null "f32")) := by
  intro rest hrest
  rw [effects_array, List.map_append, List.map_cons]
  exact
    refuses_arrayOf (forall₂_reads_effect room hsaveable) begins_effect (begins_object _)
      (ChainEffect.refuses_effect room adjustment hamount) _ hrest

/-! ## Chains -/

/-- The members of a chain before its effects. -/
def leadingMembers (chain : Chain) : List (String × Document) :=
  [("version", .string chain.version),
    ("metadata", .ofOption Metadata.document chain.metadata),
    ("dialect", chain.dialect.document), ("manglePrefix", .string chain.stem)]

theorem gathers_leadingMembers (room : Nat) (chain : Chain) :
    Gathers (Reader.chainMember (room + 1)) {} chain.leadingMembers
      ⟨some chain.version, some chain.metadata, some chain.dialect, some chain.stem, none⟩ := by
  have hmetadata :=
    reads_nullable_ofOption (reads_metadata room) (fun _ => begins_object _) chain.metadata
  refine .more ⟨some chain.version, none, none, none, none⟩ ?_
    (.more ⟨some chain.version, some chain.metadata, none, none, none⟩ ?_
      (.more ⟨some chain.version, some chain.metadata, some chain.dialect, none, none⟩ ?_
        (.more _ ?_ (.none _))))
  · intro rest hrest
    rw [Reader.chainMember, if_pos rfl,
      bind_of_ok (once_of_reads (reads_string chain.version) "version" hrest)]
    rfl
  · intro rest hrest
    rw [Reader.chainMember, if_neg (by decide), if_pos rfl,
      bind_of_ok (once_of_reads hmetadata "metadata" hrest)]
    rfl
  · intro rest hrest
    rw [Reader.chainMember, if_neg (by decide), if_neg (by decide), if_pos rfl,
      bind_of_ok (once_of_reads (reads_dialect _ chain.dialect) "dialect" hrest)]
    rfl
  · intro rest hrest
    rw [Reader.chainMember, if_neg (by decide), if_neg (by decide), if_neg (by decide),
      if_pos rfl, bind_of_ok (once_of_reads (reads_string chain.stem) "manglePrefix" hrest)]
    rfl

theorem chain_object (room : Nat) (entries : List (String × Document)) (rest : List Char) :
    Reader.chain room ((Document.object entries).compact ++ rest) =
      Reader.chainObject room ((Document.object entries).compact ++ rest) := by
  rw [compact_object]
  rfl

theorem document_eq (chain : Chain) :
    chain.document =
      .object
        (chain.leadingMembers ++
          [("effects", .array (chain.effects.map ChainEffect.document))]) := rfl

theorem reads_chain
    (room : Nat) {chain : Chain} (hsaveable : ∀ effect ∈ chain.effects, effect.Saveable) :
    Reads (Reader.chain (room + 3)) chain.document chain := by
  intro rest hrest
  have hgathers :
      Gathers (Reader.chainMember (room + 2)) {}
        (chain.leadingMembers ++
          [("effects", .array (chain.effects.map ChainEffect.document))])
        ⟨some chain.version, some chain.metadata, some chain.dialect, some chain.stem,
          some chain.effects⟩ := by
    apply (gathers_leadingMembers (room + 1) chain).append
    refine .more _ ?_ (.none _)
    intro rest hrest
    rw [Reader.chainMember, if_neg (by decide), if_neg (by decide), if_neg (by decide),
      if_neg (by decide), if_pos rfl,
      bind_of_ok (once_of_reads (reads_effects room hsaveable) "effects" hrest)]
    rfl
  rw [document_eq, chain_object, Reader.chainObject,
    bind_of_ok (reads_objectOf hgathers hrest)]
  rfl

theorem refuses_chain
    (room : Nat) {chain : Chain} {front back : List ChainEffect} {adjustment : Adjustment}
    {amount : Float32} (heffects : chain.effects = front ++ .adjust adjustment amount :: back)
    (hsaveable : ∀ effect ∈ front, effect.Saveable) (hamount : amount.isFinite = false) :
    Refuses (Reader.chain (room + 3)) chain.document (.mismatch (.invalidType .null "f32")) := by
  intro rest hrest
  rw [document_eq, chain_object, Reader.chainObject, heffects]
  apply bind_of_error
  apply refuses_objectOf (gathers_leadingMembers (room + 1) chain) _ [] hrest
  intro text htext
  rw [Reader.chainMember, if_neg (by decide), if_neg (by decide), if_neg (by decide),
    if_neg (by decide), if_pos rfl]
  apply bind_of_error
  have hstep (text : List Char) :
      Reader.once "effects" none (Reader.effects (room + 2)) (':' :: text) =
        (Reader.effects (room + 2) >>= fun effects => pure (some effects)) text := rfl
  rw [hstep]
  exact bind_of_error (refuses_effects room hsaveable adjustment hamount back htext)

theorem toList_text (chain : Chain) : chain.text.toList = chain.document.compact ++ [] := by
  simp [text, Document.text]

theorem read_text
    {chain : Chain} (hsaveable : ∀ effect ∈ chain.effects, effect.Saveable) :
    read chain.text = .ok chain := by
  have hend : Delimited [] := fun c hc => by simp at hc
  have hreads : Reader.chain maxRoom (chain.document.compact ++ []) = .ok (chain, []) :=
    reads_chain 124 hsaveable hend
  rw [read, run, toList_text, bind_of_ok hreads]
  rfl

theorem read_text_of_not_finite
    {chain : Chain} {front back : List ChainEffect} {adjustment : Adjustment}
    {amount : Float32} (heffects : chain.effects = front ++ .adjust adjustment amount :: back)
    (hsaveable : ∀ effect ∈ front, effect.Saveable) (hamount : amount.isFinite = false) :
    read chain.text = .error (.mismatch (.invalidType .null "f32")) := by
  have hend : Delimited [] := fun c hc => by simp at hc
  have hrefuses :
      Reader.chain maxRoom (chain.document.compact ++ []) =
        .error (.mismatch (.invalidType .null "f32")) :=
    refuses_chain 124 heffects hsaveable hamount hend
  rw [read, run, toList_text, bind_of_error hrefuses]
  rfl

/-! ## Accepted chains -/

theorem fault?_blur_eq_none_iff
    {index radius : Nat} {linearFiltering : Bool} {threshold : Option Float32} :
    (ChainEffect.blur radius linearFiltering threshold).fault? index = none ↔
      radius ≤ maxBlurRadius ∧ ∀ x ∈ threshold, x.isFinite = true := by
  unfold ChainEffect.fault?
  by_cases hradius : maxBlurRadius < radius
  · simp [hradius, Nat.not_le.mpr hradius]
  · cases threshold <;> simp [hradius, Nat.le_of_not_lt hradius]

theorem effectFault?_eq_none
    {start : Nat} {effects : List ChainEffect} (hnone : effectFault? start effects = none) :
    ∀ effect ∈ effects, ∃ index, effect.fault? index = none := by
  induction effects generalizing start with
  | nil =>
      simp
  | cons first rest ih =>
      rw [effectFault?, Option.or_eq_none_iff] at hnone
      intro effect heffect
      rcases List.mem_cons.mp heffect with rfl | hlater
      · exact ⟨start, hnone.1⟩
      · exact ih hnone.2 effect hlater

theorem fault?_eq_none_of_valid
    {chain : Chain} (hvalid : chain.Valid) {effect : ChainEffect}
    (heffect : effect ∈ chain.effects) : ∃ index, effect.fault? index = none := by
  unfold Valid fault? at hvalid
  split at hvalid
  · contradiction
  · split at hvalid
    · contradiction
    · split at hvalid
      · contradiction
      · exact effectFault?_eq_none hvalid effect heffect

/-- The blurs of a valid chain are within bounds, so only its numbers matter. -/
theorem saveable_of_valid
    {chain : Chain} (hvalid : chain.Valid) {effect : ChainEffect}
    (heffect : effect ∈ chain.effects)
    (hnumbers : ∀ x ∈ effect.numbers, Number.ReadsBack x) : effect.Saveable := by
  cases effect with
  | adjust adjustment amount =>
      exact hnumbers amount (by simp [ChainEffect.numbers])
  | blur radius linearFiltering threshold =>
      obtain ⟨index, hindex⟩ := fault?_eq_none_of_valid hvalid heffect
      have hradius := (fault?_blur_eq_none_iff.mp hindex).1
      refine ⟨Nat.lt_of_le_of_lt hradius (by decide), fun x hx => hnumbers x ?_⟩
      simpa [ChainEffect.numbers] using hx

/-- A number of a valid chain that is not finite is the amount of an adjustment. -/
theorem exists_adjust_of_not_finite
    {chain : Chain} (hvalid : chain.Valid) {effect : ChainEffect}
    (heffect : effect ∈ chain.effects) {x : Float32} (hx : x ∈ effect.numbers)
    (hinfinite : x.isFinite = false) : ∃ adjustment, effect = .adjust adjustment x := by
  cases effect with
  | adjust adjustment amount =>
      obtain rfl : x = amount := by simpa [ChainEffect.numbers] using hx
      exact ⟨adjustment, rfl⟩
  | blur radius linearFiltering threshold =>
      obtain ⟨index, hindex⟩ := fault?_eq_none_of_valid hvalid heffect
      have hthreshold : x ∈ threshold := by simpa [ChainEffect.numbers] using hx
      have hfinite := (fault?_blur_eq_none_iff.mp hindex).2 x hthreshold
      rw [hinfinite] at hfinite
      contradiction

theorem parse_text_of_finite
    {chain : Chain} (hvalid : chain.Valid) (hnumbers : ∀ x ∈ chain.numbers, Number.ReadsBack x) :
    parse chain.text = .ok chain := by
  have hsaveable : ∀ effect ∈ chain.effects, effect.Saveable := by
    intro effect heffect
    apply saveable_of_valid hvalid heffect
    intro x hx
    exact hnumbers x (List.mem_flatMap.mpr ⟨effect, heffect, hx⟩)
  have hfault : chain.fault? = none := hvalid
  simp only [parse, read_text hsaveable, hfault]

theorem parse_text_of_not_finite
    {chain : Chain} (hvalid : chain.Valid)
    (hnumbers : ∀ x ∈ chain.numbers, x.isFinite = true → Number.ReadsBack x)
    (hinfinite : ∃ x ∈ chain.numbers, x.isFinite = false) :
    parse chain.text = .error (.unreadable (.mismatch (.invalidType .null "f32"))) := by
  have hfound :
      (chain.effects.find? fun effect => effect.numbers.any fun x => !x.isFinite).isSome := by
    obtain ⟨x, hx, hnot⟩ := hinfinite
    obtain ⟨effect, heffect, hmem⟩ := List.mem_flatMap.mp hx
    rw [List.find?_isSome]
    exact ⟨effect, heffect, List.any_eq_true.mpr ⟨x, hmem, by simp [hnot]⟩⟩
  obtain ⟨effect, hfirst⟩ := Option.isSome_iff_exists.mp hfound
  obtain ⟨hany, front, back, heffects, hfront⟩ := List.find?_eq_some_iff_append.mp hfirst
  obtain ⟨x, hx, hnot⟩ := List.any_eq_true.mp hany
  have hmem : effect ∈ chain.effects := by simp [heffects]
  obtain ⟨adjustment, rfl⟩ := exists_adjust_of_not_finite hvalid hmem hx (by simpa using hnot)
  have hsaveable : ∀ effect ∈ front, effect.Saveable := by
    intro other hother
    have hin : other ∈ chain.effects := by simp [heffects, hother]
    apply saveable_of_valid hvalid hin
    intro y hy
    apply hnumbers y (List.mem_flatMap.mpr ⟨other, hin, hy⟩)
    have hnone := hfront other hother
    simp only [Bool.not_eq_true', List.any_eq_false] at hnone
    simpa using hnone y hy
  have hread := read_text_of_not_finite heffects hsaveable (by simpa using hnot)
  simp only [parse, hread]

/-- If its finite numbers are read as written, a loaded chain whose amounts are all finite
is the same when it is saved and loaded again.  One with an amount that is not finite
cannot be loaded again. -/
theorem parse_text_of_parse
    {text : String} {chain : Chain} (hparse : parse text = .ok chain)
    (hnumbers : ∀ x ∈ chain.numbers, x.isFinite = true → Number.ReadsBack x) :
    ((∀ x ∈ chain.numbers, x.isFinite = true) → parse chain.text = .ok chain) ∧
      ((∃ x ∈ chain.numbers, x.isFinite = false) →
        parse chain.text = .error (.unreadable (.mismatch (.invalidType .null "f32")))) := by
  have hvalid := valid_of_parse hparse
  constructor
  · intro hfinite
    exact parse_text_of_finite hvalid fun x hx => hnumbers x hx (hfinite x hx)
  · exact parse_text_of_not_finite hvalid hnumbers

/-- Every kind of setting, with a name that needs escapes. -/
def settledText : String :=
  "\x7b\"version\":\"1\",\"metadata\":\x7b\"name\":\"a\\u0001\\\"b\"\x7d," ++
    "\"effects\":[\x7b\"type\":\"BlurReference\",\"blurRadius\":4," ++
    "\"luminanceThreshold\":0.1\x7d,\x7b\"type\":\"Contrast\",\"contrast\":-2e-7\x7d]\x7d"

/-- The amount is beyond the range of 32-bit floats. -/
def overflowingText : String :=
  "\x7b\"version\":\"1\",\"effects\":" ++
    "[\x7b\"type\":\"Brightness\",\"brightness\":1e39\x7d]\x7d"

theorem exists_settled_chain :
    ∃ chain, parse settledText = .ok chain ∧ chain.numbers.length = 2 ∧
      ∀ x ∈ chain.numbers, x.isFinite = true ∧ Number.ReadsBack x := by
  have haccepted :
      ((parse settledText).toOption.map fun chain =>
          (chain.numbers.length,
            decide (∀ x ∈ chain.numbers, x.isFinite = true ∧ Number.ReadsBack x))) =
        some (2, true) := by
    decide +kernel
  cases hparse : parse settledText with
  | error error =>
      rw [hparse] at haccepted
      contradiction
  | ok chain =>
      rw [hparse] at haccepted
      obtain ⟨hlength, hnumbers⟩ := Prod.mk.inj (Option.some.inj haccepted)
      exact ⟨chain, rfl, hlength, of_decide_eq_true hnumbers⟩

theorem exists_overflowing_chain :
    ∃ chain, parse overflowingText = .ok chain ∧ (∃ x ∈ chain.numbers, x.isFinite = false) ∧
      ∀ x ∈ chain.numbers, x.isFinite = true → Number.ReadsBack x := by
  have haccepted :
      ((parse overflowingText).toOption.map fun chain =>
          decide
            ((∃ x ∈ chain.numbers, x.isFinite = false) ∧
              ∀ x ∈ chain.numbers, x.isFinite = true → Number.ReadsBack x)) =
        some true := by
    decide +kernel
  cases hparse : parse overflowingText with
  | error error =>
      rw [hparse] at haccepted
      contradiction
  | ok chain =>
      rw [hparse] at haccepted
      exact ⟨chain, rfl, of_decide_eq_true (Option.some.inj haccepted)⟩

theorem settled_chain_is_loaded_again :
    (∃ chain, parse settledText = .ok chain ∧ chain.numbers.length = 2 ∧
      parse chain.text = .ok chain) ∧
      ∃ chain, parse overflowingText = .ok chain ∧
        parse chain.text = .error (.unreadable (.mismatch (.invalidType .null "f32"))) := by
  constructor
  · obtain ⟨chain, hparse, hlength, hnumbers⟩ := exists_settled_chain
    have hloaded :=
      (parse_text_of_parse hparse fun x hx _ => (hnumbers x hx).2).1 fun x hx =>
        (hnumbers x hx).1
    exact ⟨chain, hparse, hlength, hloaded⟩
  · obtain ⟨chain, hparse, hinfinite, hnumbers⟩ := exists_overflowing_chain
    exact ⟨chain, hparse, (parse_text_of_parse hparse hnumbers).2 hinfinite⟩

/-- Not every accepted chain can be loaded again. -/
theorem not_every_chain_is_loaded_again :
    ¬ ∀ text chain, parse text = .ok chain →
        (∀ x ∈ chain.numbers, x.isFinite = true → Number.ReadsBack x) →
        parse chain.text = .ok chain := by
  intro hloaded
  obtain ⟨chain, hparse, hinfinite, hnumbers⟩ := exists_overflowing_chain
  have hfails := parse_text_of_not_finite (valid_of_parse hparse) hnumbers hinfinite
  rw [hloaded overflowingText chain hparse hnumbers] at hfails
  cases hfails

end Chain

end ShaderComposer
