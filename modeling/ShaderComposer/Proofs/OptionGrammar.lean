import ShaderComposer.Command.Options
import Mathlib.Data.List.Induction
import Mathlib.Tactic.Tauto

/-!
# The words that options are read from

A command line is a sequence of pairs, each a flag and its value.  Which pairs fit is
said here without the reader: the flag is one of four words, and the value of a dialect
is the name of one.  The reader passes over the pairs that fit, keeping for each option
the value seen last, and stops at the first pair that does not.  Every list of words
has a longest front of fitting pairs, so reading either takes all of it or reports what
stands behind that front.
-/

namespace ShaderComposer

/-- The words that stand for an option. -/
def OptionKind.spellings : OptionKind → List String
  | chain => ["--chain"]
  | outputDirectory => ["--output-dir", "--outputdir"]
  | dialect => ["--dialect"]

structure FlagPair where
  flag : String
  value : String
deriving DecidableEq

namespace FlagPair

def words (pair : FlagPair) : List String :=
  [pair.flag, pair.value]

structure Fits (pair : FlagPair) : Prop where
  flag : pair.flag ∈ ["--chain", "--output-dir", "--outputdir", "--dialect"]
  dialect : pair.flag = "--dialect" → pair.value = "gl" ∨ pair.value = "metal"

/-- The value of the last pair for an option. -/
def lastValue (kind : OptionKind) (pairs : List FlagPair) : Option String :=
  ((pairs.filter fun pair => kind.spellings.contains pair.flag).getLast?).map value

end FlagPair

/-- Every option has the value of its last pair, and none without a pair. -/
structure Options.TakenFrom (options : Options) (pairs : List FlagPair) : Prop where
  chain : options.chain = FlagPair.lastValue .chain pairs
  outputDirectory : options.outputDirectory = FlagPair.lastValue .outputDirectory pairs
  dialect : options.dialect.map Dialect.name = FlagPair.lastValue .dialect pairs

/-- The words begin with something that is no fitting pair, which a message describes. -/
inductive Misfit : List String → String → Prop
  | unknownFlag {word : String} (rest : List String)
      (hword : word ∉ ["--chain", "--output-dir", "--outputdir", "--dialect"]) :
      Misfit (word :: rest)
        ("unknown argument: " ++ word ++
          " (supported: --chain <chain.json>, --output-dir <dir>, --dialect gl|metal)")
  | missingValue {kind : OptionKind} {word : String} (hword : word ∈ kind.spellings) :
      Misfit [word] ("missing value for " ++ kind.flag)
  | unknownDialect {value : String} (rest : List String)
      (hvalue : value ≠ "gl" ∧ value ≠ "metal") :
      Misfit ("--dialect" :: value :: rest)
        ("unknown dialect: " ++ value ++ " (supported: gl, metal)")

namespace OptionKind

theorem ofFlag?_eq_some_iff {word : String} {kind : OptionKind} :
    ofFlag? word = some kind ↔ word ∈ kind.spellings := by
  unfold ofFlag?
  cases kind <;> grind [spellings]

theorem ofFlag?_eq_none_iff {word : String} :
    ofFlag? word = none ↔
      word ∉ ["--chain", "--output-dir", "--outputdir", "--dialect"] := by
  unfold ofFlag?
  grind

end OptionKind

theorem Dialect.ofName?_eq_none_iff {text : String} :
    ofName? text = none ↔ text ≠ "gl" ∧ text ≠ "metal" := by
  simp [ofName?, List.find?_eq_none, all, name, eq_comm (b := text)]

namespace FlagPair

@[simp] theorem words_append (pair : FlagPair) (rest : List String) :
    pair.words ++ rest = pair.flag :: pair.value :: rest :=
  rfl

theorem Fits.exists_kind {pair : FlagPair} (hfits : pair.Fits) :
    ∃ kind, OptionKind.ofFlag? pair.flag = some kind := by
  cases hkind : OptionKind.ofFlag? pair.flag with
  | some kind =>
      exact ⟨kind, rfl⟩
  | none =>
      exact absurd hfits.flag (OptionKind.ofFlag?_eq_none_iff.mp hkind)

theorem Fits.exists_dialect
    {pair : FlagPair} (hfits : pair.Fits)
    (hkind : OptionKind.ofFlag? pair.flag = some .dialect) :
    ∃ dialect, Dialect.ofName? pair.value = some dialect := by
  have hflag : pair.flag = "--dialect" := by
    simpa [OptionKind.spellings] using OptionKind.ofFlag?_eq_some_iff.mp hkind
  cases hvalue : Dialect.ofName? pair.value with
  | some dialect =>
      exact ⟨dialect, rfl⟩
  | none =>
      have hnone := Dialect.ofName?_eq_none_iff.mp hvalue
      have hsome := hfits.dialect hflag
      tauto

theorem lastValue_concat
    (kind : OptionKind) (pairs : List FlagPair) (pair : FlagPair) :
    lastValue kind (pairs ++ [pair]) =
      if OptionKind.ofFlag? pair.flag = some kind then some pair.value
      else lastValue kind pairs := by
  simp only [lastValue, List.filter_append, OptionKind.ofFlag?_eq_some_iff]
  by_cases hmem : pair.flag ∈ kind.spellings
  · simp [hmem]
  · simp [hmem]

end FlagPair

namespace Options

/-- The options after a pair that fits. -/
def put (options : Options) (pair : FlagPair) : Options :=
  match OptionKind.ofFlag? pair.flag with
  | some .chain => { options with chain := some pair.value }
  | some .outputDirectory => { options with outputDirectory := some pair.value }
  | some .dialect => { options with dialect := Dialect.ofName? pair.value }
  | none => options

theorem parseFrom_pair
    (options : Options) {pair : FlagPair} (hfits : pair.Fits) (rest : List String) :
    parseFrom options (pair.words ++ rest) = parseFrom (options.put pair) rest := by
  obtain ⟨kind, hkind⟩ := hfits.exists_kind
  have hset : options.set kind pair.value = .ok (options.put pair) := by
    cases kind with
    | chain =>
        simp [set, put, hkind]
    | outputDirectory =>
        simp [set, put, hkind]
    | dialect =>
        obtain ⟨dialect, hdialect⟩ := hfits.exists_dialect hkind
        simp [set, put, hkind, hdialect]
  rw [FlagPair.words_append, parseFrom, hkind]
  simp only [hset]
  rfl

theorem parseFrom_pairs
    {pairs : List FlagPair} (hfits : ∀ pair ∈ pairs, pair.Fits)
    (options : Options) (rest : List String) :
    parseFrom options (pairs.flatMap FlagPair.words ++ rest) =
      parseFrom (pairs.foldl put options) rest := by
  induction pairs generalizing options with
  | nil =>
      rfl
  | cons pair pairs ih =>
      have hpair : pair.Fits := hfits pair List.mem_cons_self
      have hpairs : ∀ other ∈ pairs, other.Fits :=
        fun other hother => hfits other (List.mem_cons_of_mem pair hother)
      rw [List.flatMap_cons, List.append_assoc, parseFrom_pair options hpair,
        ih hpairs, List.foldl_cons]

theorem TakenFrom.concat
    {pairs : List FlagPair} {options : Options} (htaken : options.TakenFrom pairs)
    {pair : FlagPair} (hfits : pair.Fits) :
    (options.put pair).TakenFrom (pairs ++ [pair]) := by
  obtain ⟨kind, hkind⟩ := hfits.exists_kind
  cases kind with
  | chain =>
      constructor <;>
        simp [put, FlagPair.lastValue_concat, hkind, htaken.outputDirectory, htaken.dialect]
  | outputDirectory =>
      constructor <;>
        simp [put, FlagPair.lastValue_concat, hkind, htaken.chain, htaken.dialect]
  | dialect =>
      obtain ⟨dialect, hdialect⟩ := hfits.exists_dialect hkind
      have hname : dialect.name = pair.value := Dialect.name_of_ofName? hdialect
      constructor <;>
        simp [put, FlagPair.lastValue_concat, hkind, hdialect, hname, htaken.chain,
          htaken.outputDirectory]

theorem takenFrom_foldl
    {pairs : List FlagPair} (hfits : ∀ pair ∈ pairs, pair.Fits) :
    (pairs.foldl put {}).TakenFrom pairs := by
  induction pairs using List.reverseRecOn with
  | nil =>
      exact ⟨rfl, rfl, rfl⟩
  | append_singleton pairs pair ih =>
      rw [List.foldl_append, List.foldl_cons, List.foldl_nil]
      have hpairs : ∀ other ∈ pairs, other.Fits :=
        fun other hother => hfits other (List.mem_append_left _ hother)
      exact (ih hpairs).concat (hfits pair (by simp))

theorem parse_pairs
    {pairs : List FlagPair} (hfits : ∀ pair ∈ pairs, pair.Fits) (rest : List String) :
    parse (pairs.flatMap FlagPair.words ++ rest) = parseFrom (pairs.foldl put {}) rest :=
  parseFrom_pairs hfits {} rest

theorem parseFrom_misfit
    {words : List String} {message : String} (hmisfit : Misfit words message)
    (options : Options) :
    ∃ cause, parseFrom options words = .error cause ∧ cause.message = message := by
  cases hmisfit with
  | @unknownFlag word rest hword =>
      have hnone := OptionKind.ofFlag?_eq_none_iff.mpr hword
      refine ⟨.unknownFlag word, ?_, rfl⟩
      cases rest <;> simp [parseFrom, hnone]
  | @missingValue kind word hword =>
      have hkind := OptionKind.ofFlag?_eq_some_iff.mpr hword
      exact ⟨.missingValue kind, by simp [parseFrom, hkind], rfl⟩
  | @unknownDialect value rest hvalue =>
      have hkind : OptionKind.ofFlag? "--dialect" = some .dialect :=
        OptionKind.ofFlag?_flag .dialect
      have hnone := Dialect.ofName?_eq_none_iff.mpr hvalue
      refine ⟨.unknownDialect value, ?_, rfl⟩
      simp only [parseFrom, hkind, set, hnone]
      rfl

end Options

theorem FlagPair.exists_misfit_of_not_fits
    {pair : FlagPair} (hfits : ¬ pair.Fits) (rest : List String) :
    ∃ message, Misfit (pair.words ++ rest) message := by
  by_cases hflag : pair.flag ∈ ["--chain", "--output-dir", "--outputdir", "--dialect"]
  · have hdialect :
        pair.flag = "--dialect" ∧ pair.value ≠ "gl" ∧ pair.value ≠ "metal" := by
      by_contra hnot
      exact hfits ⟨hflag, by tauto⟩
    rw [words_append, hdialect.1]
    exact ⟨_, .unknownDialect rest hdialect.2⟩
  · exact ⟨_, .unknownFlag (pair.value :: rest) hflag⟩

/-- What stands behind the longest front of fitting pairs is nothing or a misfit. -/
theorem exists_fitting_front :
    ∀ words : List String, ∃ (pairs : List FlagPair) (rest : List String),
      words = pairs.flatMap FlagPair.words ++ rest ∧ (∀ pair ∈ pairs, pair.Fits) ∧
        (rest = [] ∨ ∃ message, Misfit rest message)
  | [] => ⟨[], [], rfl, by simp, .inl rfl⟩
  | [word] => by
      refine ⟨[], [word], rfl, by simp, .inr ?_⟩
      cases hkind : OptionKind.ofFlag? word with
      | none =>
          exact ⟨_, .unknownFlag [] (OptionKind.ofFlag?_eq_none_iff.mp hkind)⟩
      | some kind =>
          exact ⟨_, .missingValue (OptionKind.ofFlag?_eq_some_iff.mp hkind)⟩
  | word :: value :: others => by
      by_cases hfits : FlagPair.Fits ⟨word, value⟩
      · obtain ⟨pairs, rest, hothers, hpairs, hrest⟩ := exists_fitting_front others
        refine ⟨⟨word, value⟩ :: pairs, rest, ?_, ?_, hrest⟩
        · rw [hothers]
          rfl
        · exact List.forall_mem_cons.mpr ⟨hfits, hpairs⟩
      · exact
          ⟨[], word :: value :: others, rfl, by simp,
            .inr (FlagPair.exists_misfit_of_not_fits hfits others)⟩

namespace Options

/-- Reading succeeds with the last values on fitting pairs, and on nothing else; it
fails with the message for what stands behind the fitting pairs in front. -/
theorem parse_reads_fitting_pairs (words : List String) :
    ((∃ options, parse words = .ok options) ↔
      ∃ pairs : List FlagPair,
        words = pairs.flatMap FlagPair.words ∧ ∀ pair ∈ pairs, pair.Fits) ∧
    (∀ options, parse words = .ok options →
      ∃ pairs : List FlagPair,
        words = pairs.flatMap FlagPair.words ∧ (∀ pair ∈ pairs, pair.Fits) ∧
          options.TakenFrom pairs) ∧
    (∀ cause, parse words = .error cause →
      ∃ (pairs : List FlagPair) (rest : List String),
        words = pairs.flatMap FlagPair.words ++ rest ∧ (∀ pair ∈ pairs, pair.Fits) ∧
          Misfit rest cause.message) := by
  obtain ⟨pairs, rest, hwords, hfits, hrest⟩ := exists_fitting_front words
  have hparse : parse words = parseFrom (pairs.foldl put {}) rest := by
    rw [hwords, parse_pairs hfits]
  rcases hrest with hrest | ⟨message, hmisfit⟩
  · subst hrest
    rw [List.append_nil] at hwords
    have hok : parse words = .ok (pairs.foldl put {}) := by
      rw [hparse, parseFrom]
    refine ⟨⟨fun _ => ⟨pairs, hwords, hfits⟩, fun _ => ⟨_, hok⟩⟩, ?_, ?_⟩
    · intro options hoptions
      obtain rfl : pairs.foldl put {} = options := Except.ok.inj (hok.symm.trans hoptions)
      exact ⟨pairs, hwords, hfits, takenFrom_foldl hfits⟩
    · intro cause hcause
      rw [hok] at hcause
      contradiction
  · obtain ⟨cause, herror, hmessage⟩ := parseFrom_misfit hmisfit (pairs.foldl put {})
    rw [← hparse] at herror
    refine ⟨⟨?_, ?_⟩, ?_, ?_⟩
    · rintro ⟨options, hoptions⟩
      rw [herror] at hoptions
      contradiction
    · rintro ⟨others, hothers, hothersFit⟩
      -- fitting pairs are read to the end
      refine ⟨others.foldl put {}, ?_⟩
      rw [hothers, ← List.append_nil (others.flatMap _), parse_pairs hothersFit, parseFrom]
    · intro options hoptions
      rw [herror] at hoptions
      contradiction
    · intro other hother
      obtain rfl : cause = other := Except.error.inj (herror.symm.trans hother)
      exact ⟨pairs, rest, hwords, hfits, hmessage ▸ hmisfit⟩

/-- A word in the place of a value is one, whatever it looks like. -/
example :
    parse ["--chain", "--dialect", "--outputdir", "first", "--output-dir", "last"] =
      .ok { chain := some "--dialect", outputDirectory := some "last" } := by
  decide

end Options

end ShaderComposer
