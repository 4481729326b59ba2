import ShaderComposer.Dialect

/-!
# Options

The words of the command line are pairs of a flag and its value.  A value may be
any word, even one that looks like a flag, and of several values for one option
the last counts.  The words are read from left to right, and the first pair that
does not fit is reported.
-/

namespace ShaderComposer

inductive OptionKind where
  | chain
  | outputDirectory
  | dialect
deriving DecidableEq

namespace OptionKind

def flag : OptionKind → String
  | chain => "--chain"
  | outputDirectory => "--output-dir"
  | dialect => "--dialect"

/-- The option of a flag.  That of the output directory has two spellings. -/
def ofFlag? (word : String) : Option OptionKind :=
  if word = "--chain" then some chain
  else if word = "--output-dir" ∨ word = "--outputdir" then some outputDirectory
  else if word = "--dialect" then some dialect
  else none

@[simp] theorem ofFlag?_flag (kind : OptionKind) : ofFlag? kind.flag = some kind := by
  cases kind <;> decide

end OptionKind

structure Options where
  chain : Option String := none
  outputDirectory : Option String := none
  dialect : Option Dialect := none
deriving DecidableEq

inductive OptionsError where
  | missingValue (kind : OptionKind)
  | unknownDialect (given : String)
  | unknownFlag (given : String)
deriving DecidableEq

def OptionsError.message : OptionsError → String
  | missingValue kind => "missing value for " ++ kind.flag
  | unknownDialect given => "unknown dialect: " ++ given ++ " (supported: gl, metal)"
  | unknownFlag given =>
    "unknown argument: " ++ given ++
      " (supported: --chain <chain.json>, --output-dir <dir>, --dialect gl|metal)"

namespace Options

def set (options : Options) (kind : OptionKind) (value : String) :
    Except OptionsError Options :=
  match kind with
  | .chain => .ok { options with chain := some value }
  | .outputDirectory => .ok { options with outputDirectory := some value }
  | .dialect =>
    match Dialect.ofName? value with
    | some dialect => .ok { options with dialect := some dialect }
    | none => .error (.unknownDialect value)

def parseFrom (options : Options) : List String → Except OptionsError Options
  | [] => .ok options
  | [word] =>
    match OptionKind.ofFlag? word with
    | some kind => .error (.missingValue kind)
    | none => .error (.unknownFlag word)
  | word :: value :: rest =>
    match OptionKind.ofFlag? word with
    | some kind => do parseFrom (← options.set kind value) rest
    | none => .error (.unknownFlag word)

def parse (words : List String) : Except OptionsError Options :=
  parseFrom {} words

end Options

end ShaderComposer
