import ShaderComposer.Command.Failure
import ShaderComposer.Command.Output

/-!
# Running the program

A run reads the chain it is given, composes its shaders and writes them to the
output directory, which is the chain's own directory unless another is named.
Nothing is made or written before all shaders are there; after that the files are
written one by one, up to the first that cannot be.
-/

namespace ShaderComposer

/-- What is left to write when all shaders are there. -/
structure Output where
  directory : String
  files : List OutputFile
deriving DecidableEq

def Options.choose (options : Options) (chain : Chain) : Chain :=
  { chain with dialect := options.dialect.getD chain.dialect }

def Options.output (options : Options) (path : String) (chain : Chain) :
    Except Failure Output :=
  let chain := options.choose chain
  match chain.build with
  | .error error => .error (.badComposition path error)
  | .ok shaders =>
    .ok {
      directory := options.outputDirectory.getD (Path.directory path)
      files := outputFiles chain.name shaders }

namespace FileAccess

variable {m : Type → Type} [Monad m] (access : FileAccess m)

def loadChain (path : String) : ExceptT Failure m Chain := do
  match ← access.readText path with
  | .error error => throw (.unreadableFile path error)
  | .ok text =>
    match Chain.parse text with
    | .error error => throw (.badChain path error)
    | .ok chain => return chain

/-- Writes files into a directory until one cannot be written. -/
def writeFiles (directory : String) : List OutputFile → ExceptT Failure m Unit
  | [] => return
  | file :: rest => do
    let path := Path.join directory file.name
    match ← access.write path file.text with
    | .error error => throw (.unwritableFile path error)
    | .ok () => writeFiles directory rest

def save (output : Output) : ExceptT Failure m Unit := do
  match ← access.ensureDirectory output.directory with
  | .error error => throw (.noDirectory output.directory error)
  | .ok () => access.writeFiles output.directory output.files

/-- Does what the words of the command line ask for. -/
def run (words : List String) : ExceptT Failure m Unit := do
  match Options.parse words with
  | .error error => throw (.badOptions error)
  | .ok options =>
    match options.chain with
    | none => throw .noChain
    | some path =>
      match options.output path (← access.loadChain path) with
      | .error failure => throw failure
      | .ok output => access.save output

end FileAccess

end ShaderComposer
