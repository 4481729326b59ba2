import ShaderComposer.Command.Path

/-!
# Access to files

What the program needs of a file system: to read a file, to make a directory, to
tell whether there is one, and to write a file.  Each of them may fail for one of
a few reasons.  The program is written over any file system that offers these
operations, whether it is the real one or one that is only held in memory.
-/

namespace ShaderComposer

inductive FileError where
  | notFound
  | alreadyExists
  | notDirectory
  | isDirectory
  | nameTooLong
  /-- A name holds the character that ends names. -/
  | badName
  /-- The file does not hold a text. -/
  | notText
  | other (code : Nat) (text : String)
deriving DecidableEq

namespace FileError

/-- An error with the number that the system gives it. -/
def numbered (text : String) (code : Nat) : String :=
  text ++ " (os error " ++ toString code ++ ")"

def message : FileError → String
  | notFound => numbered "No such file or directory" 2
  | alreadyExists => numbered "File exists" 17
  | notDirectory => numbered "Not a directory" 20
  | isDirectory => numbered "Is a directory" 21
  | nameTooLong => numbered "File name too long" 36
  | badName => "file name contained an unexpected NUL byte"
  | notText => "stream did not contain valid UTF-8"
  | other code text => numbered text code

end FileError

structure FileAccess (m : Type → Type) where
  read : String → m (Except FileError ByteArray)
  makeDirectory : String → m (Except FileError Unit)
  isDirectory : String → m Bool
  write : String → String → m (Except FileError Unit)

namespace FileAccess

variable {m : Type → Type} [Monad m] (access : FileAccess m)

/-- What comes of an attempt to make a directory: one that is there already is
as good as a new one. -/
def accept (path : String) : Except FileError Unit → m (Except FileError Unit)
  | .ok () => return .ok ()
  | .error error => do
    if ← access.isDirectory path then return .ok () else return .error error

/-- Makes the first directory of a list, and the following ones before it if it
has nowhere to be. -/
def makeDirectories : List String → m (Except FileError Unit)
  | [] => return .ok ()
  | path :: ancestors => do
    match ← access.makeDirectory path with
    | .error .notFound =>
      match ← makeDirectories ancestors with
      | .error error => return .error error
      | .ok () => access.accept path (← access.makeDirectory path)
    | result => access.accept path result

/-- Makes sure that there is a directory, with all that it lies in.  The
directory without a name is there. -/
def ensureDirectory (path : String) : m (Except FileError Unit) :=
  if path = "" then return .ok () else access.makeDirectories (Path.withAncestors path)

def readText (path : String) : m (Except FileError String) := do
  match ← access.read path with
  | .error error => return .error error
  | .ok content =>
    match String.fromUTF8? content with
    | none => return .error .notText
    | some text => return .ok text

end FileAccess

end ShaderComposer
