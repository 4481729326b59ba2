import ShaderComposer.Command.Run

/-!
# The command line

The program over the real file system.  A failed run is reported on the standard
error output and ends with one, any other ends silently with zero.
-/

namespace ShaderComposer

/-- The number that the system gives an error.  It may come with its sign turned. -/
def errorNumber (code : UInt32) : Nat :=
  if code < 0x80000000 then code.toNat else (0 - code).toNat

def FileError.ofNumber (number : Nat) (text : String) : FileError :=
  match number with
  | 2 => .notFound
  | 17 => .alreadyExists
  | 20 => .notDirectory
  | 21 => .isDirectory
  | 36 => .nameTooLong
  | _ => .other number text.capitalize

def FileError.ofSystem : IO.Error → FileError
  | .alreadyExists _ code text | .otherError code text | .resourceBusy code text
  | .resourceVanished code text | .unsupportedOperation code text
  | .hardwareFault code text | .unsatisfiedConstraints code text
  | .illegalOperation code text | .protocolError code text | .timeExpired code text
  | .interrupted _ code text | .noFileOrDirectory _ code text
  | .invalidArgument _ code text | .permissionDenied _ code text
  | .resourceExhausted _ code text | .inappropriateType _ code text
  | .noSuchThing _ code text => .ofNumber (errorNumber code) text
  | .unexpectedEof => .notText
  | .userError _ => .badName

/-- An operation on a path that can be given to the system. -/
def attempt (path : String) (operation : IO α) : IO (Except FileError α) := do
  if path.toList.contains '\x00' then return .error .badName
  try
    return .ok (← operation)
  catch error =>
    return .error (.ofSystem error)

/-- Access to the files of the system.  A directory holds a dot for itself, which
exists already; nothing else does. -/
def systemAccess : FileAccess IO where
  read path := attempt path (IO.FS.readBinFile path)
  makeDirectory path := attempt path (IO.FS.createDir path)
  isDirectory path := do
    match ← attempt path (IO.FS.createDir (Path.join path ".")) with
    | .error .alreadyExists => return true
    | _ => return false
  write path text := attempt path (IO.FS.writeFile path text)

end ShaderComposer

open ShaderComposer in
/-- Runs the program on the words of the command line. -/
def main (words : List String) : IO UInt32 := do
  match ← (systemAccess.run words).run with
  | .ok () => return 0
  | .error failure =>
    IO.eprintln failure.report
    return 1
