import LoadBridge.Command.Run

/-!
# Main

Runs the command line on the files of the system.
-/

namespace LoadBridge

/-- The number and the words of the system for a failure, where it gives them. -/
def systemCode? : IO.Error → Option (UInt32 × String)
  | .alreadyExists _ code details | .otherError code details | .resourceBusy code details
  | .resourceVanished code details | .unsupportedOperation code details
  | .hardwareFault code details | .unsatisfiedConstraints code details
  | .illegalOperation code details | .protocolError code details | .timeExpired code details
  | .interrupted _ code details | .noFileOrDirectory _ code details
  | .invalidArgument _ code details | .permissionDenied _ code details
  | .resourceExhausted _ code details | .inappropriateType _ code details
  | .noSuchThing _ code details => some (code, details)
  | .unexpectedEof | .userError _ => none

/-- The cause of a failure.  Some operations of the system give its number negated. -/
def fileError (e : IO.Error) : FileError :=
  match systemCode? e with
  | none => .system e.toString
  | some (code, details) =>
    match min code.toNat (UInt32.size - code.toNat) with
    | 2 => .notFound
    | 17 => .alreadyExists
    | 20 => .notADirectory
    | 21 => .isADirectory
    | 36 => .nameTooLong
    | n => .system (details ++ " (os error " ++ n.repr ++ ")")

/-- Runs an operation of the system and answers its failure. -/
def attempt (action : IO α) : IO (Except FileError α) := do
  match ← action.toBaseIO with
  | .ok a => pure (.ok a)
  | .error e => pure (.error (fileError e))

/-- Makes a directory, unless there is one already. -/
def ensureSystemDirectory (path : String) : IO (Except FileError Unit) := do
  match ← attempt (IO.FS.createDir path) with
  | .error .alreadyExists => attempt (IO.FS.createDirAll path)
  | result => pure result

/-- The operations of the system. -/
def systemFiles : FileAccess IO where
  read path := attempt (IO.FS.readFile path)
  ensureDirectory := ensureSystemDirectory
  write path text := attempt (IO.FS.writeFile path text)

end LoadBridge

def main (words : List String) : IO UInt32 := do
  let result ← LoadBridge.Invocation.run LoadBridge.systemFiles words
  IO.print result.stdout
  IO.eprint result.stderr
  pure result.exitCode
