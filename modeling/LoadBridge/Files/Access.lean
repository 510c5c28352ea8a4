import LoadBridge.Text.Blank

/-!
# Files — Access

What the commands need of a file system, as operations in any monad: the commands run on the files
of the system and on a tree in memory alike.
-/

namespace LoadBridge

/-- Why a file operation fails. -/
inductive FileError where
  | notFound
  | notADirectory
  | isADirectory
  | alreadyExists
  | nameTooLong
  /-- The path holds the character that ends paths in system calls. -/
  | nulInPath
  /-- Any other reason, in the words of the system. -/
  | system (reason : String)
  deriving DecidableEq, Inhabited

def FileError.message : FileError → String
  | .notFound => "No such file or directory (os error 2)"
  | .notADirectory => "Not a directory (os error 20)"
  | .isADirectory => "Is a directory (os error 21)"
  | .alreadyExists => "File exists (os error 17)"
  | .nameTooLong => "File name too long (os error 36)"
  | .nulInPath => "file name contained an unexpected NUL byte"
  | .system reason => reason

/-- The operations on files. -/
structure FileAccess (m : Type → Type) where
  /-- The text of a file. -/
  read : String → m (Except FileError String)
  /-- Makes a directory, unless there is one already.  The one it is in must be there. -/
  ensureDirectory : String → m (Except FileError Unit)
  /-- Makes a file with this text, in place of one that is there. -/
  write : String → String → m (Except FileError Unit)

/-! ### Paths -/

/-- The pieces between slashes, as they stand.  There is always one. -/
def slashPieces : List Char → List (List Char)
  | [] => [[]]
  | '/' :: rest => [] :: slashPieces rest
  | c :: rest => (slashPieces rest).modifyHead (c :: ·)

/-- The names in a path.  Slashes next to each other have an empty name between them. -/
def namesIn (path : String) : List String := (slashPieces path.toList).map .ofList

/-- A path inside a directory.  A name that starts at the root is a path already. -/
def inDirectory (directory name : String) : String :=
  if Text.startsWith name "/" then name
  else if directory.toList.getLast? = some '/' then directory ++ name
  else directory ++ "/" ++ name

/-- The paths of the directories that a path is in, innermost first, as far as they are written:
neither the root nor the directory where relative paths start is one. -/
def directoriesOf (path : String) : List String :=
  let names := namesIn path
  let counts := (List.range names.length).filter fun n =>
    (names[n - 1]?).any fun name => n != 0 && name != "" && name != "."
  (counts.map fun n => "/".intercalate (names.take n)).reverse

/-! ### Directories within directories -/

namespace FileAccess

variable {m : Type → Type} [Monad m]

/-- Makes the first of some directories, each of which is in the next.  While they are missing it
goes on to the next one, and on its way back it makes them. -/
def ensureFirst (fs : FileAccess m) : List String → m (Except FileError Unit)
  | [] => pure (.ok ())
  | path :: outer => do
    match ← fs.ensureDirectory path with
    | .error .notFound =>
      match ← fs.ensureFirst outer with
      | .ok () => fs.ensureDirectory path
      | .error e => pure (.error e)
    | result => pure result

/-- Makes a directory and those it is in, as far as they are missing. -/
def ensureDirectories (fs : FileAccess m) (path : String) : m (Except FileError Unit) :=
  fs.ensureFirst (path :: directoriesOf path)

end FileAccess

end LoadBridge
