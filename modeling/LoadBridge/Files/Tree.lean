import LoadBridge.Files.Access

/-!
# Files — A tree in memory

Directories and files by their place, which is a list of names from the root.  A written path is
walked name by name: each name but the last must be that of a directory, `.` stays where it is and
`..` goes up, at the root nowhere.
-/

namespace LoadBridge

/-- A place in a tree: the names on the way from the root. -/
abbrev Place : Type := List String

/-- What is at a place. -/
inductive FileEntry where
  | directory
  | file (text : String)
  deriving DecidableEq, Inhabited

/-- Directories and files.  The root is a directory that has no entry. -/
structure FileTree where
  entries : List (Place × FileEntry)
  /-- The directory in which relative paths start. -/
  start : Place
  deriving Inhabited

namespace FileTree

/-- What is at a place, if anything is. -/
def at? (t : FileTree) (place : Place) : Option FileEntry :=
  if place.isEmpty then some .directory else t.entries.lookup place

/-- Puts something at a place, in place of what is there. -/
def put (t : FileTree) (place : Place) (entry : FileEntry) : FileTree :=
  if t.entries.any (fun e => e.1 == place) then
    { t with entries := t.entries.map fun e => if e.1 == place then (place, entry) else e }
  else { t with entries := t.entries ++ [(place, entry)] }

/-! ### Paths -/

/-- The longest name, in bytes. -/
def longestName : Nat := 255

/-- The longest path, in bytes. -/
def longestPath : Nat := 4095

/-- The names in a path that the tree can look up. -/
def steps (path : String) : Except FileError (List String) :=
  if path.toList.contains (Char.ofNat 0) then .error .nulInPath
  else if path.isEmpty then .error .notFound
  else if path.utf8ByteSize > longestPath then .error .nameTooLong
  else .ok (namesIn path)

/-- Names without the empty ones at their end. -/
def withoutTrailing (names : List String) : List String :=
  (names.reverse.dropWhile String.isEmpty).reverse

/-- The place where a path starts. -/
def origin (t : FileTree) (path : String) : Place :=
  if Text.startsWith path "/" then [] else t.start

/-- Accepts the place of a directory. -/
def enter (t : FileTree) (place : Place) : Except FileError Unit :=
  match t.at? place with
  | some .directory => .ok ()
  | some (.file _) => .error .notADirectory
  | none => .error .notFound

/-- Where one name leads from a place. -/
def step (t : FileTree) (place : Place) (name : String) : Except FileError Place := do
  t.enter place
  if name = "" ∨ name = "." then pure place
  else if name = ".." then pure place.dropLast
  else if name.utf8ByteSize > longestName then .error .nameTooLong
  else pure (place ++ [name])

/-- Where names lead from a place, one after the other. -/
def walk (t : FileTree) (place : Place) (names : List String) : Except FileError Place :=
  names.foldlM t.step place

/-! ### Operations -/

/-- The text of a file. -/
def read (t : FileTree) (path : String) : Except FileError String := do
  let place ← t.walk (t.origin path) (← steps path)
  match t.at? place with
  | some (.file text) => .ok text
  | some .directory => .error .isADirectory
  | none => .error .notFound

/-- Makes a directory, unless there is one already.  The one it is in must be there. -/
def ensureDirectory (t : FileTree) (path : String) : Except FileError FileTree := do
  let place ← t.walk (t.origin path) (withoutTrailing (← steps path))
  match t.at? place with
  | some .directory => .ok t
  | some (.file _) => .error .alreadyExists
  | none => .ok (t.put place .directory)

/-- Makes a file with this text, in place of one that is there.  Its directory must be there.  A path
that ends with a slash names a directory, whatever its last name is. -/
def write (t : FileTree) (path text : String) : Except FileError FileTree := do
  let names ← steps path
  let bare := withoutTrailing names
  if bare.length < names.length then
    t.enter (← t.walk (t.origin path) bare.dropLast)
    .error .isADirectory
  else
    let place ← t.walk (t.origin path) bare
    match t.at? place with
    | some .directory => .error .isADirectory
    | _ => .ok (t.put place (.file text))

/-- Changes the tree, or leaves it as it is where that fails. -/
def commit (change : FileTree → Except FileError FileTree) :
    StateM FileTree (Except FileError Unit) :=
  fun t =>
    match change t with
    | .ok changed => (.ok (), changed)
    | .error e => (.error e, t)

/-- The operations on a tree as state. -/
def access : FileAccess (StateM FileTree) where
  read path := do pure ((← get).read path)
  ensureDirectory path := commit fun t => t.ensureDirectory path
  write path text := commit fun t => t.write path text

/-! ### Whole trees -/

/-- The path of a place as seen from `start`, if it is under it. -/
def relativePath? (start place : Place) : Option String :=
  if start.isPrefixOf place then some ("/".intercalate (place.drop start.length)) else none

/-- The files under the directory in which relative paths start, by path. -/
def files (t : FileTree) : List (String × String) :=
  t.entries.filterMap fun e =>
    match e with
    | (place, .file text) => (relativePath? t.start place).map fun path => (path, text)
    | _ => none

/-- A tree with an empty directory at `start`. -/
def emptyAt (start : Place) : FileTree where
  entries := (List.range start.length).map fun n => (start.take (n + 1), .directory)
  start := start

/-- Puts a file at a path, with the directories it is in. -/
def putFile (t : FileTree) (path text : String) : FileTree :=
  let make : StateM FileTree Unit := do
    discard (access.ensureFirst (directoriesOf path))
    discard (access.write path text)
  (make.run t).2

end FileTree

end LoadBridge
