import LoadBridge.Command.Arguments
import LoadBridge.Command.Listing
import LoadBridge.Command.Output
import LoadBridge.Config.Codec
import LoadBridge.Symbol.Codec

/-!
# Command — Runs

A command line is run on the operations of a file system.  It prints its result and ends with 0, or
prints the reason why it has none and ends with 1, or with 2 if the command line is not understood.
-/

namespace LoadBridge

/-- Why a command fails. -/
inductive CommandError where
  /-- The configuration cannot be read. -/
  | unreadableConfig (path : String) (error : FileError)
  | unusableConfig (path : String) (error : ConfigError)
  /-- The symbol table cannot be read. -/
  | unreadableSymbols (path : String) (error : FileError)
  | unusableSymbols (path : String) (error : DocumentError)
  | generation (error : BridgeError)
  | directory (path : String) (error : FileError)
  | file (path : String) (error : FileError)
  deriving DecidableEq

def CommandError.message : CommandError → String
  | .unreadableConfig path e =>
    "loading " ++ path ++ ": I/O error: " ++ e.message ++ ": " ++ e.message
  | .unusableConfig path e => "loading " ++ path ++ ": " ++ e.message
  | .unreadableSymbols path e => "reading " ++ path ++ ": " ++ e.message
  | .unusableSymbols path e => "parsing " ++ path ++ ": " ++ e.message
  | .generation e => "generating wrappers: " ++ e.message
  | .directory path e => "creating " ++ path ++ ": " ++ e.message
  | .file path e => "writing " ++ path ++ ": " ++ e.message

/-- How a command line ends. -/
structure CommandResult where
  exitCode : UInt32
  stdout : String
  stderr : String
  deriving DecidableEq, Inhabited

/-- What is printed for the version. -/
def versionText : String := unlines ["dlwrap 0.1.0"]

/-- What is printed for help. -/
def helpText : String :=
  unlines
    ["Wrap C++ classes for use across a dynamic-load boundary", "",
      "Usage: dlwrap [-v] <command> [options]", "",
      "Commands:",
      "  list      --symbols <file> [--json]",
      "  check     --symbols <file> [--config <file>]",
      "  generate  --symbols <file> [--config <file>] [--out <directory>]", "",
      "Options:",
      "  -v, --verbose",
      "  -h, --help",
      "  -V, --version"]

namespace Invocation

variable {m : Type → Type} [Monad m]

/-- Reads and validates a configuration. -/
def loadConfig (fs : FileAccess m) (path : String) : ExceptT CommandError m Config := do
  let text ← (ExceptT.mk (fs.read path)).adapt (CommandError.unreadableConfig path)
  match Config.ofText text with
  | .ok config => pure config
  | .error e => throw (.unusableConfig path e)

/-- Reads a symbol table. -/
def loadSymbols (fs : FileAccess m) (path : String) : ExceptT CommandError m SymbolTable := do
  let text ← (ExceptT.mk (fs.read path)).adapt (CommandError.unreadableSymbols path)
  match SymbolTable.ofText text with
  | .ok table => pure table
  | .error e => throw (.unusableSymbols path e)

/-- Reads a configuration, then a symbol table, and runs the one against the other. -/
def load (fs : FileAccess m) (symbols config : String) :
    ExceptT CommandError m (Config × GenerationOutput) := do
  let c ← loadConfig fs config
  let table ← loadSymbols fs symbols
  match LoadBridge.generate table c with
  | .ok output => pure (c, output)
  | .error e => throw (.generation e)

/-- Writes the files of a run, with the directories for them. -/
def writeFiles (fs : FileAccess m) (out : String) (files : List OutputFile) :
    ExceptT CommandError m Unit := do
  let fragments := GenerationOutput.fragmentDirectory out
  (ExceptT.mk (fs.ensureDirectories fragments)).adapt (CommandError.directory fragments)
  files.forM fun file =>
    (ExceptT.mk (fs.write file.path file.text)).adapt (CommandError.file file.path)

/-- Runs a command.  Answers what it prints. -/
def execute (fs : FileAccess m) : Invocation → ExceptT CommandError m String
  | .list symbols asJson => do
    let table ← loadSymbols fs symbols
    pure (if asJson then table.listingJson else table.listingText)
  | .check symbols config => do
    let (_, output) ← load fs symbols config
    pure output.report
  | .generate symbols config out => do
    let (c, output) ← load fs symbols config
    if output.isEmpty then
      pure (unlines ["Nothing loadable in " ++ config ++ " (" ++ output.notices.length.repr ++
        " notices); no files written."])
    else
      writeFiles fs out (output.files c.output out)
      pure (unlines (output.summary out))

/-- Runs a command line. -/
def run (fs : FileAccess m) (words : List String) : m CommandResult :=
  match parse words with
  | .error .showVersion => pure ⟨0, versionText, ""⟩
  | .error .showHelp => pure ⟨0, helpText, ""⟩
  | .error (.misuse e) => pure ⟨2, "", unlines ["error: " ++ e.message]⟩
  | .ok invocation => do
    match ← (execute fs invocation).run with
    | .ok printed => pure ⟨0, printed, ""⟩
    | .error e => pure ⟨1, "", unlines ["error: " ++ e.message]⟩

end Invocation

end LoadBridge
