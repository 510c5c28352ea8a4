import LoadBridge.Bridge.Tables
import LoadBridge.Files.Access
import LoadBridge.Json.Printer

/-!
# Command — Output files

A run is written as two headers and a source, a fragment for each class that says what to add to
the library, and four tables.
-/

namespace LoadBridge

/-- A file to be written. -/
structure OutputFile where
  path : String
  text : String
  deriving DecidableEq, Inhabited

/-- A class name as the stem of a file name: `ns::Vec<int>` becomes `ns__Vec_int_`. -/
def fileStem (qualified : String) : String :=
  .ofList (qualified.toList.map fun c => if c.isAlphanum then c else '_')

/-- The fragment of a class: where it is declared and what to add to it. -/
def Augmentation.fragment (width : Nat) (a : Augmentation) : String :=
  "// " ++ ((a.location.map SourceLocation.text).getD "declaration location unknown") ++ "\n" ++
    "// Add to the base list of " ++ a.target ++ ":\n" ++
    "//     " ++ a.inheritance ++ "\n" ++
    "// Add to the class body:\n\n" ++
    a.body.render width

namespace GenerationOutput

/-- The directory of the fragments. -/
def fragmentDirectory (out : String) : String := inDirectory out "augment"

/-- The name of the library's header. -/
def libraryHeaderName (layout : OutputSection) : String :=
  "dlwrap_library" ++ layout.headerExtension

/-- The headers and the source. -/
def codeFiles (g : GenerationOutput) (layout : OutputSection) (out : String) : List OutputFile :=
  let header := libraryHeaderName layout
  let file (name : String) (code : Code) : OutputFile :=
    ⟨inDirectory out name, code.render layout.indent⟩
  [file header g.libraryHeader,
    file ("dlwrap_host" ++ layout.headerExtension) g.hostHeader,
    file ("dlwrap_library" ++ layout.sourceExtension) (g.librarySource header)]

/-- The fragments of the classes. -/
def fragmentFiles (g : GenerationOutput) (layout : OutputSection) (out : String) :
    List OutputFile :=
  g.classes.map fun c =>
    ⟨inDirectory (fragmentDirectory out) (fileStem c.target ++ layout.headerExtension),
      c.augmentation.fragment layout.indent⟩

/-- The tables. -/
def tableFiles (g : GenerationOutput) (out : String) : List OutputFile :=
  let file (name : String) (table : Json) : OutputFile := ⟨inDirectory out name, table.pretty⟩
  [file "factories.json" (.arr (g.factories.map FactoryRecord.encode)),
    file "loaded_types.json" (.arr (g.loadedTypes.map LoadedType.encode)),
    file "ledger.json" g.ledger.encode,
    file "notices.json" (.arr (g.notices.map Notice.encode))]

/-- All files, in the order in which they are written. -/
def files (g : GenerationOutput) (layout : OutputSection) (out : String) : List OutputFile :=
  g.codeFiles layout out ++ g.fragmentFiles layout out ++ g.tableFiles out

/-- What is printed when the files are written. -/
def summary (g : GenerationOutput) (out : String) : List String :=
  ("Generated " ++ g.ledger.classesDone.length.repr ++ " classes, " ++
      g.ledger.functionsDone.length.repr ++ " functions, " ++ g.factories.length.repr ++
      " factories -> " ++ out) ::
    if g.notices.isEmpty then []
    else [g.notices.length.repr ++ " items skipped; see notices.json"]

end GenerationOutput

end LoadBridge
