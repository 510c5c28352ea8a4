import LoadBridge.Bridge.Generation
import LoadBridge.Json.Printer

/-!
# Command — Listings

What is printed: the classes and functions of a symbol table, and what a configuration would load
from it.  A function is listed as a selector that picks it.
-/

namespace LoadBridge

/-- One line after the other. -/
def unlines (lines : List String) : String := String.join (lines.map (· ++ "\n"))

/-- A class or function in a listing. -/
structure ListedItem where
  kind : String
  name : String
  location : Option SourceLocation
  deriving DecidableEq, Inhabited

namespace ListedItem

/-- How a record is listed, if it is. -/
def ofRecord? : Record → Option ListedItem
  | .ofClass c => some ⟨if c.isStruct then "struct" else "class", c.qualifiedName, c.location⟩
  | .ofFunction f => some ⟨"function", f.signature, f.location⟩
  | _ => none

/-- An item as a line: its kind in a column of nine, its name, and where it is declared. -/
def line (i : ListedItem) : String :=
  i.kind ++ Text.spaces (9 - i.kind.length) ++ " " ++ i.name ++
    match i.location with
    | some l => "  (" ++ l.text ++ ")"
    | none => ""

/-- An item as JSON, without its location where that is not known. -/
def encode (i : ListedItem) : Json :=
  .obj ([("kind", .str i.kind), ("name", .str i.name)] ++
    i.location.toList.map fun l => ("location", .str l.text))

end ListedItem

namespace SymbolTable

/-- The classes and functions of a table, in order. -/
def listing (t : SymbolTable) : List ListedItem := t.records.filterMap ListedItem.ofRecord?

/-- The listing as text, with the number of items below it. -/
def listingText (t : SymbolTable) : String :=
  unlines (t.listing.map ListedItem.line ++ ["", t.listing.length.repr ++ " entries"])

/-- The listing as JSON. -/
def listingJson (t : SymbolTable) : String :=
  unlines [(Json.arr (t.listing.map ListedItem.encode)).pretty]

end SymbolTable

/-- A loaded type as a line. -/
def LoadedType.line (t : LoadedType) : String :=
  "  " ++ t.target ++ "  ->  " ++ t.interface ++ " / " ++ t.delegate ++ "  (" ++
    t.factories.length.repr ++ " factories)"

/-- A heading and what is under it, if anything is. -/
def titled (heading : String) (items : List String) : List String :=
  if items.isEmpty then [] else heading :: items.map ("  " ++ ·)

namespace GenerationOutput

/-- What a run loads and leaves out, as text. -/
def report (g : GenerationOutput) : String :=
  unlines (
    "Loadable classes:" :: g.loadedTypes.map LoadedType.line ++
    titled "Loadable functions:" g.ledger.functionsDone ++
    titled "Skipped:" (g.notices.map Notice.display) ++
    if g.isEmpty then ["Nothing to generate."] else [])

end GenerationOutput

end LoadBridge
