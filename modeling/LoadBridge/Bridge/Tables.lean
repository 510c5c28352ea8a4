import LoadBridge.Bridge.Generation
import LoadBridge.Json.Basic

/-!
# Bridge — Tables

The tables of a run in their written form, for tools that read them: the factories, the loaded
types, what has been done, and what was left out.
-/

namespace LoadBridge

def FactoryRecord.encode (f : FactoryRecord) : Json :=
  .obj [("symbol", .str f.symbol), ("class", .str f.target), ("args", .strs f.args),
    ("returns", .str f.returns.text), ("slot", .ofOption .str f.slot)]

def LoadedType.encode (t : LoadedType) : Json :=
  .obj [("class", .str t.target), ("interface", .str t.interface),
    ("delegate", .str t.delegate), ("factories", .strs t.factories)]

def Ledger.encode (l : Ledger) : Json :=
  .obj [("classes_done", .strs l.classesDone), ("functions_done", .strs l.functionsDone)]

def Notice.encode (n : Notice) : Json :=
  .obj [("kind", .str n.kind.label), ("subject", .str n.subject), ("reason", .str n.reason)]

end LoadBridge
