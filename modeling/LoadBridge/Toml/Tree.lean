import LoadBridge.Json.Basic

/-!
# TOML — The tree under construction

Tables come into being in three ways, and which way decides what may still be added to one: a
header declares a table, a longer header implies the tables on its way, and a dotted key makes the
tables on its way.  A declared table is closed to dotted keys; only an implied one may still be
declared.
-/

namespace LoadBridge.Toml

/-- How a table came into being. -/
inductive Origin where
  | declared
  | implied
  | dotted
  deriving DecidableEq, Inhabited

/-- What stands under a key. -/
inductive Node where
  /-- A finished value, inline tables included. -/
  | value (v : Json)
  | table (origin : Origin) (entries : List (String × Node))
  /-- Tables declared by headers in double brackets, in order. -/
  | tables (items : List (List (String × Node)))
  deriving Inhabited

/-- The entries of a table, each key once. -/
abbrev Entries : Type := List (String × Node)

namespace Entries

/-- The entries with `node` under `key`, in place or at the end. -/
def put (es : Entries) (key : String) (node : Node) : Entries :=
  if (es.lookup key).isSome then es.map fun e => if e.1 = key then (key, node) else e
  else es ++ [(key, node)]

/-- The entries without `key`. -/
def erase (es : Entries) (key : String) : Entries := es.filter (fun e => e.1 != key)

/-- Follows a path down from a table and acts on the table at its end.  Tables that are missing on
the way are made; of tables in double brackets the last is followed.  A dotted path does not enter
a declared table. -/
def descend (dotted : Bool) (act : Origin → Entries → Option (α × Entries)) :
    List String → Origin → Entries → Option (α × Entries)
  | [], origin, es => act origin es
  | key :: path, _, es =>
    match es.lookup key with
    | none =>
      let origin := if dotted then Origin.dotted else .implied
      (descend dotted act path origin []).map fun (a, sub) => (a, es.put key (.table origin sub))
    | some (.value _) => none
    | some (.tables items) =>
      (descend dotted act path .declared (items.getLastD [])).map fun (a, sub) =>
        (a, es.put key (.tables (items.dropLast ++ [sub])))
    | some (.table origin sub) =>
      if dotted && origin == .declared then none
      else (descend dotted act path origin sub).map fun (a, sub) =>
        (a, es.put key (.table origin sub))

/-- Sets a dotted key that has no value yet.  The last table on the way must be one that dotted
keys made. -/
def set? (es : Entries) (path : List String) (key : String) (v : Json) : Option Entries :=
  let act (origin : Origin) (es : Entries) : Option (Unit × Entries) :=
    if (origin == .dotted) == path.isEmpty then none
    else if (es.lookup key).isSome then none
    else some ((), es.put key (.value v))
  (descend true act path .declared es).map (·.2)

end Entries

mutual

/-- A finished node as a value. -/
def Node.toJson : Node → Json
  | .value v => v
  | .table _ es => .obj (entriesToJson es)
  | .tables items => .arr (itemsToJson items)

def entriesToJson : List (String × Node) → List (String × Json)
  | [] => []
  | (k, n) :: rest => (k, n.toJson) :: entriesToJson rest

def itemsToJson : List (List (String × Node)) → List Json
  | [] => []
  | es :: rest => .obj (entriesToJson es) :: itemsToJson rest

end

end LoadBridge.Toml
