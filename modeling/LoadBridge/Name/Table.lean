import LoadBridge.Name.Affixes

/-!
# Names — The name table

The generated names of the load set, in order of registration.  A class is registered once: a
second registration under any spelling of its name leaves the table as it is.
-/

namespace LoadBridge

/-- Generated names, looked up by the key of the name of the loaded class. -/
structure NameTable where
  affixes : NameAffixes
  /-- The namespace around all generated code, outermost first. -/
  outer : List String
  /-- The entries in order of registration, each beside the key it is found under. -/
  keyed : List (String × GeneratedNames) := []

namespace NameTable

/-- The generated names in order of registration. -/
def entries (t : NameTable) : List GeneratedNames := t.keyed.map (·.2)

/-- An empty table for code in the namespace written `outer`. -/
def new (affixes : NameAffixes) (outer : String) : NameTable := ⟨affixes, Name.splitScope outer, []⟩

/-- The entry of a name, however it is spelled. -/
def get? (t : NameTable) (qualified : String) : Option GeneratedNames :=
  t.keyed.lookup (Name.key qualified)

/-- Whether a name has an entry. -/
def isLoaded (t : NameTable) (qualified : String) : Bool := (t.get? qualified).isSome

/-- Adds a class unless it has an entry.  Answers its entry. -/
def register (t : NameTable) (target : QualifiedName) : GeneratedNames × NameTable :=
  match t.get? target.long with
  | some names => (names, t)
  | none =>
    let names := GeneratedNames.derive t.affixes target
    (names, { t with keyed := t.keyed ++ [(Name.key target.long, names)] })

/-- Adds classes one after the other. -/
def registerAll (t : NameTable) (targets : List QualifiedName) : NameTable :=
  targets.foldl (fun t target => (t.register target).2) t

/-- A generated name written from the global scope, for code outside the generated namespace. -/
def absolute (t : NameTable) (name : QualifiedName) : String :=
  Name.absolute (Name.join (t.outer ++ name.scope) name.name)

end NameTable

end LoadBridge
