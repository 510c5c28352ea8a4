import LoadBridge.Symbol.Record

/-!
# Symbols — The symbol table

Records in the order of their declaration, no two with one identifier.  A record is found by its
identifier, or by any spelling of its name: of several records with one name the first is found.
-/

namespace LoadBridge

/-- Records with distinct identifiers, in declaration order. -/
structure SymbolTable where
  records : List Record := []
  distinct : (records.map Record.id).Nodup := by simp

/-- An identifier that is taken. -/
structure DuplicateRecord where
  id : RecordId
  deriving DecidableEq

def DuplicateRecord.message (e : DuplicateRecord) : String :=
  "duplicate symbol record id '" ++ e.id.text ++ "'"

namespace SymbolTable

/-- The table without records. -/
def empty : SymbolTable := {}

instance : Inhabited SymbolTable := ⟨empty⟩

/-- Adds a record at the end, unless its identifier is taken. -/
def insert (t : SymbolTable) (r : Record) : Except DuplicateRecord SymbolTable :=
  if taken : r.id ∈ t.records.map Record.id then .error ⟨r.id⟩
  else .ok
    { records := t.records ++ [r]
      distinct := by
        rw [List.map_append]
        refine List.nodup_append.2 ⟨t.distinct, by simp, ?_⟩
        intro a ha b hb hab
        simp only [List.map_cons, List.map_nil, List.mem_singleton] at hb
        exact taken (hb ▸ hab ▸ ha) }

/-- The table of these records, or the first identifier that comes up again. -/
def ofRecords (records : List Record) : Except DuplicateRecord SymbolTable :=
  records.foldlM insert empty

/-- The record with this identifier. -/
def lookup (t : SymbolTable) (id : RecordId) : Option Record :=
  t.records.find? (fun r => r.id == id)

/-- Whether `r` can be found under the key `key`. -/
def hasKey (key : String) (r : Record) : Bool :=
  match r.qualifiedName? with
  | some name => Name.key name == key
  | none => false

/-- The first record with this name. -/
def lookupName (t : SymbolTable) (qualified : String) : Option Record :=
  t.records.find? (hasKey (Name.key qualified))

/-- The class with this identifier, if there is one. -/
def class? (t : SymbolTable) (id : RecordId) : Option ClassRecord :=
  (t.lookup id).bind Record.asClass?

/-- The class with this identifier, which must be one. -/
def classWith (t : SymbolTable) (id : RecordId) : Except SymbolError ClassRecord :=
  match t.lookup id with
  | some (.ofClass c) => .ok c
  | some other => .error (.wrongKind id .class other.kind)
  | none => .error (.missingRecord id)

/-- The member with this identifier, which must be one. -/
def memberWith (t : SymbolTable) (id : RecordId) : Except SymbolError MemberRecord :=
  match t.lookup id with
  | some (.ofMember m) => .ok m
  | some other => .error (.wrongKind id .member other.kind)
  | none => .error (.missingRecord id)

/-- The members of a class, in declaration order. -/
def membersOf (t : SymbolTable) (c : ClassRecord) : Except SymbolError (List MemberRecord) :=
  c.members.mapM t.memberWith

/-- The record with this name, if it is a class. -/
def classNamed? (t : SymbolTable) (qualified : String) : Option ClassRecord :=
  (t.lookupName qualified).bind Record.asClass?

/-- All classes, in declaration order. -/
def classes (t : SymbolTable) : List ClassRecord := t.records.filterMap Record.asClass?

/-- All free functions, in declaration order. -/
def functions (t : SymbolTable) : List FunctionRecord := t.records.filterMap Record.asFunction?

end SymbolTable

end LoadBridge
