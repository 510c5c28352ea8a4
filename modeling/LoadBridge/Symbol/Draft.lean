import LoadBridge.Symbol.Table

/-!
# Symbols — Drafts of a table

A draft is a symbol table being written record by record.  Identifiers are handed out in order
(`_1`, `_2`, …), a class notes its members as they are added, and a fundamental type has one record
however often it is asked for.  An operation on an identifier of the wrong kind changes nothing but
what it adds.
-/

namespace LoadBridge

/-- Records in order: the `n`th has the identifier `_n`. -/
structure Draft where
  records : List Record := []
  deriving Inhabited

namespace Draft

/-- The identifier of the next record. -/
def freshId (d : Draft) : RecordId := ⟨"_" ++ (d.records.length + 1).repr⟩

/-- Adds the record that `make` builds around the next identifier, and answers the identifier. -/
def add (d : Draft) (make : RecordId → Record) : RecordId × Draft :=
  (d.freshId, ⟨d.records ++ [make d.freshId]⟩)

/-- The record with this identifier. -/
def lookup (d : Draft) (id : RecordId) : Option Record := d.records.find? (fun r => r.id == id)

/-- Changes the class with this identifier. -/
def changeClass (d : Draft) (id : RecordId) (change : ClassRecord → ClassRecord) : Draft where
  records := d.records.map fun r =>
    match r with
    | .ofClass c => if c.id = id then .ofClass (change c) else r
    | _ => r

/-- Changes the member with this identifier. -/
def changeMember (d : Draft) (id : RecordId) (change : MemberRecord → MemberRecord) : Draft where
  records := d.records.map fun r =>
    match r with
    | .ofMember m => if m.id = id then .ofMember (change m) else r
    | _ => r

/-- The member with this identifier. -/
def member? (d : Draft) (id : RecordId) : Option MemberRecord :=
  match d.lookup id with
  | some (.ofMember m) => some m
  | _ => none

/-! ### Types -/

/-- Whether `r` is the record of the fundamental type `name`. -/
def isFundamental (name : String) : Record → Bool
  | .ofFundamental f => f.name == name
  | _ => false

/-- The fundamental type `name`, recorded at its first use. -/
def fundamental (d : Draft) (name : String) : TypeRef × Draft :=
  match d.records.find? (isFundamental name) with
  | some r => (.of r.id [] name, d)
  | none =>
    let (id, d) := d.add fun id => .ofFundamental { id, name }
    (.of id [] name, d)

/-- Adds an enumeration and answers its type. -/
def enumeration (d : Draft) (qualified : String) : TypeRef × Draft :=
  let n := QualifiedName.parse qualified
  let (id, d) := d.add fun id => .ofEnumeration { id, name := n.name, scope := n.scope }
  (.of id n.scope n.name, d)

/-- The type of the class with this identifier. -/
def classType (d : Draft) (id : RecordId) : TypeRef :=
  match d.lookup id with
  | some (.ofClass c) => .of id c.scope c.name
  | _ => .named id.text

/-! ### Classes and their members -/

/-- Adds a class without members. -/
def addClass (d : Draft) (qualified : String) : RecordId × Draft :=
  let n := QualifiedName.parse qualified
  d.add fun id => .ofClass { id, name := n.name, scope := n.scope }

def setLocation (d : Draft) (id : RecordId) (location : SourceLocation) : Draft :=
  d.changeClass id fun c => { c with location := some location }

def markIncomplete (d : Draft) (id : RecordId) : Draft :=
  d.changeClass id fun c => { c with isIncomplete := true }

def markTemplate (d : Draft) (id : RecordId) : Draft :=
  d.changeClass id fun c => { c with isTemplate := true }

def addParent (d : Draft) (id : RecordId) (parent : ParentRecord) : Draft :=
  d.changeClass id fun c => { c with bases := c.bases ++ [parent] }

/-- Adds a public member and notes it in its class. -/
def addMember (d : Draft) (owner : RecordId) (kind : MemberKind) (name : String)
    (type : Option TypeRef) (args : List Argument) : RecordId × Draft :=
  let (id, d) := d.add fun id => .ofMember { id, name, kind, context := owner, type, args }
  (id, d.changeClass owner fun c => { c with members := c.members ++ [id] })

def addMethod (d : Draft) (owner : RecordId) (name : String) (returns : TypeRef)
    (args : List Argument) : RecordId × Draft :=
  d.addMember owner .method name (some returns) args

def addOperator (d : Draft) (owner : RecordId) (symbol : String) (returns : TypeRef)
    (args : List Argument) : RecordId × Draft :=
  d.addMember owner .operator symbol (some returns) args

/-- Adds a constructor, which is named like its class. -/
def addConstructor (d : Draft) (owner : RecordId) (args : List Argument) : RecordId × Draft :=
  let name := match d.lookup owner with
    | some (.ofClass c) => c.shortName
    | _ => ""
  d.addMember owner .constructor name none args

def addField (d : Draft) (owner : RecordId) (name : String) (type : TypeRef) : RecordId × Draft :=
  d.addMember owner .field name (some type) []

/-- Adds what a compiler declares by itself: default and copy constructor, assignment and
destructor. -/
def addImplicitMembers (d : Draft) (owner : RecordId) : Draft :=
  let this := d.classType owner
  let other : Argument := { type := this.constant.reference }
  let (a, d) := d.addConstructor owner []
  let (b, d) := d.addConstructor owner [other]
  let (c, d) := d.addOperator owner "=" this.reference [other]
  let (e, d) := d.addMember owner .destructor ("~" ++ this.name) none []
  [a, b, c, e].foldl (fun d id => d.changeMember id fun m => { m with isArtificial := true }) d

def addFunction (d : Draft) (qualified : String) (returns : TypeRef) (args : List Argument) :
    RecordId × Draft :=
  let n := QualifiedName.parse qualified
  d.add fun id =>
    .ofFunction { id, name := n.name, scope := n.scope, returns := some returns, args }

/-- The finished table. -/
def build (d : Draft) : Except DuplicateRecord SymbolTable := SymbolTable.ofRecords d.records

end Draft

end LoadBridge
