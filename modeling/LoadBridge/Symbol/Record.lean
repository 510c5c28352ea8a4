import LoadBridge.Symbol.TypeRef

/-!
# Symbols — Records

What a declaration parser found in a library.  A record has an identifier; classes name their
members and parents by identifier, and types name their base.
-/

namespace LoadBridge

/-- Who may use a member or see a parent. -/
inductive Access where
  | forAll
  | forHeirs
  | forSelf
  deriving DecidableEq, Inhabited

/-- The C++ word for an access. -/
def Access.text : Access → String
  | .forAll => "public"
  | .forHeirs => "protected"
  | .forSelf => "private"

/-- The kinds of record. -/
inductive RecordKind where
  | «class»
  | member
  | function
  | fundamental
  | enumeration
  | «namespace»
  deriving DecidableEq, Inhabited

def RecordKind.text : RecordKind → String
  | .class => "class"
  | .member => "member"
  | .function => "function"
  | .fundamental => "fundamental"
  | .enumeration => "enumeration"
  | .namespace => "namespace"

/-- A symbol table that cannot be trusted: something a record refers to is missing or of the wrong
kind. -/
inductive SymbolError where
  /-- No record has this identifier. -/
  | missingRecord (id : RecordId)
  /-- The record needs a type and has none. -/
  | missingType (id : RecordId)
  /-- The record is not of the kind it is used as. -/
  | wrongKind (id : RecordId) (expected found : RecordKind)
  /-- The record is the base of a type and not a type. -/
  | notAType (id : RecordId) (type : TypeRef) (found : RecordKind)
  deriving DecidableEq

def SymbolError.message : SymbolError → String
  | .missingRecord id => "no symbol record with id '" ++ id.text ++ "'"
  | .missingType id => "symbol record '" ++ id.text ++ "' has no 'type' attribute"
  | .wrongKind id expected found =>
    "malformed symbol record '" ++ id.text ++ "': expected a " ++ expected.text ++ ", found a " ++
      found.text
  | .notAType id type found =>
    "malformed symbol record '" ++ id.text ++ "': type '" ++ type.display ++ "' refers to a " ++
      found.text

/-- Where a declaration stands in the library's sources. -/
structure SourceLocation where
  file : String
  line : UInt32
  deriving DecidableEq, Inhabited

def SourceLocation.text (l : SourceLocation) : String := l.file ++ ":" ++ l.line.toNat.repr

/-- One argument of a callable. -/
structure Argument where
  type : TypeRef
  name : Option String := none
  hasDefault : Bool := false
  deriving DecidableEq, Inhabited

/-- A direct parent of a class. -/
structure ParentRecord where
  id : RecordId
  access : Access := .forAll
  isVirtual : Bool := false
  deriving DecidableEq, Inhabited

/-- A class or struct. -/
structure ClassRecord where
  id : RecordId
  /-- The short name, with the template bracket of a specialization. -/
  name : String
  scope : List String := []
  isStruct : Bool := false
  /-- Declared and never defined. -/
  isIncomplete : Bool := false
  /-- The template itself, not a specialization of it. -/
  isTemplate : Bool := false
  members : List RecordId := []
  bases : List ParentRecord := []
  location : Option SourceLocation := none
  deriving DecidableEq, Inhabited

namespace ClassRecord

def qualifiedName (c : ClassRecord) : String := Name.join c.scope c.name

def shortName (c : ClassRecord) : String := (Name.splitTemplate c.name).1

def templateArgs (c : ClassRecord) : List String := (Name.splitTemplate c.name).2

def isSpecialization (c : ClassRecord) : Bool := c.name.toList.contains '<'

end ClassRecord

/-- What a member of a class is. -/
inductive MemberKind where
  | constructor
  | destructor
  | method
  /-- The member's name is the bare symbol of the operator. -/
  | operator
  | field
  deriving DecidableEq, Inhabited

def MemberKind.text : MemberKind → String
  | .constructor => "constructor"
  | .destructor => "destructor"
  | .method => "method"
  | .operator => "operator"
  | .field => "field"

/-- A member of a class. -/
structure MemberRecord where
  id : RecordId
  name : String
  kind : MemberKind
  /-- The class that declares it. -/
  context : RecordId
  access : Access := .forAll
  /-- The return type of a method or operator, the type of a field. -/
  type : Option TypeRef := none
  args : List Argument := []
  isConst : Bool := false
  isStatic : Bool := false
  isVirtual : Bool := false
  isPureVirtual : Bool := false
  /-- Declared by the compiler. -/
  isArtificial : Bool := false
  deriving DecidableEq, Inhabited

namespace MemberRecord

def isCallable (m : MemberRecord) : Bool :=
  match m.kind with
  | .constructor | .method | .operator => true
  | .destructor | .field => false

/-- Whether the member is there for every user of the class. -/
def isPublic (m : MemberRecord) : Bool := m.access == .forAll

/-- The type of a member that must have one. -/
def valueType (m : MemberRecord) : Except SymbolError TypeRef :=
  match m.type with
  | some t => .ok t
  | none => .error (.missingType m.id)

/-- The name as the library writes it: `get`, `operator+`. -/
def writtenName (m : MemberRecord) : String :=
  match m.kind with
  | .operator => "operator" ++ m.name
  | _ => m.name

end MemberRecord

/-- A free function. -/
structure FunctionRecord where
  id : RecordId
  name : String
  scope : List String := []
  returns : Option TypeRef := none
  args : List Argument := []
  location : Option SourceLocation := none
  deriving DecidableEq, Inhabited

namespace FunctionRecord

def qualifiedName (f : FunctionRecord) : String := Name.join f.scope f.name

/-- The return type, which a function must have. -/
def returnType (f : FunctionRecord) : Except SymbolError TypeRef :=
  match f.returns with
  | some t => .ok t
  | none => .error (.missingType f.id)

end FunctionRecord

/-- A built-in type. -/
structure FundamentalRecord where
  id : RecordId
  name : String
  deriving DecidableEq, Inhabited

structure EnumerationRecord where
  id : RecordId
  name : String
  scope : List String := []
  deriving DecidableEq, Inhabited

structure NamespaceRecord where
  id : RecordId
  name : String
  scope : List String := []
  deriving DecidableEq, Inhabited

/-- A record of any kind. -/
inductive Record where
  | ofClass (record : ClassRecord)
  | ofMember (record : MemberRecord)
  | ofFunction (record : FunctionRecord)
  | ofFundamental (record : FundamentalRecord)
  | ofEnumeration (record : EnumerationRecord)
  | ofNamespace (record : NamespaceRecord)
  deriving DecidableEq, Inhabited

namespace Record

def id : Record → RecordId
  | .ofClass r => r.id
  | .ofMember r => r.id
  | .ofFunction r => r.id
  | .ofFundamental r => r.id
  | .ofEnumeration r => r.id
  | .ofNamespace r => r.id

def kind : Record → RecordKind
  | .ofClass _ => .class
  | .ofMember _ => .member
  | .ofFunction _ => .function
  | .ofFundamental _ => .fundamental
  | .ofEnumeration _ => .enumeration
  | .ofNamespace _ => .namespace

/-- The name a record is found under.  Members are found through their class and have none. -/
def qualifiedName? : Record → Option String
  | .ofClass r => some r.qualifiedName
  | .ofMember _ => none
  | .ofFunction r => some r.qualifiedName
  | .ofFundamental r => some r.name
  | .ofEnumeration r => some (Name.join r.scope r.name)
  | .ofNamespace r => some (Name.join r.scope r.name)

def asClass? : Record → Option ClassRecord
  | .ofClass r => some r
  | _ => none

def asFunction? : Record → Option FunctionRecord
  | .ofFunction r => some r
  | _ => none

end Record

end LoadBridge
