import LoadBridge.Json.Decode
import LoadBridge.Json.Parser
import LoadBridge.Json.Printer
import LoadBridge.Symbol.Table

/-!
# Symbols — Written form

A symbol table is written as a JSON document `{"records": [...]}`, each record carrying its kind in
the field `record`.  A record may leave out every field that has a default; it is written with all
of them, the kind first.
-/

namespace LoadBridge

open Json (Decoder)
open Json.Fields (required optional)

/-! ### Types and arguments -/

def RecordId.decode : Decoder RecordId := fun j => (Json.asString j).map RecordId.mk

def RecordId.encode (id : RecordId) : Json := .str id.text

def Qualifiers.decode : Decoder Qualifiers := fun j => do
  let fs ← Json.asFields ["const", "volatile"] false j
  pure ⟨← optional fs "const" Json.asBool false, ← optional fs "volatile" Json.asBool false⟩

def Qualifiers.encode (cv : Qualifiers) : Json :=
  .obj [("const", .bool cv.isConst), ("volatile", .bool cv.isVolatile)]

def TypeRef.decode : Decoder TypeRef := fun j => do
  let fs ← Json.asFields ["name", "namespace", "pointer_depth", "is_reference", "array_extents",
    "cv", "element"] false j
  pure
    { name := ← required fs "name" Json.asString
      scope := ← optional fs "namespace" (Json.asList Json.asString) []
      pointerDepth := ← optional fs "pointer_depth" Json.asUInt8 0
      isReference := ← optional fs "is_reference" Json.asBool false
      extents := ← optional fs "array_extents" (Json.asList Json.asUInt64) []
      cv := ← optional fs "cv" Qualifiers.decode {}
      element := ← optional fs "element" (Json.asOption RecordId.decode) none }

def TypeRef.encode (t : TypeRef) : Json :=
  .obj [("name", .str t.name), ("namespace", .strs t.scope),
    ("pointer_depth", .nat t.pointerDepth.toNat), ("is_reference", .bool t.isReference),
    ("array_extents", .arr (t.extents.map fun n => .nat n.toNat)), ("cv", t.cv.encode),
    ("element", .ofOption RecordId.encode t.element)]

def Argument.decode : Decoder Argument := fun j => do
  let fs ← Json.asFields ["type", "name", "has_default"] false j
  pure
    { type := ← required fs "type" TypeRef.decode
      name := ← optional fs "name" (Json.asOption Json.asString) none
      hasDefault := ← optional fs "has_default" Json.asBool false }

def Argument.encode (a : Argument) : Json :=
  .obj [("type", a.type.encode), ("name", .ofOption .str a.name),
    ("has_default", .bool a.hasDefault)]

/-! ### Parts of records -/

def Access.decode (isNothing : Json → Bool) : Decoder Access :=
  Json.asConstant isNothing ([Access.forAll, .forHeirs, .forSelf].map fun a => (a.text, a))

def Access.encode (a : Access) : Json := .str a.text

def MemberKind.decode (isNothing : Json → Bool) : Decoder MemberKind :=
  Json.asConstant isNothing
    ([MemberKind.constructor, .destructor, .method, .operator, .field].map fun k => (k.text, k))

def MemberKind.encode (k : MemberKind) : Json := .str k.text

def SourceLocation.decode : Decoder SourceLocation := fun j => do
  let fs ← Json.asFields ["file", "line"] false j
  pure ⟨← required fs "file" Json.asString, ← required fs "line" Json.asUInt32⟩

def SourceLocation.encode (l : SourceLocation) : Json :=
  .obj [("file", .str l.file), ("line", .nat l.line.toNat)]

def ParentRecord.decode (isNothing : Json → Bool) : Decoder ParentRecord := fun j => do
  let fs ← Json.asFields ["id", "access", "is_virtual"] false j
  pure
    { id := ← required fs "id" RecordId.decode
      access := ← optional fs "access" (Access.decode isNothing) .forAll
      isVirtual := ← optional fs "is_virtual" Json.asBool false }

def ParentRecord.encode (p : ParentRecord) : Json :=
  .obj [("id", p.id.encode), ("access", p.access.encode), ("is_virtual", .bool p.isVirtual)]

/-! ### Records -/

def ClassRecord.decode (isNothing : Json → Bool) : Decoder ClassRecord := fun j => do
  let fs ← Json.asFields ["id", "name", "namespace", "is_struct", "is_incomplete", "is_template",
    "members", "bases", "location"] false j
  pure
    { id := ← required fs "id" RecordId.decode
      name := ← required fs "name" Json.asString
      scope := ← optional fs "namespace" (Json.asList Json.asString) []
      isStruct := ← optional fs "is_struct" Json.asBool false
      isIncomplete := ← optional fs "is_incomplete" Json.asBool false
      isTemplate := ← optional fs "is_template" Json.asBool false
      members := ← optional fs "members" (Json.asList RecordId.decode) []
      bases := ← optional fs "bases" (Json.asList (ParentRecord.decode isNothing)) []
      location := ← optional fs "location" (Json.asOption SourceLocation.decode) none }

def ClassRecord.fields (c : ClassRecord) : Json.Fields :=
  [("id", c.id.encode), ("name", .str c.name), ("namespace", .strs c.scope),
    ("is_struct", .bool c.isStruct), ("is_incomplete", .bool c.isIncomplete),
    ("is_template", .bool c.isTemplate), ("members", .arr (c.members.map RecordId.encode)),
    ("bases", .arr (c.bases.map ParentRecord.encode)),
    ("location", .ofOption SourceLocation.encode c.location)]

def MemberRecord.decode (isNothing : Json → Bool) : Decoder MemberRecord := fun j => do
  let fs ← Json.asFields ["id", "name", "kind", "context", "access", "type", "args", "is_const",
    "is_static", "is_virtual", "is_pure_virtual", "is_artificial"] false j
  pure
    { id := ← required fs "id" RecordId.decode
      name := ← required fs "name" Json.asString
      kind := ← required fs "kind" (MemberKind.decode isNothing)
      context := ← required fs "context" RecordId.decode
      access := ← optional fs "access" (Access.decode isNothing) .forAll
      type := ← optional fs "type" (Json.asOption TypeRef.decode) none
      args := ← optional fs "args" (Json.asList Argument.decode) []
      isConst := ← optional fs "is_const" Json.asBool false
      isStatic := ← optional fs "is_static" Json.asBool false
      isVirtual := ← optional fs "is_virtual" Json.asBool false
      isPureVirtual := ← optional fs "is_pure_virtual" Json.asBool false
      isArtificial := ← optional fs "is_artificial" Json.asBool false }

def MemberRecord.fields (m : MemberRecord) : Json.Fields :=
  [("id", m.id.encode), ("name", .str m.name), ("kind", m.kind.encode),
    ("context", m.context.encode), ("access", m.access.encode),
    ("type", .ofOption TypeRef.encode m.type), ("args", .arr (m.args.map Argument.encode)),
    ("is_const", .bool m.isConst), ("is_static", .bool m.isStatic),
    ("is_virtual", .bool m.isVirtual), ("is_pure_virtual", .bool m.isPureVirtual),
    ("is_artificial", .bool m.isArtificial)]

def FunctionRecord.decode : Decoder FunctionRecord := fun j => do
  let fs ← Json.asFields ["id", "name", "namespace", "type", "args", "location"] false j
  pure
    { id := ← required fs "id" RecordId.decode
      name := ← required fs "name" Json.asString
      scope := ← optional fs "namespace" (Json.asList Json.asString) []
      returns := ← optional fs "type" (Json.asOption TypeRef.decode) none
      args := ← optional fs "args" (Json.asList Argument.decode) []
      location := ← optional fs "location" (Json.asOption SourceLocation.decode) none }

def FunctionRecord.fields (f : FunctionRecord) : Json.Fields :=
  [("id", f.id.encode), ("name", .str f.name), ("namespace", .strs f.scope),
    ("type", .ofOption TypeRef.encode f.returns), ("args", .arr (f.args.map Argument.encode)),
    ("location", .ofOption SourceLocation.encode f.location)]

def FundamentalRecord.decode : Decoder FundamentalRecord := fun j => do
  let fs ← Json.asFields ["id", "name"] false j
  pure ⟨← required fs "id" RecordId.decode, ← required fs "name" Json.asString⟩

def FundamentalRecord.fields (r : FundamentalRecord) : Json.Fields :=
  [("id", r.id.encode), ("name", .str r.name)]

def EnumerationRecord.decode : Decoder EnumerationRecord := fun j => do
  let fs ← Json.asFields ["id", "name", "namespace"] false j
  pure
    ⟨← required fs "id" RecordId.decode, ← required fs "name" Json.asString,
      ← optional fs "namespace" (Json.asList Json.asString) []⟩

def EnumerationRecord.fields (r : EnumerationRecord) : Json.Fields :=
  [("id", r.id.encode), ("name", .str r.name), ("namespace", .strs r.scope)]

def NamespaceRecord.decode : Decoder NamespaceRecord := fun j => do
  let fs ← Json.asFields ["id", "name", "namespace"] false j
  pure
    ⟨← required fs "id" RecordId.decode, ← required fs "name" Json.asString,
      ← optional fs "namespace" (Json.asList Json.asString) []⟩

def NamespaceRecord.fields (r : NamespaceRecord) : Json.Fields :=
  [("id", r.id.encode), ("name", .str r.name), ("namespace", .strs r.scope)]

namespace Record

/-- The field that holds the kind of a record. -/
def kindField : String := "record"

/-- The kind of a record and the rest of it: the kind is the field `record` of an object, or the
first item of an array. -/
def splitKind : Json → Option (String × Json)
  | .obj fields => do
    let tag ← required fields kindField Json.asString
    pure (tag, .obj (fields.filter (fun f => f.1 != kindField)))
  | .arr (.str tag :: rest) => some (tag, .arr rest)
  | _ => none

/-- Reads a record with its kind.  In it an object without fields counts as nothing, which it does
not in a record whose kind is known beforehand. -/
def decode : Decoder Record := fun j => do
  let (tag, rest) ← splitKind j
  if tag = RecordKind.class.text then (ClassRecord.decode Json.isHollow rest).map .ofClass
  else if tag = RecordKind.member.text then
    (MemberRecord.decode Json.isHollow rest).map .ofMember
  else if tag = RecordKind.function.text then (FunctionRecord.decode rest).map .ofFunction
  else if tag = RecordKind.fundamental.text then (FundamentalRecord.decode rest).map .ofFundamental
  else if tag = RecordKind.enumeration.text then (EnumerationRecord.decode rest).map .ofEnumeration
  else if tag = RecordKind.namespace.text then (NamespaceRecord.decode rest).map .ofNamespace
  else none

def fields : Record → Json.Fields
  | .ofClass r => r.fields
  | .ofMember r => r.fields
  | .ofFunction r => r.fields
  | .ofFundamental r => r.fields
  | .ofEnumeration r => r.fields
  | .ofNamespace r => r.fields

def encode (r : Record) : Json := .obj ((kindField, .str r.kind.text) :: r.fields)

end Record

/-! ### Tables -/

/-- Why a document is not a symbol table. -/
inductive DocumentError where
  /-- The text is not JSON, or not of the shape of a symbol table. -/
  | undecodable
  | duplicate (error : DuplicateRecord)
  deriving DecidableEq

def DocumentError.message : DocumentError → String
  | .undecodable => "JSON error: the text is not a symbol table"
  | .duplicate e => e.message

namespace SymbolTable

/-- The field that holds the records of a document. -/
def recordsField : String := "records"

/-- The records of a document. -/
def decodeRecords : Decoder (List Record) := fun j => do
  let fs ← Json.asFields [recordsField] false j
  required fs recordsField (Json.asList Record.decode)

/-- Reads the records of a JSON document into a table. -/
def ofDocument (document : Json) : Except DocumentError SymbolTable :=
  match decodeRecords document with
  | none => .error .undecodable
  | some records =>
    match ofRecords records with
    | .ok t => .ok t
    | .error e => .error (.duplicate e)

/-- Reads a table from the text of a JSON document.  Of fields other than that of the records only
the form is checked. -/
def ofText (text : String) : Except DocumentError SymbolTable :=
  match Json.parseWanted? (· == recordsField) text with
  | none => .error .undecodable
  | some document => ofDocument document

/-- The document of a table. -/
def toDocument (t : SymbolTable) : Json := .obj [(recordsField, .arr (t.records.map Record.encode))]

/-- The text of the document of a table. -/
def toText (t : SymbolTable) : String := t.toDocument.pretty

end SymbolTable

end LoadBridge
