import LoadBridge.Name.Qualified

/-!
# Symbols — Type references

A type reference names a base type and what a declaration puts around it: qualifiers, levels of
indirection, a reference, array extents.  A reference is rendered with any base name in place of
its own, so the same declaration can be written for a class and for its companions.
-/

namespace LoadBridge

/-- Identifies a record within its symbol table. -/
structure RecordId where
  text : String
  deriving DecidableEq, Inhabited

/-- The qualifiers of a base type. -/
structure Qualifiers where
  isConst : Bool := false
  isVolatile : Bool := false
  deriving DecidableEq, Inhabited

/-- The qualifiers as they stand before a base name. -/
def Qualifiers.text (cv : Qualifiers) : String :=
  (if cv.isConst then "const " else "") ++ (if cv.isVolatile then "volatile " else "")

/-- One use of a type. -/
structure TypeRef where
  /-- The short name of the base type, with its template bracket. -/
  name : String
  scope : List String := []
  pointerDepth : UInt8 := 0
  isReference : Bool := false
  extents : List UInt64 := []
  cv : Qualifiers := {}
  /-- The record of the base type, where the table has one. -/
  element : Option RecordId := none
  deriving DecidableEq, Inhabited

namespace TypeRef

/-- A type without a record. -/
def named (name : String) : TypeRef := { name }

/-- A plain use of the record `id`. -/
def of (id : RecordId) (scope : List String) (name : String) : TypeRef :=
  { name, scope, element := some id }

/-- The deepest indirection there is. -/
def maxDepth : UInt8 := 255

/-- One level of indirection more, where there is room for it. -/
def pointerTo (t : TypeRef) (_room : t.pointerDepth ≠ maxDepth) : TypeRef :=
  { t with pointerDepth := t.pointerDepth + 1 }

/-- One level of indirection more, or nothing if there is no room for it. -/
def pointer? (t : TypeRef) : Option TypeRef :=
  if room : t.pointerDepth ≠ maxDepth then some (t.pointerTo room) else none

/-- The same type as a reference. -/
def reference (t : TypeRef) : TypeRef := { t with isReference := true }

/-- The same type with its base made const. -/
def constant (t : TypeRef) : TypeRef := { t with cv := { t.cv with isConst := true } }

/-- The same type without qualifiers. -/
def unqualified (t : TypeRef) : TypeRef := { t with cv := {} }

/-- One array extent more. -/
def array (t : TypeRef) (extent : UInt64) : TypeRef := { t with extents := t.extents ++ [extent] }

/-- `ns::name`, without anything around it. -/
def qualifiedName (t : TypeRef) : String := Name.join t.scope t.name

def isVoid (t : TypeRef) : Bool := t.name == "void" && t.pointerDepth == 0 && !t.isReference

def isPointer (t : TypeRef) : Bool := t.pointerDepth != 0

def isArray (t : TypeRef) : Bool := !t.extents.isEmpty

/-- Neither a pointer nor a reference. -/
def isByValue (t : TypeRef) : Bool := t.pointerDepth == 0 && !t.isReference

theorem room_of_isByValue {t : TypeRef} (h : t.isByValue = true) : t.pointerDepth ≠ maxDepth := by
  simp only [isByValue, Bool.and_eq_true, beq_iff_eq] at h
  rw [h.1]
  decide

/-- The stars of a pointer. -/
def stars (t : TypeRef) : String := .ofList (List.replicate t.pointerDepth.toNat '*')

/-- What follows the base name: stars, then the mark of a reference. -/
def indirection (t : TypeRef) : String := t.stars ++ (if t.isReference then "&" else "")

/-- The type with `base` as its base name.  Array extents are left out. -/
def renderWith (t : TypeRef) (base : String) : String := t.cv.text ++ base ++ t.indirection

/-- The array extents in their brackets. -/
def extentsText (t : TypeRef) : String :=
  String.join (t.extents.map fun n => "[" ++ n.toNat.repr ++ "]")

/-- A declaration of `declarator` with this type, over the base name `base`: `T name[N]`, or
`T (&name)[N]` for a reference to an array. -/
def declare (t : TypeRef) (base declarator : String) : String :=
  if t.isArray then
    let head := t.cv.text ++ base ++ t.stars ++ " "
    if t.isReference then head ++ "(&" ++ declarator ++ ")" ++ t.extentsText
    else head ++ declarator ++ t.extentsText
  else t.renderWith base ++ " " ++ declarator

/-- The type as a reader sees it. -/
def display (t : TypeRef) : String := t.renderWith t.qualifiedName ++ t.extentsText

end TypeRef

end LoadBridge
