import LoadBridge.Json.Basic

/-!
# JSON — Decoding

A decoder answers nothing when the value has not the shape it asks for.  A structure is written as
an object or as an array of its fields in declared order.  In an object an unknown field is
ignored, and a known field given twice, under one spelling or under two, is refused.
-/

namespace LoadBridge.Json

/-- Reads a value of another type out of a JSON value. -/
abbrev Decoder (α : Type) : Type := Json → Option α

def asString : Decoder String
  | .str s => some s
  | _ => none

def asBool : Decoder Bool
  | .bool b => some b
  | _ => none

/-- A natural number below `bound`, written as an integer. -/
def asNat (bound : Nat) : Decoder Nat
  | .int n => if 0 ≤ n ∧ n < bound then some n.toNat else none
  | _ => none

def asUInt8 : Decoder UInt8 := fun j => (asNat UInt8.size j).map UInt8.ofNat

def asUInt32 : Decoder UInt32 := fun j => (asNat UInt32.size j).map UInt32.ofNat

def asUInt64 : Decoder UInt64 := fun j => (asNat UInt64.size j).map UInt64.ofNat

/-- Each item of an array by `item`. -/
def asList (item : Decoder α) : Decoder (List α)
  | .arr items => items.mapM item
  | _ => none

/-- `null` or a value by `some`. -/
def asOption (value : Decoder α) : Decoder (Option α)
  | .null => some none
  | j => (value j).map some

/-- Nothing, written as `null`. -/
def isNull : Json → Bool
  | .null => true
  | _ => false

/-- Nothing, written as `null` or as an object without fields. -/
def isHollow : Json → Bool
  | .null | .obj [] => true
  | _ => false

/-- One of several constants, written as a string, or as an object whose only field is named by
the constant and holds nothing.  `isNothing` says how nothing is written. -/
def asConstant (isNothing : Json → Bool) (constants : List (String × α)) : Decoder α
  | .str s => constants.lookup s
  | .obj [(s, j)] => if isNothing j then constants.lookup s else none
  | _ => none

/-- The fields of a structure that is being decoded. -/
abbrev Fields : Type := List (String × Json)

/-- The fields of a structure whose declared fields are `names`.  An array longer than that is
refused, unless `surplus` says to leave the rest out. -/
def asFields (names : List String) (surplus : Bool) : Decoder Fields
  | .obj fields => some fields
  | .arr items => if items.length ≤ names.length || surplus then some (names.zip items) else none
  | _ => none

namespace Fields

/-- The value given for a field that has these spellings, if any is: nothing is answered when more
than one is given. -/
def given (fields : Fields) (spellings : List String) : Option (Option Json) :=
  match fields.filter (fun f => spellings.contains f.1) with
  | [] => some none
  | [f] => some (some f.2)
  | _ => none

/-- A field that must be given. -/
def required (fields : Fields) (name : String) (decode : Decoder α) : Option α :=
  match fields.given [name] with
  | some (some j) => decode j
  | _ => none

/-- A field with several spellings and a default. -/
def either (fields : Fields) (spellings : List String) (decode : Decoder α) (default : α) :
    Option α :=
  match fields.given spellings with
  | some (some j) => decode j
  | some none => some default
  | none => none

/-- A field with a default. -/
def optional (fields : Fields) (name : String) (decode : Decoder α) (default : α) : Option α :=
  fields.either [name] decode default

end Fields

end LoadBridge.Json
