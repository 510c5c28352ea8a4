/-!
# JSON — Values

A JSON value keeps its fields in written order, repeated ones included: whether a repetition is an
error is for the reader of the value to say.  Integers are kept apart from other numbers, which
keep the text they were written as.
-/

namespace LoadBridge

/-- A JSON value. -/
inductive Json where
  | null
  | bool (value : Bool)
  | int (value : Int)
  /-- A number that is not written as an integer. -/
  | real (literal : String)
  | str (text : String)
  | arr (items : List Json)
  | obj (fields : List (String × Json))
  deriving Inhabited

namespace Json

/-- A natural number. -/
def nat (n : Nat) : Json := .int (Int.ofNat n)

/-- An array of strings. -/
def strs (xs : List String) : Json := .arr (xs.map .str)

/-- A value or `null`. -/
def ofOption (encode : α → Json) : Option α → Json
  | none => .null
  | some a => encode a

/-- The first field of an object with this name. -/
def field? (name : String) : Json → Option Json
  | .obj fields => fields.lookup name
  | _ => none

end Json

end LoadBridge
