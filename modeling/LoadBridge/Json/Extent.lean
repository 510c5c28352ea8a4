import LoadBridge.Json.Lexeme

/-!
# JSON — Extent of a value

Where a value ends that nobody asks for.  Its form is checked, what it stands for is not: lone
surrogates, numbers of any size and containers nested to any depth are passed over.
-/

namespace LoadBridge.Json

/-- The text after a string whose opening quote is already read. -/
def afterString? : List Char → Option (List Char)
  | [] => none
  | '"' :: rest => some rest
  | '\\' :: 'u' :: a :: b :: c :: d :: rest =>
    if (hex4? a b c d).isSome then afterString? rest else none
  | '\\' :: c :: rest => if (escaped? c).isSome then afterString? rest else none
  | c :: rest => if c = '\\' ∨ c.toNat < 32 then none else afterString? rest

/-- The text after a value that is no container. -/
def afterScalar? : List Char → Option (List Char)
  | 'n' :: 'u' :: 'l' :: 'l' :: rest => some rest
  | 't' :: 'r' :: 'u' :: 'e' :: rest => some rest
  | 'f' :: 'a' :: 'l' :: 's' :: 'e' :: rest => some rest
  | '"' :: rest => afterString? rest
  | cs => (numeral? cs).map (·.2)

/-- The text after the name of a field and its colon. -/
def afterName? (cs : List Char) : Option (List Char) := do
  match skipGap cs with
  | '"' :: rest =>
    match skipGap (← afterString? rest) with
    | ':' :: rest => pure rest
    | _ => none
  | _ => none

/-- A container whose end is not yet found. -/
inductive Container where
  | array
  | object
  deriving DecidableEq, Inhabited

/-- What a text goes on with. -/
inductive Expected where
  /-- A value. -/
  | value
  /-- The name of a field, a colon and a value. -/
  | field
  /-- What follows a value: a comma and more, or the end of the innermost container. -/
  | more
  deriving DecidableEq, Inhabited

/-- The text after what is expected and after the ends of all `opened` containers, the innermost of
which comes first. -/
def after? : (fuel : Nat) → Expected → (opened : List Container) → List Char → Option (List Char)
  | 0, _, _, _ => none
  | fuel + 1, .value, opened, cs =>
    match skipGap cs with
    | '[' :: rest =>
      match skipGap rest with
      | ']' :: rest => after? fuel .more opened rest
      | rest => after? fuel .value (.array :: opened) rest
    | '\x7b' :: rest =>
      match skipGap rest with
      | '\x7d' :: rest => after? fuel .more opened rest
      | rest => after? fuel .field (.object :: opened) rest
    | rest =>
      match afterScalar? rest with
      | some rest => after? fuel .more opened rest
      | none => none
  | fuel + 1, .field, opened, cs =>
    match afterName? cs with
    | some rest => after? fuel .value opened rest
    | none => none
  | _ + 1, .more, [], cs => some cs
  | fuel + 1, .more, .array :: outer, cs =>
    match skipGap cs with
    | ',' :: rest => after? fuel .value (.array :: outer) rest
    | ']' :: rest => after? fuel .more outer rest
    | _ => none
  | fuel + 1, .more, .object :: outer, cs =>
    match skipGap cs with
    | ',' :: rest => after? fuel .field (.object :: outer) rest
    | '\x7d' :: rest => after? fuel .more outer rest
    | _ => none

/-- The text after a value.  Every step but the last takes a character, so the length is fuel
enough. -/
def afterValue? (cs : List Char) : Option (List Char) := after? (cs.length + 1) .value [] cs

end LoadBridge.Json
