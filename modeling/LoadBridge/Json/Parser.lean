import LoadBridge.Json.Extent

/-!
# JSON — Reading a text

A reader takes the characters that are left and answers a value and the characters after it, or
nothing.  Containers may be nested 127 deep.  A reader of an object may be told which fields are
wanted: the others are passed over and left out.
-/

namespace LoadBridge.Json

/-- Wants every field. -/
def every (_ : String) : Bool := true

mutual

/-- Reads a value that may open `depth - 1` containers inside one another.  If it is an object, its
`wanted` fields are kept. -/
def value? : (fuel depth : Nat) → (wanted : String → Bool) → List Char →
    Option (Json × List Char)
  | 0, _, _, _ => none
  | fuel + 1, depth, wanted, cs =>
    match skipGap cs with
    | 'n' :: 'u' :: 'l' :: 'l' :: rest => some (.null, rest)
    | 't' :: 'r' :: 'u' :: 'e' :: rest => some (.bool true, rest)
    | 'f' :: 'a' :: 'l' :: 's' :: 'e' :: rest => some (.bool false, rest)
    | '"' :: rest => (string? rest).map fun (s, rest) => (.str s, rest)
    | '[' :: rest =>
      if depth ≤ 1 then none
      else match skipGap rest with
        | ']' :: rest => some (.arr [], rest)
        | rest => (items? fuel (depth - 1) rest).map fun (xs, rest) => (.arr xs, rest)
    | '\x7b' :: rest =>
      if depth ≤ 1 then none
      else match skipGap rest with
        | '\x7d' :: rest => some (.obj [], rest)
        | rest => (fields? fuel (depth - 1) wanted rest).map fun (fs, rest) => (.obj fs, rest)
    | rest => number? rest

/-- Reads the items of an array, at least one, and its closing bracket. -/
def items? : (fuel depth : Nat) → List Char → Option (List Json × List Char)
  | 0, _, _ => none
  | fuel + 1, depth, cs =>
    match value? fuel depth every cs with
    | none => none
    | some (j, rest) =>
      match skipGap rest with
      | ']' :: rest => some ([j], rest)
      | ',' :: rest => (items? fuel depth rest).map fun (js, rest) => (j :: js, rest)
      | _ => none

/-- Reads the fields of an object, at least one, and its closing brace.  The `wanted` ones are
kept. -/
def fields? : (fuel depth : Nat) → (wanted : String → Bool) → List Char →
    Option (List (String × Json) × List Char)
  | 0, _, _, _ => none
  | fuel + 1, depth, wanted, cs =>
    match skipGap cs with
    | '"' :: rest =>
      match string? rest with
      | none => none
      | some (k, rest) =>
        match skipGap rest with
        | ':' :: rest =>
          let field? := if wanted k
            then (value? fuel depth every rest).map fun (v, rest) => ([(k, v)], rest)
            else (afterValue? rest).map fun rest => ([], rest)
          match field? with
          | none => none
          | some (kept, rest) =>
            match skipGap rest with
            | '\x7d' :: rest => some (kept, rest)
            | ',' :: rest =>
              (fields? fuel depth wanted rest).map fun (fs, rest) => (kept ++ fs, rest)
            | _ => none
        | _ => none
    | _ => none

end

/-- How many containers may be open at once, and one more. -/
def nestingLimit : Nat := 128

/-- Reads a text that holds one value and nothing else.  If it is an object, its `wanted` fields are
kept.  Every step of the reader that does not take a character is followed by one that does, so
twice the length is fuel enough. -/
def parseWanted? (wanted : String → Bool) (text : String) : Option Json :=
  let cs := text.toList
  match value? (2 * cs.length + 2) nestingLimit wanted cs with
  | some (j, rest) => if (skipGap rest).isEmpty then some j else none
  | none => none

/-- Reads a text that holds one value and nothing else. -/
def parse? (text : String) : Option Json := parseWanted? every text

end LoadBridge.Json
