import LoadBridge.Toml.Lexeme
import LoadBridge.Toml.Tree

/-!
# TOML — Documents

Reads the text of a TOML document into a value: tables become objects, tables in double brackets
become arrays.  Arrays and inline tables may be nested 79 deep, and a dotted key has 79 parts at
most.
-/

namespace LoadBridge.Toml

/-! ### Keys -/

/-- A character of a key without quotes. -/
def isBare (c : Char) : Bool := c.isAlphanum || c == '_' || c == '-'

/-- One part of a key. -/
def simpleKey? (cs : List Char) : Option (String × List Char) :=
  match cs with
  | '"' :: rest => basic? [] rest
  | '\'' :: rest => literal? [] rest
  | _ =>
    let name := cs.takeWhile isBare
    if name.isEmpty then none else some (.ofList name, cs.dropWhile isBare)

/-- The parts of a key, with spaces around each. -/
def keyParts? : (fuel : Nat) → List Char → Option (List String × List Char)
  | 0, _ => none
  | fuel + 1, cs =>
    match simpleKey? (skipSpaces cs) with
    | none => none
    | some (part, rest) =>
      match skipSpaces rest with
      | '.' :: rest => (keyParts? fuel rest).map fun (parts, rest) => (part :: parts, rest)
      | rest => some ([part], rest)

/-- How deep containers may be nested and how many parts a key may have, and one more. -/
def nestingLimit : Nat := 80

/-- A key: the parts that lead to its table, its last part, and the text after it. -/
def key? (cs : List Char) : Option (List String × String × List Char) :=
  match keyParts? (cs.length + 1) cs with
  | some (parts, rest) =>
    if parts.length < nestingLimit then some (parts.dropLast, parts.getLastD "", rest) else none
  | none => none

/-! ### Values -/

/-- The text after spaces, line breaks and comments, all of which may stand between the items of
an array.  `comment` says that one is under way. -/
def skipLines? (comment : Bool) : List Char → Option (List Char)
  | '\n' :: rest => skipLines? false rest
  | '\r' :: '\n' :: rest => skipLines? false rest
  | '\r' :: _ => none
  | c :: rest =>
    if comment then if isPlain c then skipLines? true rest else none
    else if c = '#' then skipLines? true rest
    else if isSpace c then skipLines? false rest
    else some (c :: rest)
  | [] => if comment then none else some []

mutual

/-- Reads a value that may open `depth - 1` containers inside one another. -/
def value? : (fuel depth : Nat) → List Char → Option (Json × List Char)
  | 0, _, _ => none
  | fuel + 1, depth, cs =>
    match cs with
    | 't' :: 'r' :: 'u' :: 'e' :: rest => some (.bool true, rest)
    | 'f' :: 'a' :: 'l' :: 's' :: 'e' :: rest => some (.bool false, rest)
    | '[' :: rest =>
      if depth ≤ 1 then none
      else (items? fuel (depth - 1) rest).map fun (xs, rest) => (.arr xs, rest)
    | '\x7b' :: rest =>
      if depth ≤ 1 then none
      else match skipSpaces rest with
        | '\x7d' :: rest => some (.obj [], rest)
        | rest => (fields? fuel (depth - 1) [] rest).map fun (es, rest) =>
            (.obj (entriesToJson es), rest)
    | '"' :: _ => (string? cs).map fun (s, rest) => (.str s, rest)
    | '\'' :: _ => (string? cs).map fun (s, rest) => (.str s, rest)
    | _ => number? cs

/-- Reads the items of an array that are left, and its closing bracket.  A comma may stand after
the last item. -/
def items? : (fuel depth : Nat) → List Char → Option (List Json × List Char)
  | 0, _, _ => none
  | fuel + 1, depth, cs =>
    match skipLines? false cs with
    | none => none
    | some (']' :: rest) => some ([], rest)
    | some rest =>
      match value? fuel depth rest with
      | none => none
      | some (v, rest) =>
        match skipLines? false rest with
        | some (']' :: rest) => some ([v], rest)
        | some (',' :: rest) => (items? fuel depth rest).map fun (vs, rest) => (v :: vs, rest)
        | _ => none

/-- Reads the fields of an inline table, at least one, and its closing brace. -/
def fields? : (fuel depth : Nat) → Entries → List Char → Option (Entries × List Char)
  | 0, _, _, _ => none
  | fuel + 1, depth, es, cs =>
    match key? cs with
    | some (path, key, '=' :: rest) =>
      match value? fuel depth (skipSpaces rest) with
      | none => none
      | some (v, rest) =>
        match es.set? path key v with
        | none => none
        | some es =>
          match skipSpaces rest with
          | '\x7d' :: rest => some (es, rest)
          | ',' :: rest => fields? fuel depth es rest
          | _ => none
    | _ => none

end

/-! ### Documents -/

/-- The state between two lines: the finished tables, and the table that keys are being added to
with the path of its header. -/
structure Reading where
  root : Entries := []
  header : List String := []
  /-- The header stood in double brackets. -/
  isItem : Bool := false
  current : Entries := []

namespace Reading

/-- Puts the current table where its header says. -/
def finish (r : Reading) : Option Entries :=
  match r.header.getLast? with
  | none => some r.current
  | some key =>
    let place (_ : Origin) (es : Entries) : Option (Unit × Entries) :=
      if r.isItem then
        match es.lookup key with
        | some (.tables items) => some ((), es.put key (.tables (items ++ [r.current])))
        | none => some ((), es.put key (.tables [r.current]))
        | _ => none
      else some ((), es.put key (.table .declared r.current))
    (Entries.descend false place r.header.dropLast .declared r.root).map (·.2)

/-- Starts the table of a header.  Only a table that was implied so far may have been there. -/
def startTable (r : Reading) (path : List String) (key : String) : Option Reading := do
  let root ← r.finish
  let take (_ : Origin) (es : Entries) : Option (Entries × Entries) :=
    match es.lookup key with
    | none => some ([], es)
    | some (.table .implied sub) => some (sub, es.erase key)
    | _ => none
  let (current, root) ← Entries.descend false take path .declared root
  pure { root, header := path ++ [key], current }

/-- Starts the table of a header in double brackets. -/
def startItem (r : Reading) (path : List String) (key : String) : Option Reading := do
  let root ← r.finish
  let reserve (_ : Origin) (es : Entries) : Option (Unit × Entries) :=
    match es.lookup key with
    | none => some ((), es.put key (.tables []))
    | some (.tables _) => some ((), es)
    | _ => none
  let (_, root) ← Entries.descend false reserve path .declared root
  pure { root, header := path ++ [key], isItem := true }

/-- Adds a key to the current table. -/
def addKey (r : Reading) (path : List String) (key : String) (v : Json) : Option Reading :=
  (r.current.set? path key v).map fun current => { r with current }

end Reading

/-- The text after the rest of a line that holds at most spaces and a comment. -/
def lineEnd? (cs : List Char) : Option (List Char) :=
  let atBreak (cs : List Char) := if cs.isEmpty then some [] else newline? cs
  match skipSpaces cs with
  | '#' :: rest => atBreak (rest.dropWhile isPlain)
  | rest => atBreak rest

/-- Reads one line that is not blank: a comment, a header or a key with its value. -/
def line? (r : Reading) (cs : List Char) : Option (Reading × List Char) :=
  match cs with
  | '#' :: _ => (lineEnd? cs).map fun rest => (r, rest)
  | '[' :: '[' :: rest =>
    match key? rest with
    | some (path, key, ']' :: ']' :: rest) => do
      pure (← r.startItem path key, ← lineEnd? rest)
    | _ => none
  | '[' :: rest =>
    match key? rest with
    | some (path, key, ']' :: rest) => do
      pure (← r.startTable path key, ← lineEnd? rest)
    | _ => none
  | _ =>
    match key? cs with
    | some (path, key, '=' :: rest) => do
      let (v, rest) ← value? (2 * rest.length + 2) nestingLimit (skipSpaces rest)
      pure (← r.addKey path key v, ← lineEnd? rest)
    | _ => none

/-- Reads the lines that are left.  Every line takes a character at least. -/
def lines? : (fuel : Nat) → Reading → List Char → Option Entries
  | 0, _, _ => none
  | fuel + 1, r, cs =>
    match skipSpaces cs with
    | [] => r.finish
    | rest =>
      match newline? rest with
      | some rest => lines? fuel r rest
      | none =>
        match line? r rest with
        | some (r, rest) => lines? fuel r rest
        | none => none

/-- Reads a document into an object.  A byte order mark at its start is skipped. -/
def parse? (text : String) : Option Json :=
  let cs := match text.toList with
    | '\ufeff' :: rest => rest
    | cs => cs
  (lines? (cs.length + 1) {} cs).map fun es => .obj (entriesToJson es)

end LoadBridge.Toml
