import LoadBridge.Json.Basic
import LoadBridge.Text.Blank

/-!
# JSON — Written form

`compact` writes a value without blanks.  `pretty` writes one item or field a line, two spaces
deeper for each container; an empty container is written `[]` or `{}`.  Inside strings only the
quote, the backslash and the control characters below U+0020 are escaped.
-/

namespace LoadBridge.Json

/-- The hexadecimal digit of a number below sixteen, in lower case. -/
def hexDigit (n : Nat) : Char := if n < 10 then Char.ofNat (48 + n) else Char.ofNat (87 + n)

/-- How one character is written inside a string. -/
def escapeChar (c : Char) : List Char :=
  if c = '"' then ['\\', '"']
  else if c = '\\' then ['\\', '\\']
  else if c = '\n' then ['\\', 'n']
  else if c = '\t' then ['\\', 't']
  else if c = '\r' then ['\\', 'r']
  else if c.toNat = 8 then ['\\', 'b']
  else if c.toNat = 12 then ['\\', 'f']
  else if c.toNat < 32 then ['\\', 'u', '0', '0', hexDigit (c.toNat / 16), hexDigit (c.toNat % 16)]
  else [c]

/-- A string in quotes. -/
def quoted (s : String) : String := .ofList ('"' :: s.toList.flatMap escapeChar ++ ['"'])

/-- An integer in decimal digits. -/
def decimal (n : Int) : String :=
  match n with
  | .ofNat k => k.repr
  | .negSucc k => "-" ++ (k + 1).repr

mutual

/-- The value without blanks. -/
def compact : Json → String
  | .null => "null"
  | .bool true => "true"
  | .bool false => "false"
  | .int n => decimal n
  | .real literal => literal
  | .str s => quoted s
  | .arr items => "[" ++ compactItems items ++ "]"
  | .obj fields => "\x7b" ++ compactFields fields ++ "\x7d"

/-- The items of an array, with commas between them. -/
def compactItems : List Json → String
  | [] => ""
  | [j] => compact j
  | j :: rest => compact j ++ "," ++ compactItems rest

/-- The fields of an object, with commas between them. -/
def compactFields : List (String × Json) → String
  | [] => ""
  | [(k, v)] => quoted k ++ ":" ++ compact v
  | (k, v) :: rest => quoted k ++ ":" ++ compact v ++ "," ++ compactFields rest

end

/-- The start of a line `level` containers deep. -/
def margin (level : Nat) : String := "\n" ++ Text.spaces (2 * level)

mutual

/-- The value with a line for each item and field, `level` containers deep. -/
def prettyAt (level : Nat) : Json → String
  | .null => "null"
  | .bool true => "true"
  | .bool false => "false"
  | .int n => decimal n
  | .real literal => literal
  | .str s => quoted s
  | .arr [] => "[]"
  | .arr items => "[" ++ prettyItems level items ++ margin level ++ "]"
  | .obj [] => "\x7b\x7d"
  | .obj fields => "\x7b" ++ prettyFields level fields ++ margin level ++ "\x7d"

/-- The items of an array that is `level` containers deep. -/
def prettyItems (level : Nat) : List Json → String
  | [] => ""
  | [j] => margin (level + 1) ++ prettyAt (level + 1) j
  | j :: rest => margin (level + 1) ++ prettyAt (level + 1) j ++ "," ++ prettyItems level rest

/-- The fields of an object that is `level` containers deep. -/
def prettyFields (level : Nat) : List (String × Json) → String
  | [] => ""
  | [(k, v)] => margin (level + 1) ++ quoted k ++ ": " ++ prettyAt (level + 1) v
  | (k, v) :: rest =>
    margin (level + 1) ++ quoted k ++ ": " ++ prettyAt (level + 1) v ++ "," ++
      prettyFields level rest

end

/-- The value with a line for each item and field. -/
def pretty (j : Json) : String := prettyAt 0 j

end LoadBridge.Json
