import LoadBridge.Json.Lexeme

/-!
# TOML — Lexemes

Strings, numbers, dates and times of a TOML document.  A reader takes the characters that are left
and answers a value and the characters after it, or nothing.  Dates and times are checked and kept
as text in one normal form, because nothing here computes with them.
-/

namespace LoadBridge.Toml

/-- A space or a tab. -/
def isSpace (c : Char) : Bool := c == ' ' || c == '\t'

/-- The text after the spaces it starts with. -/
def skipSpaces (cs : List Char) : List Char := cs.dropWhile isSpace

/-- A character that may stand as itself in a comment or a string: no control character but the
tab. -/
def isPlain (c : Char) : Bool := c == '\t' || (0x20 ≤ c.toNat && c.toNat != 0x7F)

/-- The text after a line break, if it starts with one. -/
def newline? : List Char → Option (List Char)
  | '\n' :: rest => some rest
  | '\r' :: '\n' :: rest => some rest
  | _ => none

/-! ### Strings -/

/-- The character with this code. -/
def scalar? (code : Nat) : Option Char :=
  if h : code.isValidChar then some (Char.ofNatAux code h) else none

/-- The character written by hexadecimal digits. -/
def hexScalar? (ds : List Char) : Option Char :=
  (ds.foldlM (fun n d => (Json.hexValue? d).map (n * 16 + ·)) 0).bind scalar?

/-- The character that a backslash and `c` stand for. -/
def escaped? (c : Char) : Option Char :=
  match c with
  | 'b' => some '\x08'
  | 't' => some '\t'
  | 'n' => some '\n'
  | 'f' => some '\x0c'
  | 'r' => some '\r'
  | '"' => some '"'
  | '\\' => some '\\'
  | _ => none

/-- The rest of a string in double quotes.  `done` holds its characters so far, last one first. -/
def basic? (done : List Char) : List Char → Option (String × List Char)
  | '"' :: rest => some (.ofList done.reverse, rest)
  | '\\' :: 'u' :: a :: b :: c :: d :: rest =>
    match hexScalar? [a, b, c, d] with
    | some e => basic? (e :: done) rest
    | none => none
  | '\\' :: 'U' :: a :: b :: c :: d :: e :: f :: g :: h :: rest =>
    match hexScalar? [a, b, c, d, e, f, g, h] with
    | some e => basic? (e :: done) rest
    | none => none
  | '\\' :: c :: rest =>
    match escaped? c with
    | some e => basic? (e :: done) rest
    | none => none
  | c :: rest => if isPlain c then basic? (c :: done) rest else none
  | [] => none

/-- The rest of a string in single quotes. -/
def literal? (done : List Char) : List Char → Option (String × List Char)
  | '\'' :: rest => some (.ofList done.reverse, rest)
  | c :: rest => if isPlain c then literal? (c :: done) rest else none
  | [] => none

/-- The end of a string in three quotes `q`, whose closing quotes are read: up to two quotes more
belong to the string. -/
def closing (q : Char) (done : List Char) (rest : List Char) : String × List Char :=
  match rest with
  | a :: b :: rest' =>
    if a = q ∧ b = q then (.ofList (q :: q :: done).reverse, rest')
    else if a = q then (.ofList (q :: done).reverse, b :: rest')
    else (.ofList done.reverse, rest)
  | [a] => if a = q then (.ofList (q :: done).reverse, []) else (.ofList done.reverse, rest)
  | [] => (.ofList done.reverse, [])

/-- Whether nothing but spaces stands before the next line break. -/
def endsLine (cs : List Char) : Bool := (newline? (skipSpaces cs)).isSome

/-- The rest of a string in three double quotes.  A backslash at the end of a line removes the
line break and all spaces and line breaks after it; `folding` says that this is under way. -/
def basicLines? (folding : Bool) (done : List Char) : List Char → Option (String × List Char)
  | '"' :: '"' :: '"' :: rest => some (closing '"' done rest)
  | '\r' :: '\n' :: rest => basicLines? folding (if folding then done else '\n' :: done) rest
  | '\n' :: rest => basicLines? folding (if folding then done else '\n' :: done) rest
  | '\\' :: 'u' :: a :: b :: c :: d :: rest =>
    match hexScalar? [a, b, c, d] with
    | some e => basicLines? false (e :: done) rest
    | none => none
  | '\\' :: 'U' :: a :: b :: c :: d :: e :: f :: g :: h :: rest =>
    match hexScalar? [a, b, c, d, e, f, g, h] with
    | some e => basicLines? false (e :: done) rest
    | none => none
  | '\\' :: c :: rest =>
    match escaped? c with
    | some e => basicLines? false (e :: done) rest
    | none =>
      if c = '\n' then basicLines? true done rest
      else if (isSpace c || c = '\r') && endsLine (c :: rest) then basicLines? true done rest
      else none
  | c :: rest =>
    if folding && (isSpace c || c = '\n') then basicLines? true done rest
    else if isPlain c then basicLines? false (c :: done) rest
    else none
  | [] => none

/-- The rest of a string in three single quotes. -/
def literalLines? (done : List Char) : List Char → Option (String × List Char)
  | '\'' :: '\'' :: '\'' :: rest => some (closing '\'' done rest)
  | '\r' :: '\n' :: rest => literalLines? ('\n' :: done) rest
  | '\n' :: rest => literalLines? ('\n' :: done) rest
  | c :: rest => if isPlain c then literalLines? (c :: done) rest else none
  | [] => none

/-- A string of any of the four forms.  A line break right after three opening quotes is not part
of the string. -/
def string? (cs : List Char) : Option (String × List Char) :=
  match cs with
  | '"' :: '"' :: '"' :: rest => basicLines? false [] ((newline? rest).getD rest)
  | '\'' :: '\'' :: '\'' :: rest => literalLines? [] ((newline? rest).getD rest)
  | '"' :: rest => basic? [] rest
  | '\'' :: rest => literal? [] rest
  | _ => none

/-! ### Numbers -/

/-- Digits with single underscores between them: the digits, and the text after them.  `isDigit`
says which characters are digits. -/
def digitRun (isDigit : Char → Bool) : List Char → List Char × List Char
  | '_' :: c :: rest =>
    if isDigit c then
      let (ds, rest) := digitRun isDigit rest
      (c :: ds, rest)
    else ([], '_' :: c :: rest)
  | c :: rest =>
    if isDigit c then
      let (ds, rest) := digitRun isDigit rest
      (c :: ds, rest)
    else ([], c :: rest)
  | [] => ([], [])

/-- At least one digit, and no underscore before the first. -/
def digits? (isDigit : Char → Bool) (cs : List Char) : Option (List Char × List Char) :=
  match cs with
  | c :: _ => if isDigit c then some (digitRun isDigit cs) else none
  | [] => none

/-- The sign in front of a number: whether it is a minus, and the text after it. -/
def signed (cs : List Char) : Bool × List Char :=
  match cs with
  | '-' :: rest => (true, rest)
  | '+' :: rest => (false, rest)
  | _ => (false, cs)

/-- The digits of a decimal number: no zero stands before others. -/
def whole? (cs : List Char) : Option (List Char × List Char) :=
  match cs with
  | '0' :: rest => some (['0'], rest)
  | _ => digits? Char.isDigit cs

/-- An integer, if it has sixty-four bits at most. -/
def bounded? (n : Int) : Option Int :=
  if Int64.minValue.toInt ≤ n ∧ n ≤ Int64.maxValue.toInt then some n else none

/-- The number written by digits of a base up to sixteen. -/
def ofBase? (base : Nat) (ds : List Char) : Option Nat :=
  ds.foldlM (fun n d => (Json.hexValue? d).map (n * base + ·)) 0

/-- An integer written in a base other than ten. -/
def based? (base : Nat) (isDigit : Char → Bool) (cs : List Char) : Option (Int × List Char) := do
  let (ds, rest) ← digits? isDigit cs
  let n ← ofBase? base ds
  pure (← bounded? n, rest)

/-- An integer. -/
def integer? (cs : List Char) : Option (Int × List Char) :=
  match cs with
  | '0' :: 'x' :: rest => based? 16 (fun c => (Json.hexValue? c).isSome) rest
  | '0' :: 'o' :: rest => based? 8 (fun c => '0' ≤ c && c ≤ '7') rest
  | '0' :: 'b' :: rest => based? 2 (fun c => c == '0' || c == '1') rest
  | _ => do
    let (negative, cs) := signed cs
    let (ds, rest) ← whole? cs
    let n := Decimal.ofDigits ds
    pure (← bounded? (if negative then -n else n), rest)

/-- The exponent of a number: its sign, its digits, and the text after it. -/
def exponent? (cs : List Char) : Option (Bool × List Char × List Char) :=
  match cs with
  | e :: rest =>
    if e = 'e' ∨ e = 'E' then do
      let (negative, rest) := signed rest
      let (ds, rest) ← digits? Char.isDigit rest
      pure (negative, ds, rest)
    else none
  | [] => none

/-- `inf` or `nan`, with or without a sign. -/
def special? (cs : List Char) : Option (Json × List Char) :=
  match (signed cs).2 with
  | 'i' :: 'n' :: 'f' :: rest => some (.real "inf", rest)
  | 'n' :: 'a' :: 'n' :: rest => some (.real "nan", rest)
  | _ => none

/-- A number with a fraction or an exponent.  One above the range of binary floating point is
refused. -/
def real? (cs : List Char) : Option (Json × List Char) := do
  let (negative, start) := signed cs
  let (whole, rest) ← whole? start
  let (frac, rest) ← match rest with
    | '.' :: r => digits? Char.isDigit r
    | _ => if (exponent? rest).isSome then some ([], rest) else none
  let (down, exp, rest) := (exponent? rest).getD (false, [], rest)
  let e : Int := if down then -(Decimal.ofDigits exp : Int) else Decimal.ofDigits exp
  if negative || Decimal.isFinite (Decimal.ofDigits (whole ++ frac)) (e - frac.length) then
    pure (.real (.ofList (cs.take (cs.length - rest.length))), rest)
  else none

/-! ### Dates and times -/

/-- A number of two digits, up to `most`. -/
def pair? (least most : Nat) (cs : List Char) : Option (List Char × List Char) :=
  match cs with
  | a :: b :: rest =>
    if a.isDigit && b.isDigit && least ≤ Decimal.ofDigits [a, b] && Decimal.ofDigits [a, b] ≤ most then
      some ([a, b], rest)
    else none
  | _ => none

/-- The text after the character `c`. -/
def char? (c : Char) (cs : List Char) : Option (List Char) :=
  match cs with
  | d :: rest => if d = c then some rest else none
  | [] => none

/-- How many days a month has. -/
def daysIn (year month : Nat) : Nat :=
  if month = 2 then
    if year % 4 = 0 ∧ (year % 100 ≠ 0 ∨ year % 400 = 0) then 29 else 28
  else if month = 4 ∨ month = 6 ∨ month = 9 ∨ month = 11 then 30
  else 31

/-- A date, `yyyy-mm-dd`. -/
def date? (cs : List Char) : Option (List Char × List Char) := do
  let year := cs.take 4
  if year.length = 4 ∧ year.all Char.isDigit then
    let rest ← char? '-' (cs.drop 4)
    let (month, rest) ← pair? 1 12 rest
    let rest ← char? '-' rest
    let (day, rest) ← pair? 1 (daysIn (Decimal.ofDigits year) (Decimal.ofDigits month)) rest
    pure (year ++ '-' :: month ++ '-' :: day, rest)
  else none

/-- The fraction of a second to nine digits, zeros at the end left out. -/
def fractionText (ds : List Char) : List Char :=
  let kept := ((ds.take 9).reverse.dropWhile (· == '0')).reverse
  if kept.isEmpty then [] else '.' :: kept

/-- A time of day, `hh:mm:ss` and a fraction. -/
def time? (cs : List Char) : Option (List Char × List Char) := do
  let (hour, rest) ← pair? 0 23 cs
  let rest ← char? ':' rest
  let (minute, rest) ← pair? 0 59 rest
  let rest ← char? ':' rest
  let (second, rest) ← pair? 0 60 rest
  let clock := hour ++ ':' :: minute ++ ':' :: second
  match rest with
  | '.' :: r =>
    let ds := r.takeWhile Char.isDigit
    if ds.isEmpty then none
    else pure (clock ++ fractionText ds, r.dropWhile Char.isDigit)
  | _ => pure (clock, rest)

/-- The offset of a time from universal time.  None at all has a plus sign. -/
def offset? (cs : List Char) : Option (List Char × List Char) :=
  match cs with
  | s :: rest =>
    if s = 'Z' ∨ s = 'z' then some (['Z'], rest)
    else if s = '+' ∨ s = '-' then do
      let (hour, rest) ← pair? 0 23 rest
      let rest ← char? ':' rest
      let (minute, rest) ← pair? 0 59 rest
      let sign := if Decimal.ofDigits (hour ++ minute) = 0 then '+' else s
      pure (sign :: hour ++ ':' :: minute, rest)
    else none
  | [] => none

/-- A date, a time of day, or both with or without an offset. -/
def dateTime? (cs : List Char) : Option (String × List Char) :=
  match date? cs with
  | none => (time? cs).map fun (t, rest) => (.ofList t, rest)
  | some (d, rest) =>
    match rest with
    | mark :: rest' =>
      if mark = 'T' ∨ mark = 't' ∨ mark = ' ' then
        match time? rest' with
        | none => if mark = ' ' then some (.ofList d, rest) else none
        | some (t, rest) =>
          let (o, rest) := (offset? rest).getD ([], rest)
          some (.ofList (d ++ 'T' :: t ++ o), rest)
      else some (.ofList d, rest)
    | [] => some (.ofList d, [])

/-- The field of the object that stands for a date or a time. -/
def dateTimeField : String := "$__toml_private_datetime"

/-- A date or a time as a value: an object whose only field holds the text. -/
def ofDateTime (text : String) : Json := .obj [(dateTimeField, .str text)]

/-- A value that starts with a sign or a digit. -/
def number? (cs : List Char) : Option (Json × List Char) :=
  match dateTime? cs with
  | some (text, rest) => some (ofDateTime text, rest)
  | none =>
    match real? cs with
    | some r => some r
    | none =>
      match special? cs with
      | some r => some r
      | none => (integer? cs).map fun (n, rest) => (.int n, rest)

end LoadBridge.Toml
