import LoadBridge.Decimal
import LoadBridge.Json.Basic

/-!
# JSON — Lexemes

Blanks, strings and numbers of a JSON text.  A reader takes the characters that are left and answers
a value and the characters after it, or nothing.  A lone surrogate and a number beyond the range of
binary floating point are refused.
-/

namespace LoadBridge.Json

/-- The blanks that JSON allows between tokens. -/
def isGap (c : Char) : Bool := c == ' ' || c == '\n' || c == '\t' || c == '\r'

/-- The text after the blanks it starts with. -/
def skipGap (cs : List Char) : List Char := cs.dropWhile isGap

/-! ### Strings -/

/-- The value of a hexadecimal digit. -/
def hexValue? (c : Char) : Option Nat :=
  if c.isDigit then some (c.toNat - 48)
  else if 'a' ≤ c ∧ c ≤ 'f' then some (c.toNat - 87)
  else if 'A' ≤ c ∧ c ≤ 'F' then some (c.toNat - 55)
  else none

/-- The value of four hexadecimal digits. -/
def hex4? (a b c d : Char) : Option Nat := do
  pure ((((← hexValue? a) * 16 + (← hexValue? b)) * 16 + (← hexValue? c)) * 16 + (← hexValue? d))

/-- The character that a backslash and `c` stand for. -/
def escaped? (c : Char) : Option Char :=
  match c with
  | '"' => some '"'
  | '\\' => some '\\'
  | '/' => some '/'
  | 'b' => some '\x08'
  | 'f' => some '\x0c'
  | 'n' => some '\n'
  | 'r' => some '\r'
  | 't' => some '\t'
  | _ => none

/-- First half of a surrogate pair. -/
def isHighSurrogate (u : Nat) : Bool := 0xD800 ≤ u && u < 0xDC00

/-- Second half of a surrogate pair. -/
def isLowSurrogate (u : Nat) : Bool := 0xDC00 ≤ u && u < 0xE000

/-- The character of a surrogate pair. -/
def ofSurrogates (high low : Nat) : Char :=
  Char.ofNat (0x10000 + (high - 0xD800) * 0x400 + (low - 0xDC00))

/-- Resolves the escapes of a string's inside.  `done` holds the characters found so far, last one
first. -/
def unescape (done : List Char) : List Char → Option (List Char)
  | [] => some done.reverse
  | '\\' :: 'u' :: a :: b :: c :: d :: rest =>
    match hex4? a b c d with
    | none => none
    | some u =>
      if isHighSurrogate u then
        match rest with
        | '\\' :: 'u' :: e :: f :: g :: h :: rest' =>
          match hex4? e f g h with
          | none => none
          | some v => if isLowSurrogate v then unescape (ofSurrogates u v :: done) rest' else none
        | _ => none
      else if isLowSurrogate u then none
      else unescape (Char.ofNat u :: done) rest
  | '\\' :: c :: rest =>
    match escaped? c with
    | none => none
    | some e => unescape (e :: done) rest
  | c :: rest => if c = '\\' ∨ c.toNat < 32 then none else unescape (c :: done) rest

/-- The inside of a string up to its closing quote, escapes unresolved, and the text after the
quote.  `done` holds the characters found so far, last one first. -/
def inside (done : List Char) : List Char → Option (List Char × List Char)
  | [] => none
  | '"' :: rest => some (done.reverse, rest)
  | '\\' :: c :: rest => inside (c :: '\\' :: done) rest
  | c :: rest => inside (c :: done) rest

/-- A string whose opening quote is already read. -/
def string? (cs : List Char) : Option (String × List Char) := do
  let (raw, rest) ← inside [] cs
  let text ← unescape [] raw
  pure (.ofList text, rest)

/-! ### Numbers -/

/-- A number as it is written. -/
structure Numeral where
  negative : Bool
  /-- The digits before the point. -/
  whole : List Char
  /-- The digits after the point, none where there is no point. -/
  fraction : List Char
  /-- The digits of the exponent after its minus sign, if it has one; nothing where there is no
  exponent. -/
  exponent : List Char
  deriving DecidableEq, Inhabited

/-- Reads an exponent mark, sign and digits. -/
def exponent? (cs : List Char) : Option (List Char × List Char) :=
  match cs with
  | e :: rest =>
    if e = 'e' ∨ e = 'E' then
      let (sign, rest) := match rest with
        | '+' :: r => ([], r)
        | '-' :: r => (['-'], r)
        | r => ([], r)
      let digits := rest.takeWhile Char.isDigit
      if digits.isEmpty then none else some (sign ++ digits, rest.dropWhile Char.isDigit)
    else some ([], cs)
  | [] => some ([], [])

/-- Reads a fraction, without its point. -/
def fraction? (cs : List Char) : Option (List Char × List Char) :=
  match cs with
  | '.' :: rest =>
    let digits := rest.takeWhile Char.isDigit
    if digits.isEmpty then none else some (digits, rest.dropWhile Char.isDigit)
  | _ => some ([], cs)

/-- Reads a number of any size. -/
def numeral? (cs : List Char) : Option (Numeral × List Char) := do
  let (negative, cs) := match cs with
    | '-' :: r => (true, r)
    | r => (false, r)
  let (whole, cs) ← match cs with
    | '0' :: r => some (['0'], r)
    | r =>
      let digits := r.takeWhile Char.isDigit
      if digits.isEmpty then none else some (digits, r.dropWhile Char.isDigit)
  let (fraction, cs) ← fraction? cs
  let (exponent, rest) ← exponent? cs
  pure (⟨negative, whole, fraction, exponent⟩, rest)

namespace Numeral

/-- Whether neither a fraction nor an exponent is written. -/
def isWhole (x : Numeral) : Bool := x.fraction.isEmpty && x.exponent.isEmpty

/-- The exponent that is written, none being zero. -/
def writtenExponent (x : Numeral) : Int :=
  match x.exponent with
  | '-' :: ds => -(Decimal.ofDigits ds : Int)
  | ds => Decimal.ofDigits ds

/-- The number without its sign as `m · 10^e`, where `m` has sixty-four bits at most.  Digits of the
whole part for which `m` has no room count as zeros; those of the fraction are left out. -/
def scaled (x : Numeral) : Nat × Int :=
  let (n, zeros) := Decimal.extend 0 x.whole
  let (m, unread) := Decimal.extend n x.fraction
  (m, x.writtenExponent + zeros - (x.fraction.length - unread))

/-- Whether the number is in the range of binary floating point. -/
def isInRange (x : Numeral) : Bool := Decimal.isFiniteProduct x.scaled.1 x.scaled.2

/-- The number in one spelling: a small `e` for the exponent, and no plus sign. -/
def literal (x : Numeral) : String :=
  let sign := if x.negative then ['-'] else []
  let point := if x.fraction.isEmpty then [] else '.' :: x.fraction
  let tail := if x.exponent.isEmpty then [] else 'e' :: x.exponent
  .ofList (sign ++ x.whole ++ point ++ tail)

/-- The value of a number in range.  Zero with a minus sign is no integer. -/
def value? (x : Numeral) : Option Json :=
  let n := Decimal.ofDigits x.whole
  if ¬x.isInRange then none
  else if x.isWhole ∧ ¬(x.negative ∧ n = 0) then some (.int (if x.negative then -(n : Int) else n))
  else some (.real x.literal)

end Numeral

/-- Reads a number in range. -/
def number? (cs : List Char) : Option (Json × List Char) := do
  let (x, rest) ← numeral? cs
  pure (← x.value?, rest)

end LoadBridge.Json
