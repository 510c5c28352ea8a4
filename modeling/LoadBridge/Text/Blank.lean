/-!
# Text — Blanks

A *blank* is a character with the Unicode property `White_Space`.  Names and types are compared
and configured without regard to blanks, so everything here works on the list of characters of a
text: `trim` removes blanks at both ends, `squeeze` removes them everywhere.
-/

namespace LoadBridge.Text

/-- The twenty-five characters with the Unicode property `White_Space`. -/
def isBlank (c : Char) : Bool :=
  let n := c.toNat
  (9 ≤ n && n ≤ 13) || n == 0x20 || n == 0x85 || n == 0xA0 || n == 0x1680 ||
    (0x2000 ≤ n && n ≤ 0x200A) || n == 0x2028 || n == 0x2029 || n == 0x202F || n == 0x205F ||
    n == 0x3000

/-- The text without the blanks it starts with. -/
def trimStart (cs : List Char) : List Char := cs.dropWhile isBlank

/-- The text without the blanks it ends with. -/
def trimEnd (cs : List Char) : List Char := (cs.reverse.dropWhile isBlank).reverse

/-- The text without the blanks at its two ends. -/
def trim (cs : List Char) : List Char := trimEnd (trimStart cs)

/-- The text without any blank. -/
def squeeze (cs : List Char) : List Char := cs.filter (fun c => !isBlank c)

/-- One word: blanks at the ends at most, and something between them. -/
def isWord (cs : List Char) : Bool :=
  !(trim cs).isEmpty && (trim cs).all (fun c => !isBlank c)

/-- The text after `mark`, if it starts with it. -/
def after? (mark cs : List Char) : Option (List Char) :=
  if mark.isPrefixOf cs then some (cs.drop mark.length) else none

/-- `trim` on strings. -/
def trimmed (s : String) : String := .ofList (trim s.toList)

/-- Whether `s` starts with `mark`. -/
def startsWith (s mark : String) : Bool := mark.toList.isPrefixOf s.toList

/-- `n` spaces. -/
def spaces (n : Nat) : String := .ofList (List.replicate n ' ')

theorem squeeze_append (a b : List Char) : squeeze (a ++ b) = squeeze a ++ squeeze b :=
  List.filter_append ..

end LoadBridge.Text
