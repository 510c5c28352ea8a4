import LoadBridge.Text.Blank

/-!
# Names — Operators

An operator whose signature cannot be kept is offered under a plain identifier instead
(`operator_plus_BE` for `operator+`).  An operator missing from this table cannot be wrapped.
-/

namespace LoadBridge.Operator

/-- The identifiers of the operators that can be wrapped. -/
def identifiers : List (String × String) :=
  [("=", "equal"), ("+", "plus"), ("-", "minus"), ("*", "asterix"), ("/", "slash"),
   ("%", "percent"), ("^", "caret"), ("&", "ampersand"), ("|", "pipe"), ("~", "tilde"),
   ("!", "not"), ("<", "less"), (">", "greater"), ("+=", "plus_equal"), ("-=", "minus_equal"),
   ("*=", "asterix_equal"), ("/=", "slash_equal"), ("%=", "percent_equal"),
   ("^=", "caret_equal"), ("&=", "ampersand_equal"), ("|=", "pipe_equal"),
   ("<<", "shift_left"), (">>", "shift_right"), ("<<=", "shift_left_equal"),
   (">>=", "shift_right_equal"), ("==", "equal_equal"), ("!=", "not_equal"),
   ("<=", "less_equal"), (">=", "greater_equal"), ("&&", "and"), ("||", "or"),
   ("++", "plus_plus"), ("--", "minus_minus"), (",", "comma"), ("->*", "arrow_asterix"),
   ("->", "arrow"), ("()", "call"), ("[]", "square_bracket_pair")]

/-- The bare symbol of an operator written `+` or `operator+`, with blanks anywhere around. -/
def symbolOf (text : String) : String :=
  let bare := Text.trim text.toList
  .ofList (Text.trim ((Text.after? "operator".toList bare).getD bare))

/-- The identifier of an operator, if it can be wrapped. -/
def identifier? (text : String) : Option String := identifiers.lookup (symbolOf text)

end LoadBridge.Operator
