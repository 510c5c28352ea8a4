import LoadBridge.Text.Blank
import LoadBridge.Text.Bracket

/-!
# Names — Qualified names

A name such as `ns::Pair<a::B, int>` is a scope (`ns`) and a short name with an optional template
bracket.  Names are looked up by their *key*, which ignores blanks and a leading `::`.
-/

namespace LoadBridge.Name

open Text

/-- The scope components of `s`: its pieces between top-level `::`, empty ones left out. -/
def splitScope (s : String) : List String :=
  ((scopePieces 0 (trim s.toList)).filter (fun p => !p.isEmpty)).map .ofList

/-- The arguments inside a template bracket: a blank last one is left out. -/
def templateArguments (inner : List Char) : List (List Char) :=
  let parts := (commaPieces .angle 0 inner).map trim
  if parts.getLast? = some [] then parts.dropLast else parts

/-- What stands between the first `<` of a name and its final `>`, given all that follows the
`<`.  A name that does not end in `>` has an unclosed bracket, which reaches to its end. -/
def bracketInside (afterOpen : List Char) : List Char :=
  let inner := trimEnd afterOpen
  if inner.getLast? = some '>' then inner.dropLast else inner

/-- The name before its template bracket, and the arguments in the bracket. -/
def splitTemplate (s : String) : String × List String :=
  let cs := s.toList
  match cs.dropWhile (· != '<') with
  | [] => (s, [])
  | _ :: afterOpen =>
    (.ofList (trimEnd (cs.takeWhile (· != '<'))),
      (templateArguments (bracketInside afterOpen)).map .ofList)

/-- `scope::name`, or `name` alone in the global scope. -/
def join (scope : List String) (name : String) : String := "::".intercalate (scope ++ [name])

/-- The lookup key of the characters of a name: leading blanks, then leading `::`, then all other
blanks are removed. -/
def keyChars (cs : List Char) : List Char := squeeze (dropScopeMarks (trimStart cs))

/-- The form under which a name is looked up and compared. -/
def key (s : String) : String := .ofList (keyChars s.toList)

/-- Whether two spellings are the same name. -/
def same (a b : String) : Bool := key a == key b

/-- `s` without the `::` it starts with. -/
def relative (s : String) : String := .ofList (dropScopeMarks s.toList)

/-- A name written from the global scope. -/
def absolute (s : String) : String := "::" ++ s

end LoadBridge.Name

namespace LoadBridge

/-- A name in a scope.  The short name keeps its template bracket. -/
structure QualifiedName where
  scope : List String
  name : String
  deriving DecidableEq, Inhabited

namespace QualifiedName

/-- Reads `ns::Name<args>`. -/
def parse (s : String) : QualifiedName :=
  let parts := Name.splitScope (Name.relative s)
  ⟨parts.dropLast, parts.getLastD ""⟩

/-- Writes `ns::Name<args>`. -/
def long (n : QualifiedName) : String := Name.join n.scope n.name

/-- The short name without its template bracket. -/
def short (n : QualifiedName) : String := (Name.splitTemplate n.name).1

/-- The arguments in the template bracket. -/
def templateArgs (n : QualifiedName) : List String := (Name.splitTemplate n.name).2

/-- `mark` written before the short name.  Scope and template bracket are carried over. -/
def marked (n : QualifiedName) (mark : String) : QualifiedName := { n with name := mark ++ n.name }

end QualifiedName

end LoadBridge
