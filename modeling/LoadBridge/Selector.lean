import LoadBridge.Symbol.Record

/-!
# Selectors

A selector picks free functions out of a symbol table.  `ns::area` picks every overload,
`ns::area(double, int)` the one with these argument types, `ns::reset()` and `ns::reset(void)` the
one without arguments.  Names and types are compared by their keys, so blanks and a leading `::`
make no difference.
-/

namespace LoadBridge

/-- A call written with the types of its arguments: `name(type1, type2)`. -/
def describeCall (name : String) (args : List Argument) : String :=
  name ++ "(" ++ ", ".intercalate (args.map (·.type.display)) ++ ")"

/-- Which functions to pick. -/
structure Selector where
  /-- The key of the qualified name. -/
  name : String
  /-- The keys of the argument types, where one overload is meant. -/
  args : Option (List String) := none
  deriving DecidableEq, Inhabited

/-- What is wrong with the text of a selector. -/
inductive SelectorFault where
  | empty
  | unclosed
  | emptyArgument
  | nameless
  | severalWords
  deriving DecidableEq

def SelectorFault.text : SelectorFault → String
  | .empty => "empty selector"
  | .unclosed => "missing ')'"
  | .emptyArgument => "empty argument type"
  | .nameless => "missing function name"
  | .severalWords => "function name contains whitespace"

/-- A text that is not a selector. -/
structure SelectorError where
  selector : String
  fault : SelectorFault
  deriving DecidableEq

def SelectorError.message (e : SelectorError) : String :=
  "invalid function selector '" ++ e.selector ++ "': " ++ e.fault.text

namespace Selector

open Text

/-- The keys of the argument types in a list without its parentheses. -/
def argumentKeys (inner : List Char) : Except SelectorFault (List String) :=
  if inner.isEmpty || inner == "void".toList then .ok []
  else
    let keys := (commaPieces .call 0 inner).map Name.keyChars
    if keys.any List.isEmpty then .error .emptyArgument else .ok (keys.map .ofList)

/-- A selector by its name as written and the keys of its argument types.  The name may hold blanks
inside its template bracket only. -/
def ofName (name : List Char) (args : Option (List String)) : Except SelectorFault Selector :=
  if name.isEmpty then .error .nameless
  else if isWord (Name.splitTemplate (.ofList name)).1.toList then
    .ok ⟨.ofList (Name.keyChars name), args⟩
  else .error .severalWords

/-- Reads the characters of a selector, blanks at the ends already removed. -/
def ofChars (cs : List Char) : Except SelectorFault Selector :=
  if cs.isEmpty then .error .empty
  else
    match cs.dropWhile (· != '(') with
    | [] => ofName cs none
    | _ :: afterOpen =>
      if afterOpen.getLast? = some ')' then do
        let args ← argumentKeys (trim afterOpen.dropLast)
        ofName (trim (cs.takeWhile (· != '('))) (some args)
      else .error .unclosed

/-- Reads a selector. -/
def parse (text : String) : Except SelectorError Selector :=
  match ofChars (trim text.toList) with
  | .ok s => .ok s
  | .error fault => .error ⟨text, fault⟩

/-- Whether `f` is picked. -/
def picks (s : Selector) (f : FunctionRecord) : Bool :=
  Name.key f.qualifiedName == s.name &&
    match s.args with
    | none => true
    | some args => args == f.args.map fun a => Name.key a.type.display

/-- The selector as text. -/
def display (s : Selector) : String :=
  match s.args with
  | none => s.name
  | some args => s.name ++ "(" ++ ", ".intercalate args ++ ")"

end Selector

end LoadBridge
