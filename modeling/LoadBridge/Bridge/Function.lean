import LoadBridge.Bridge.Factory
import LoadBridge.Bridge.Verdict
import LoadBridge.Symbol.Arity

/-!
# Bridge — Functions

A free function without loaded classes, called with all its arguments, is passed through.  Every
other arity gets a wrapper that the library exports, and a function in the generated namespace that
calls it through a slot.
-/

namespace LoadBridge

/-- One arity of a function that is offered. -/
structure FunctionWrapper where
  /-- The function it stands for. -/
  target : String
  arity : Nat
  /-- The name that host code calls. -/
  name : String
  /-- The exported symbol, none for a function that is passed through. -/
  symbol : Option String
  /-- The slot that is bound to the symbol. -/
  slot : Option String
  /-- The wrapper, for the library. -/
  libraryCode : Code
  /-- The slot and the function that calls it, for the host. -/
  hostCode : Code
  deriving DecidableEq, Inhabited

def FunctionWrapper.isPassthrough (w : FunctionWrapper) : Bool := w.symbol.isNone

/-- What has been done in a run: classes by name, functions by signature. -/
structure Ledger where
  classesDone : List String := []
  functionsDone : List String := []
  deriving DecidableEq, Inhabited

namespace Ledger

def hasClass (l : Ledger) (qualified : String) : Bool := l.classesDone.contains qualified

def hasFunction (l : Ledger) (signature : String) : Bool := l.functionsDone.contains signature

end Ledger

/-- The signature under which a function is noted as done. -/
def FunctionRecord.signature (f : FunctionRecord) : String := describeCall f.qualifiedName f.args

namespace Context

/-- The wrapper that the library exports as `symbol`. -/
def libraryWrapper (ctx : Context) (f : FunctionRecord) (returns : TypeRef) (args : List Argument)
    (symbol : String) : Code :=
  let call := Name.absolute f.qualifiedName ++ "(" ++ callArguments args ctx.toLibraryArg ++ ")"
  exported (ctx.interfaceReturnType .library returns) symbol
    (parameterList args (ctx.interfaceArgType .library))
    (returning (some returns) ctx.toInterfaceReturn call)

/-- The slot `slot` and the function `name` that calls it. -/
def hostFunction (ctx : Context) (f : FunctionRecord) (returns : TypeRef) (args : List Argument)
    (name slot : String) : Code :=
  let types := args.map fun a => ctx.interfaceArgType .generated a.type
  let call := slot ++ "(" ++ ctx.interfaceCallArgs args ++ ")"
  .within (ctx.generatedScope f.scope)
    (.line ("inline " ++ ctx.interfaceReturnType .generated returns ++ " (*" ++ slot ++ ")(" ++
      ", ".intercalate types ++ ") = 0;") ++
    .function
      ("inline " ++ ctx.delegateReturnType returns ++ " " ++ name ++ "(" ++
        parameterList args ctx.delegateType ++ ")")
      [returning (some returns) ctx.toDelegateReturn call])

/-- An arity that is passed through. -/
def passthrough (f : FunctionRecord) (arity : Arity) : FunctionWrapper where
  target := f.qualifiedName
  arity := arity.args.length
  name := f.name
  symbol := none
  slot := none
  libraryCode := .empty
  hostCode := .empty

/-- An arity that is exported under the number `counter`.  A function with loaded classes keeps its
name: the arities differ in their types. -/
def exportedFunction (ctx : Context) (f : FunctionRecord) (returns : TypeRef) (usesLoaded : Bool)
    (arity : Arity) (counter : Nat) : FunctionWrapper :=
  let suffixed := ctx.affixes.suffixed f.name
  let name := if usesLoaded then f.name else suffixed
  let symbol := suffixed ++ "_" ++ counter.repr
  let slot := "__" ++ symbol
  { target := f.qualifiedName
    arity := arity.args.length
    name
    symbol := some symbol
    slot := some (Name.join f.scope slot)
    libraryCode := ctx.libraryWrapper f returns arity.args symbol
    hostCode := ctx.hostFunction f returns arity.args name slot }

end Context

/-- What wrapping has produced so far. -/
structure Wrapping where
  wrappers : List FunctionWrapper := []
  /-- The signatures of the functions that are done. -/
  done : List String := []
  notices : List Notice := []
  /-- The number of the next exported symbol. -/
  counter : Nat := 0

namespace Context

/-- Wraps one arity of a function. -/
def wrapArity (ctx : Context) (f : FunctionRecord) (returns : TypeRef) (usesLoaded : Bool)
    (w : Wrapping) (arity : Arity) : Except SymbolError Wrapping := do
  match ← ctx.checkFunction f arity.args with
  | .rejected reason =>
    let notice : Notice :=
      ⟨.functionNotLoadable, describeCall f.qualifiedName arity.args, reason.text⟩
    pure { w with notices := w.notices ++ [notice] }
  | .accepted =>
    if !usesLoaded && !arity.isTruncated then
      pure { w with wrappers := w.wrappers ++ [passthrough f arity] }
    else
      pure { w with
        wrappers := w.wrappers ++ [ctx.exportedFunction f returns usesLoaded arity w.counter]
        counter := w.counter + 1 }

/-- Wraps a function unless its signature is done.  It is done once an arity is accepted. -/
def wrapFunction (ctx : Context) (w : Wrapping) (f : FunctionRecord) :
    Except SymbolError Wrapping :=
  if w.done.contains f.signature then .ok w
  else do
    let returns ← f.returnType
    let usesLoaded := ctx.usesLoaded (returns :: f.args.map Argument.type)
    let next ← (arities f.args).foldlM (ctx.wrapArity f returns usesLoaded) w
    if next.wrappers.length > w.wrappers.length then
      pure { next with done := next.done ++ [f.signature] }
    else pure next

/-- Wraps the functions that a selector picks. -/
def wrapSelected (ctx : Context) (w : Wrapping) (s : Selector) : Except SymbolError Wrapping :=
  match ctx.table.functions.filter s.picks with
  | [] =>
    let notice : Notice := ⟨.functionNotLoadable, s.display, Rejection.notFound.text⟩
    .ok { w with notices := w.notices ++ [notice] }
  | picked => picked.foldlM ctx.wrapFunction w

/-- Wraps the functions that the configuration asks for, numbering symbols from `counter` on. -/
def wrapFunctions (ctx : Context) (counter : Nat) : Except BridgeError Wrapping :=
  match ctx.config.selectors with
  | .error e => .error (.config (.selector e))
  | .ok selectors => trust (selectors.foldlM ctx.wrapSelected { counter })

end Context

end LoadBridge
