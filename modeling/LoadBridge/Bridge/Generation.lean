import LoadBridge.Bridge.Augmentation
import LoadBridge.Bridge.Function
import LoadBridge.Bridge.LoadSet

/-!
# Bridge — Generation

A run settles the load set, registers its names, and generates each class from its plan; functions
come last.  The result is assembled into a header and a source for the library and a header for the
host.
-/

namespace LoadBridge

/-- All that is generated for one class. -/
structure ClassOutput where
  target : String
  names : GeneratedNames
  /-- The namespaces of the generated classes, outermost first. -/
  scope : List String
  interface : InterfaceDecl
  delegate : DelegateDecl
  factories : FactorySet
  augmentation : Augmentation
  /-- What was left out. -/
  notices : List Notice
  deriving Inhabited

/-- A row of the table of loaded types. -/
structure LoadedType where
  target : String
  interface : String
  delegate : String
  /-- The symbols of its factories. -/
  factories : List String
  deriving DecidableEq, Inhabited

def ClassOutput.loadedType (c : ClassOutput) : LoadedType where
  target := c.target
  interface := c.names.interface.long
  delegate := c.names.delegate.long
  factories := c.factories.records.map FactoryRecord.symbol

/-- The result of a run. -/
structure GenerationOutput where
  /-- The namespace around all generated code, outermost first. -/
  outer : List String
  roots : Code
  /-- The generated classes declared, namespace by namespace. -/
  forwardDeclarations : Code
  /-- The loaded classes, each after its loaded ancestors. -/
  classes : List ClassOutput
  functions : List FunctionWrapper
  loadedTypes : List LoadedType
  ledger : Ledger
  notices : List Notice
  /-- The function that binds every slot. -/
  bindFunction : Code
  deriving Inhabited

namespace Context

/-- All that is generated from the plan of a class, with factories numbered from `counter` on. -/
def outputOf (ctx : Context) (counter : Nat) (c : ClassRecord) (plan : ClassPlan) : ClassOutput :=
  let interface := ctx.interfaceOf plan
  { target := c.qualifiedName
    names := plan.names
    scope := ctx.generatedScope c.scope
    interface
    delegate := ctx.delegateOf plan interface.pointerCopy interface.pointerAssign
    factories := ctx.factoriesOf counter plan
    augmentation := ctx.augmentationOf plan interface.pointerCopy interface.pointerAssign
    notices := plan.notices ++ plan.hookNotices ++ plan.factoryNotices ++ plan.locationNotices }

/-- Generates one class, numbering its factories from `counter` on. -/
def generateClass (ctx : Context) (counter : Nat) (c : ClassRecord) :
    Except BridgeError ClassOutput := do
  let plan ← ctx.planClass c
  pure (ctx.outputOf counter c plan)

/-- Generates classes one after the other, numbering their factories from `counter` on.  Answers
the number that comes next, too. -/
def generateClasses (ctx : Context) (counter : Nat) :
    List ClassRecord → Except BridgeError (List ClassOutput × Nat)
  | [] => .ok ([], counter)
  | c :: rest => do
    let output ← ctx.generateClass counter c
    let (outputs, next) ← ctx.generateClasses (counter + output.factories.records.length) rest
    pure (output :: outputs, next)

/-- Declares the companions of a generated class. -/
def declareCompanions (ctx : Context) (c : ClassOutput) : Code :=
  match ctx.table.classNamed? c.target with
  | none => .empty
  | some record =>
    forwardDeclaration record c.names.interface.name ++
    forwardDeclaration record c.names.delegate.name

/-- Declares all companions, namespace by namespace. -/
def declareAll (ctx : Context) (classes : List ClassOutput) : Code :=
  .concat ((classes.map ClassOutput.scope).eraseDups.map fun scope =>
    .within scope
      (.concat ((classes.filter fun c => c.scope == scope).map ctx.declareCompanions)))

/-- The slots of a run and the symbols they are bound to. -/
def slotsOf (classes : List ClassOutput) (functions : List FunctionWrapper) :
    List (String × String) :=
  let factories := classes.flatMap fun c => c.factories.records
  (factories.filterMap fun r => r.slot.map fun slot => (slot, r.symbol)) ++
    functions.filterMap fun f =>
      match f.slot, f.symbol with
      | some slot, some symbol => some (slot, symbol)
      | _, _ => none

/-- The function that binds every slot, given a way to look a symbol up. -/
def bindFunction (ctx : Context) (slots : List (String × String)) : Code :=
  .line "template <typename Lookup>" ++
  .function ("inline void " ++ ctx.affixes.suffixed "bind_symbols" ++ "(Lookup lookup)")
    (slots.map fun (slot, symbol) =>
      slot ++ " = reinterpret_cast<decltype(" ++ slot ++ ")>(lookup(\"" ++ symbol ++ "\"));")

/-- The result of a run that has generated these classes and wrapped these functions, after the
notices of its load set. -/
def assemble (ctx : Context) (loadNotices : List Notice) (classes : List ClassOutput)
    (wrapping : Wrapping) : GenerationOutput where
  outer := ctx.names.outer
  roots := rootClasses ctx.affixes
  forwardDeclarations := ctx.declareAll classes
  classes
  functions := wrapping.wrappers
  loadedTypes := classes.map ClassOutput.loadedType
  ledger := ⟨classes.map ClassOutput.target, wrapping.done⟩
  notices := loadNotices ++ classes.flatMap ClassOutput.notices ++ wrapping.notices
  bindFunction := ctx.bindFunction (slotsOf classes wrapping.wrappers)

end Context

/-- Runs a configuration against a symbol table. -/
def generate (table : SymbolTable) (config : Config) : Except BridgeError GenerationOutput :=
  match config.validate with
  | .error e => .error (.config e)
  | .ok () => do
    let start := Context.new table config
    let loadSet := start.loadSet
    let ctx := start.register (loadSet.map fun c => ⟨c.scope, c.name⟩)
    let order := Context.firstOfName (ctx.emissionOrder (loadSet.map ClassRecord.id))
    let (classes, counter) ← ctx.generateClasses 0 order
    let wrapping ← ctx.wrapFunctions counter
    pure (ctx.assemble start.loadNotices classes wrapping)

namespace GenerationOutput

/-- Whether nothing was generated. -/
def isEmpty (g : GenerationOutput) : Bool :=
  g.ledger.classesDone.isEmpty && g.ledger.functionsDone.isEmpty

/-- All factories, in the order of their numbers. -/
def factories (g : GenerationOutput) : List FactoryRecord :=
  g.classes.flatMap fun c => c.factories.records

/-- What was generated for the class of this name. -/
def classNamed? (g : GenerationOutput) (qualified : String) : Option ClassOutput :=
  g.classes.find? fun c => c.target == qualified

/-- The functions that are not passed through. -/
def wrapped (g : GenerationOutput) : List FunctionWrapper :=
  g.functions.filter fun f => !f.isPassthrough

/-! ### Files -/

/-- The start of both headers: the root classes and the forward declarations. -/
def preamble (g : GenerationOutput) : Code :=
  .line "#pragma once" ++
  .blank ++
  .within g.outer g.roots ++
  .blank ++
  g.forwardDeclarations

/-- A part of every class, each in its namespaces after a blank line. -/
def eachClass (g : GenerationOutput) (part : ClassOutput → Code) : Code :=
  .concat (g.classes.map fun c => .blank ++ .within c.scope (part c))

/-- All Interfaces, then all Delegates, then all definitions. -/
def classCode (g : GenerationOutput) (flavor : Flavor) : Code :=
  g.eachClass (fun c =>
    match flavor with
    | .library => c.interface.code
    | .host => c.interface.hostCode) ++
  g.eachClass (fun c => c.delegate.declaration) ++
  g.eachClass (fun c => c.delegate.definitions)

/-- The header that the library compiles. -/
def libraryHeader (g : GenerationOutput) : Code := g.preamble ++ g.classCode .library

/-- The header that the host compiles, with the wrapped functions and the function that binds all
slots. -/
def hostHeader (g : GenerationOutput) : Code :=
  g.preamble ++
  g.classCode .host ++
  .concat (g.wrapped.map fun f => .blank ++ f.hostCode) ++
  .blank ++
  .within g.outer g.bindFunction

/-- The files in which the loaded classes are declared, each once. -/
def declaringFiles (g : GenerationOutput) : List String :=
  (g.classes.filterMap fun c => c.augmentation.location.map SourceLocation.file).eraseDups

/-- The source that defines all exported symbols.  `header` is the name under which it includes the
library's header. -/
def librarySource (g : GenerationOutput) (header : String) : Code :=
  .lines ((header :: g.declaringFiles).map fun file => "#include \"" ++ file ++ "\"") ++
  .concat ((g.classes.filter fun c => !c.factories.isEmpty).map fun c =>
    .blank ++ c.factories.code) ++
  .concat (g.wrapped.map fun f => .blank ++ f.libraryCode)

end GenerationOutput

end LoadBridge
