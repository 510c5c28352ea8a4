import LoadBridge.Bridge.Delegate

/-!
# Bridge — Factories

For every constructor of a plan the library exports a function that makes an object.  A symbol ends
in a number that no other symbol of the run has, and an assembler label keeps it from being
mangled, so the host finds it by its plain text.
-/

namespace LoadBridge

/-- What a factory answers. -/
inductive FactoryReturn where
  /-- An Interface object, which the caller's Delegate owns. -/
  | interface
  /-- A Delegate that is linked with the object and owns it. -/
  | delegate
  deriving DecidableEq, Inhabited

def FactoryReturn.text : FactoryReturn → String
  | .interface => "interface"
  | .delegate => "delegate"

/-- One factory. -/
structure FactoryRecord where
  /-- The exported symbol. -/
  symbol : String
  /-- The class it makes. -/
  target : String
  /-- The types of its parameters, as the Interface spells them. -/
  args : List String
  returns : FactoryReturn
  /-- The slot that is bound to it. -/
  slot : Option String
  deriving DecidableEq, Inhabited

def FactoryRecord.arity (r : FactoryRecord) : Nat := r.args.length

/-- The factories of a class with their definitions. -/
structure FactorySet where
  records : List FactoryRecord := []
  code : Code := .empty
  deriving DecidableEq, Inhabited

def FactorySet.isEmpty (s : FactorySet) : Bool := s.records.isEmpty

/-! ### Symbols -/

/-- A template argument's characters with each `::` made one underscore. -/
def joinScopes : List Char → List Char
  | ':' :: ':' :: rest => '_' :: joinScopes rest
  | c :: rest => c :: joinScopes rest
  | [] => []

/-- A character of a template argument inside a symbol. -/
def symbolChar (c : Char) : Char :=
  if c = '*' then 'P' else if c = '&' then 'R' else if c.isAlphanum then c else '_'

/-- A template argument inside a symbol: blanks are left out, and what cannot stand in an
identifier is replaced. -/
def symbolPart (arg : String) : String :=
  .ofList ((Text.squeeze (joinScopes arg.toList)).map symbolChar)

/-- The template arguments of a class inside a symbol. -/
def templateTag (c : ClassRecord) : String :=
  String.join (c.templateArgs.map fun arg => "_" ++ symbolPart arg)

namespace Context

/-- The symbol of the factory for the constructor at `overload`, with the run-wide number
`counter`. -/
def factorySymbol (ctx : Context) (c : ClassRecord) (overload counter : Nat) : String :=
  ctx.config.naming.factoryPrefix ++ c.shortName ++ "_" ++ overload.repr ++ templateTag c ++
    ctx.affixes.codeSuffix ++ "_" ++ counter.repr

end Context

/-- A function exported under its plain symbol. -/
def exported (returns symbol params body : String) : Code :=
  let signature := returns ++ " " ++ symbol ++ "(" ++ params ++ ")"
  .block "extern \"C\"" (.line (signature ++ " asm(\"" ++ symbol ++ "\");")) "" ++
  .function signature [body] ++
  .blank

/-! ### The factories of a plan -/

namespace ClassPlan

/-- Why a class has no factories, if it has none. -/
def lackingFactories (p : ClassPlan) : Option String :=
  if !p.hasPublicConstructor then some "No public constructors"
  else if p.flags.hasPureVirtual then some "Contains pure virtual member functions."
  else if p.constructors.isEmpty then some "No accepted constructors"
  else none

/-- The notice of a class without factories. -/
def factoryNotices (p : ClassPlan) : List Notice :=
  p.lackingFactories.toList.map fun reason => ⟨.noFactoryFunctions, p.qualifiedName, reason⟩

end ClassPlan

/-- A factory that is to be made: a constructor, its position, and what is answered. -/
structure FactoryOrder where
  constructor : PlannedCallable
  overload : Nat
  returns : FactoryReturn

namespace Context

/-- The factories to make, in the order of their numbers. -/
def factoryOrders (ctx : Context) (p : ClassPlan) : List FactoryOrder :=
  p.constructors.zipIdx.flatMap fun (c, i) =>
    ⟨c, i, .interface⟩ ::
      if ctx.config.output.wrapperReturnFactories then [⟨c, i, .delegate⟩] else []

/-- A factory under the number `counter`. -/
def factoryRecord (ctx : Context) (p : ClassPlan) (order : FactoryOrder) (counter : Nat) :
    FactoryRecord where
  symbol := ctx.factorySymbol p.record order.overload counter
  target := p.qualifiedName
  args := order.constructor.args.map fun a => ctx.interfaceArgType .generated a.type
  returns := order.returns
  slot :=
    match order.returns with
    | .interface => some (p.names.delegate.long ++ "::" ++ factorySlotName order.overload)
    | .delegate => none

/-- The definition of a factory that is exported as `symbol`. -/
def factoryCode (ctx : Context) (p : ClassPlan) (order : FactoryOrder) (symbol : String) : Code :=
  let args := order.constructor.args
  let construct := "new " ++ Name.absolute p.qualifiedName ++ "(" ++
    callArguments args ctx.toLibraryArg ++ ")"
  let params := parameterList args (ctx.interfaceArgType .library)
  let delegate := ctx.delegateName p.names .library
  match order.returns with
  | .interface =>
    exported (ctx.interfaceName p.names .library ++ "*") symbol params ("return " ++ construct ++ ";")
  | .delegate =>
    exported (delegate ++ "*") symbol params
      ("return new " ++ delegate ++ "(" ++ construct ++ ", true);")

/-- The factories of a planned class, numbered from `counter` on. -/
def factoriesOf (ctx : Context) (counter : Nat) (p : ClassPlan) : FactorySet :=
  if p.lackingFactories.isSome then {}
  else
    let made := ((ctx.factoryOrders p).zipIdx counter).map fun (order, n) =>
      (order, ctx.factoryRecord p order n)
    { records := made.map (·.2)
      code := .concat (made.map fun (order, r) => ctx.factoryCode p order r.symbol) }

end Context

end LoadBridge
