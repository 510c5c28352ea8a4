import LoadBridge.Config.Basic
import LoadBridge.Name.Table
import LoadBridge.Symbol.Table

/-!
# Bridge — Context

What a run reads: the symbol table, the configuration and the names of the load set.  Here a type
is told apart by what its base is to the load set, and its base is spelled for the library.
-/

namespace LoadBridge

/-- What ends a run. -/
inductive BridgeError where
  | config (error : ConfigError)
  /-- A class without generated names reached planning. -/
  | unregistered (name : String)
  | symbol (error : SymbolError)
  deriving DecidableEq

def BridgeError.message : BridgeError → String
  | .config e => e.message
  | .unregistered name => "class '" ++ name ++ "' has no generated names"
  | .symbol e => e.message

/-- What the base of a type is to the load set. -/
inductive TypeClass where
  | fundamental
  | enumeration
  /-- A class of the load set. -/
  | loaded
  /-- A class that the configuration knows. -/
  | known
  /-- A class of the standard library. -/
  | std
  /-- Any other class. -/
  | unknown
  /-- The table has no record of the base. -/
  | unresolved
  deriving DecidableEq, Inhabited

/-- Whether types of this class may cross the boundary. -/
def TypeClass.isAccepted : TypeClass → Bool
  | .unknown | .unresolved => false
  | _ => true

/-- Where code stands, which decides how it spells generated names. -/
inductive Side where
  /-- In the generated namespace: names are relative to it. -/
  | generated
  /-- In the library: names start at the global scope. -/
  | library
  deriving DecidableEq, Inhabited

/-- The built-in types that need no record. -/
def fundamentalTypes : List String :=
  ["void", "bool", "char", "signed char", "unsigned char", "wchar_t", "char16_t", "char32_t",
    "short", "short int", "unsigned short", "short unsigned int", "int", "unsigned",
    "unsigned int", "long", "long int", "unsigned long", "long unsigned int", "long long",
    "long long int", "unsigned long long", "long long unsigned int", "float", "double",
    "long double", "size_t"]

/-- What a run reads. -/
structure Context where
  table : SymbolTable
  config : Config
  names : NameTable

namespace Context

/-- The context before any class is registered. -/
def new (table : SymbolTable) (config : Config) : Context :=
  ⟨table, config, .new config.affixes config.output.backendNamespace⟩

/-- The context with these classes registered. -/
def register (ctx : Context) (targets : List QualifiedName) : Context :=
  { ctx with names := ctx.names.registerAll targets }

def affixes (ctx : Context) : NameAffixes := ctx.names.affixes

/-- The record of a type's base. -/
def elementOf (ctx : Context) (type : TypeRef) : Option Record := type.element.bind ctx.table.lookup

/-- The name of a type's base: that of its record if it has one with a name. -/
def baseName (ctx : Context) (type : TypeRef) : String :=
  ((ctx.elementOf type).bind Record.qualifiedName?).getD type.qualifiedName

/-- What a class of this name is to the load set. -/
def classifyName (ctx : Context) (qualified : String) : TypeClass :=
  let name := Name.relative qualified
  if ctx.names.isLoaded name then .loaded
  else if ctx.config.isKnownClass name then .known
  else if Text.startsWith name "std::" then .std
  else .unknown

/-- What a type's base is to the load set.  A record that is no type ends the run. -/
def classify (ctx : Context) (type : TypeRef) : Except SymbolError TypeClass :=
  match type.element with
  | none =>
    if fundamentalTypes.contains type.qualifiedName then .ok .fundamental
    else .ok (ctx.classifyName type.qualifiedName)
  | some id =>
    match ctx.table.lookup id with
    | none => .ok .unresolved
    | some (.ofFundamental _) => .ok .fundamental
    | some (.ofEnumeration _) => .ok .enumeration
    | some (.ofClass c) => .ok (ctx.classifyName c.qualifiedName)
    | some other => .error (.notAType id type other.kind)

/-- The generated names of a type's base, if it is loaded. -/
def loaded? (ctx : Context) (type : TypeRef) : Option GeneratedNames :=
  ctx.names.get? (ctx.baseName type)

/-- Whether the base of any of these types is loaded. -/
def usesLoaded (ctx : Context) (types : List TypeRef) : Bool :=
  types.any fun t => (ctx.loaded? t).isSome

/-- A type's base as the library spells it.  Classes and enumerations start at the global scope, so
that they are found from inside the generated namespace. -/
def libraryBase (ctx : Context) (type : TypeRef) : String :=
  let name := ctx.baseName type
  if type.element.isNone && fundamentalTypes.contains name then name
  else
    match ctx.elementOf type with
    | some (.ofFundamental _) => name
    | _ => Name.absolute name

/-- A generated name as code on this side spells it. -/
def spell (ctx : Context) (name : QualifiedName) : Side → String
  | .generated => name.long
  | .library => ctx.names.absolute name

def interfaceName (ctx : Context) (names : GeneratedNames) (side : Side) : String :=
  ctx.spell names.interface side

def delegateName (ctx : Context) (names : GeneratedNames) (side : Side) : String :=
  ctx.spell names.delegate side

def isDitched (ctx : Context) (qualified : String) : Bool := ctx.config.isDitched qualified

/-- The namespaces around generated code for the scope `scope`. -/
def generatedScope (ctx : Context) (scope : List String) : List String := ctx.names.outer ++ scope

end Context

end LoadBridge
