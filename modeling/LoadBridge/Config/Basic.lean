import LoadBridge.Name.Affixes
import LoadBridge.Selector

/-!
# Configuration

What to load, what to skip, how generated names are built and how the code is laid out.  A
configuration is valid when generated names cannot collide by themselves and the selectors can be
read.
-/

namespace LoadBridge

/-- What to load from the library. -/
structure LoadSection where
  classes : List String := []
  functions : List String := []
  /-- The ditch list: names of classes, functions and members to skip. -/
  ditch : List String := []
  /-- Load the parents of every loaded class, too. -/
  parentClasses : Bool := false
  /-- Offer the public members of parents that are not loaded. -/
  inheritedMembers : Bool := false
  deriving DecidableEq, Inhabited

/-- How generated names are built. -/
structure NamingSection extends NameAffixes where
  factoryPrefix : String := "Factory_"
  deriving DecidableEq, Inhabited

/-- How the code is laid out. -/
structure OutputSection where
  indent : Nat := 4
  headerExtension : String := ".hpp"
  sourceExtension : String := ".cpp"
  /-- The namespace around all generated code, empty for none. -/
  backendNamespace : String := ""
  /-- Write factories that answer a Delegate, too. -/
  wrapperReturnFactories : Bool := false
  deriving DecidableEq, Inhabited

/-- A configuration. -/
structure Config where
  load : LoadSection := {}
  naming : NamingSection := {}
  output : OutputSection := {}
  /-- Classes that are not loaded and may appear in signatures, with their headers, by name. -/
  knownClasses : List (String × String) := []
  deriving DecidableEq, Inhabited

/-- Why settings cannot be used. -/
inductive ConfigFault where
  | noPrefix
  | onePrefix (text : String)
  | oneRoot (name : String)
  | noFactoryPrefix
  | noIndent
  deriving DecidableEq

def ConfigFault.text : ConfigFault → String
  | .noPrefix => "interface-prefix and delegate-prefix cannot both be empty"
  | .onePrefix text => "interface-prefix and delegate-prefix are both '" ++ text ++ "'"
  | .oneRoot name =>
    "interface-prefix and delegate-prefix both give the root class '" ++ name ++ "'"
  | .noFactoryPrefix => "factory-prefix cannot be empty"
  | .noIndent => "indent must be at least 1"

/-- Why a configuration cannot be used. -/
inductive ConfigError where
  /-- The text is not TOML, or not of the shape of a configuration. -/
  | unreadable
  | settings (fault : ConfigFault)
  | selector (error : SelectorError)
  deriving DecidableEq

def ConfigError.message : ConfigError → String
  | .unreadable => "TOML parse error: the text is not a configuration"
  | .settings fault => "invalid configuration: " ++ fault.text
  | .selector e => e.message

namespace Config

/-- The affixes of generated names. -/
def affixes (c : Config) : NameAffixes := c.naming.toNameAffixes

/-- The selectors of the functions to load. -/
def selectors (c : Config) : Except SelectorError (List Selector) :=
  c.load.functions.mapM Selector.parse

/-- The first fault of the settings, if they have one. -/
def fault? (c : Config) : Option ConfigFault :=
  let a := c.affixes
  if a.interfacePrefix.isEmpty && a.delegatePrefix.isEmpty then some .noPrefix
  else if a.interfacePrefix = a.delegatePrefix then some (.onePrefix a.interfacePrefix)
  else if a.interfaceRoot = a.delegateRoot then some (.oneRoot a.interfaceRoot)
  else if c.naming.factoryPrefix.isEmpty then some .noFactoryPrefix
  else if c.output.indent = 0 then some .noIndent
  else none

/-- Accepts a valid configuration. -/
def validate (c : Config) : Except ConfigError Unit :=
  match c.fault? with
  | some fault => .error (.settings fault)
  | none =>
    match c.selectors with
    | .ok _ => .ok ()
    | .error e => .error (.selector e)

/-- Whether a name is on the ditch list. -/
def isDitched (c : Config) (qualified : String) : Bool :=
  c.load.ditch.any (Name.same qualified)

/-- Whether a name is that of a known class. -/
def isKnownClass (c : Config) (qualified : String) : Bool :=
  c.knownClasses.any fun k => Name.same qualified k.1

/-- The classes asked for, each name once, in the spelling that comes first. -/
def requestedClasses (c : Config) : List String := c.load.classes.eraseDupsBy Name.same

end Config

end LoadBridge
