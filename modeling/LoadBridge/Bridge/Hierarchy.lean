import LoadBridge.Bridge.Context
import LoadBridge.Graph.Walk
import LoadBridge.Notice

/-!
# Bridge — Hierarchies

The parents of a class, its loaded ancestors, and the members it takes over from ancestors that are
not loaded.  Base relations may be cyclic or name records that are no classes; a walk visits each
class once.
-/

namespace LoadBridge

/-- The identifiers of the direct parents of a class. -/
def ClassRecord.baseIds (c : ClassRecord) : List RecordId := c.bases.map ParentRecord.id

/-- The identifiers of the direct parents of the class with this identifier. -/
def SymbolTable.basesOf (t : SymbolTable) (id : RecordId) : List RecordId :=
  match t.class? id with
  | some c => c.baseIds
  | none => []

/-- The identifiers of the classes. -/
def SymbolTable.classIds (t : SymbolTable) : List RecordId := t.classes.map ClassRecord.id

/-- Whether the class with this identifier satisfies `p`. -/
def SymbolTable.classSatisfies (t : SymbolTable) (p : ClassRecord → Bool) (id : RecordId) : Bool :=
  (t.class? id).any p

/-! ### Parents -/

/-- What becomes of a direct parent. -/
inductive ParentStatus where
  /-- It is loaded: its Interface is inherited. -/
  | loaded (names : GeneratedNames)
  | fundamental
  | std
  | notLoaded
  deriving DecidableEq, Inhabited

/-- A direct parent of a planned class. -/
structure ParentInfo where
  name : String
  access : Access
  isVirtual : Bool
  status : ParentStatus
  deriving DecidableEq, Inhabited

namespace ParentInfo

/-- The names of a loaded parent. -/
def loaded? (p : ParentInfo) : Option GeneratedNames :=
  match p.status with
  | .loaded names => some names
  | _ => none

/-- Why a parent is left out, if it is. -/
def ignoredBecause (p : ParentInfo) : Option String :=
  match p.status with
  | .loaded _ => none
  | .fundamental | .std => some "avoid inheritance ambiguity"
  | .notLoaded => some "not loaded or accepted type"

/-- The notice of a parent that is left out. -/
def notice? (child : String) (p : ParentInfo) : Option Notice :=
  p.ignoredBecause.map fun reason =>
    ⟨.parentClassIgnored, p.name, "parent of " ++ child ++ ": " ++ reason⟩

end ParentInfo

namespace Context

/-- What becomes of a parent that is a class of this name. -/
def parentStatus (ctx : Context) (name : String) : ParentStatus :=
  match ctx.classifyName name with
  | .loaded =>
    match ctx.names.get? name with
    | some names => .loaded names
    | none => .notLoaded
  | .std => .std
  | _ => .notLoaded

/-- The name and status of the parent with this identifier. -/
def parentOf (ctx : Context) (id : RecordId) : String × ParentStatus :=
  match ctx.table.lookup id with
  | some (.ofClass parent) => (parent.qualifiedName, ctx.parentStatus parent.qualifiedName)
  | some (.ofFundamental f) => (f.name, .fundamental)
  | some other => (other.qualifiedName?.getD id.text, .notLoaded)
  | none => (id.text, .notLoaded)

/-- The direct parents of a class, in order. -/
def parentsOf (ctx : Context) (c : ClassRecord) : List ParentInfo :=
  c.bases.map fun base =>
    let (name, status) := ctx.parentOf base.id
    ⟨name, base.access, base.isVirtual, status⟩

/-! ### Loaded ancestors -/

/-- Whether a class has generated names. -/
def isLoadedClass (ctx : Context) (c : ClassRecord) : Bool := ctx.names.isLoaded c.qualifiedName

/-- The direct parents of a class that are loaded. -/
def loadedBasesOf (ctx : Context) (id : RecordId) : List RecordId :=
  (ctx.table.basesOf id).filter (ctx.table.classSatisfies ctx.isLoadedClass)

/-- The loaded ancestors that are reached through loaded ones, furthest first. -/
def loadedAncestorIds (ctx : Context) (c : ClassRecord) : List RecordId :=
  (Graph.preorder ctx.loadedBasesOf
    (c.baseIds.filter (ctx.table.classSatisfies ctx.isLoadedClass)) ctx.table.classIds).reverse

/-- The names of the loaded ancestors, furthest first. -/
def loadedAncestors (ctx : Context) (c : ClassRecord) : List GeneratedNames :=
  ((ctx.loadedAncestorIds c).filterMap ctx.table.class?).filterMap fun a =>
    ctx.names.get? a.qualifiedName

/-! ### Members of ancestors that are not loaded -/

/-- The direct parents of a class that are classes without generated names. -/
def unloadedBasesOf (ctx : Context) (id : RecordId) : List RecordId :=
  (ctx.table.basesOf id).filter (ctx.table.classSatisfies fun c => !ctx.isLoadedClass c)

/-- The ancestors that are reached without passing through a loaded class, in the order in which
their members are taken over. -/
def unloadedAncestors (ctx : Context) (c : ClassRecord) : List ClassRecord :=
  (Graph.spread ctx.unloadedBasesOf [c.id] ctx.table.classIds).filterMap ctx.table.class?

end Context

/-- A member that heirs can offer as their own. -/
def MemberRecord.isInheritable (m : MemberRecord) : Bool :=
  m.isPublic &&
    match m.kind with
    | .method | .operator | .field => true
    | .constructor | .destructor => false

/-- A member and the class that declares it. -/
abbrev OwnedMember : Type := ClassRecord × MemberRecord

/-- The members taken over from each of these classes: those whose name is not `seen` and was not
taken over from a class before. -/
def SymbolTable.foldIn (t : SymbolTable) (seen : List String) :
    List ClassRecord → Except SymbolError (List OwnedMember)
  | [] => .ok []
  | c :: rest => do
    let members ← t.membersOf c
    let taken := members.filter fun m => m.isInheritable && !seen.contains m.name
    let others ← t.foldIn (seen ++ taken.map MemberRecord.name) rest
    pure (taken.map (fun m => (c, m)) ++ others)

/-- The members of a class in order, then, where the configuration asks for it, the ones it takes
over. -/
def Context.collectMembers (ctx : Context) (c : ClassRecord) :
    Except SymbolError (List OwnedMember) := do
  let own ← ctx.table.membersOf c
  let inherited ←
    if ctx.config.load.inheritedMembers then
      ctx.table.foldIn (own.map MemberRecord.name) (ctx.unloadedAncestors c)
    else .ok []
  pure (own.map (fun m => (c, m)) ++ inherited)

end LoadBridge
