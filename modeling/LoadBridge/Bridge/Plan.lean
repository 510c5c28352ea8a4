import LoadBridge.Bridge.Hierarchy
import LoadBridge.Bridge.Verdict
import LoadBridge.Symbol.Arity

/-!
# Bridge — Plans

A plan settles once for a class which members are offered, in which arities and under which names,
and what is left out.  Everything generated for the class is made from its plan.
-/

namespace LoadBridge

/-- One arity of a constructor, method or operator that is offered. -/
structure PlannedCallable where
  member : MemberRecord
  /-- The class that declares the member. -/
  owner : ClassRecord
  /-- Taken over from a parent that is not loaded. -/
  inherited : Bool
  args : List Argument
  /-- How many defaulted arguments are left out. -/
  removed : Nat
  /-- The full signature has a loaded class in it. -/
  usesLoaded : Bool
  /-- The name in the Interface. -/
  interfaceName : String
  deriving DecidableEq, Inhabited

namespace PlannedCallable

/-- The return type of a method or operator. -/
def returns (p : PlannedCallable) : Option TypeRef :=
  match p.member.kind with
  | .method | .operator => p.member.type
  | _ => none

/-- The name as the library writes it. -/
def writtenName (p : PlannedCallable) : String := p.member.writtenName

/-- Whether the member of the library does not implement the Interface by itself. -/
def needsForwarder (p : PlannedCallable) : Bool := p.usesLoaded || p.removed > 0 || p.inherited

def isConst (p : PlannedCallable) : Bool := p.member.isConst

/-- What follows the parameters. -/
def constness (p : PlannedCallable) : String := if p.isConst then " const" else ""

end PlannedCallable

/-- A field that is offered. -/
structure PlannedField where
  member : MemberRecord
  /-- The class that declares the field. -/
  owner : ClassRecord
  type : TypeRef
  /-- The names of the field's class, if it is loaded. -/
  loaded : Option GeneratedNames
  /-- The name of the accessor in the Interface. -/
  accessor : String
  /-- The member that keeps the companion of a pointer to a loaded class. -/
  shadow : Option String
  deriving DecidableEq, Inhabited

/-- What becomes of a member, or of one arity of it. -/
inductive Planned where
  | constructor (callable : PlannedCallable)
  | method (callable : PlannedCallable)
  | field (field : PlannedField)
  | ignored (notice : Notice)
  deriving DecidableEq, Inhabited

namespace Planned

def constructor? : Planned → Option PlannedCallable
  | .constructor c => some c
  | _ => none

def method? : Planned → Option PlannedCallable
  | .method m => some m
  | _ => none

def field? : Planned → Option PlannedField
  | .field f => some f
  | _ => none

def notice? : Planned → Option Notice
  | .ignored n => some n
  | _ => none

end Planned

/-- The plan of a loaded class. -/
structure ClassPlan where
  record : ClassRecord
  names : GeneratedNames
  flags : ClassFlags
  parents : List ParentInfo
  /-- The names of the loaded ancestors, furthest first. -/
  loadedAncestors : List GeneratedNames
  /-- The class has a public constructor that is no copy constructor. -/
  hasPublicConstructor : Bool
  /-- What becomes of the members, in order. -/
  items : List Planned
  deriving Inhabited

namespace ClassPlan

def qualifiedName (p : ClassPlan) : String := p.record.qualifiedName

/-- The constructors, in the order of their factories.  A class with pure virtual members has
none. -/
def constructors (p : ClassPlan) : List PlannedCallable := p.items.filterMap Planned.constructor?

def methods (p : ClassPlan) : List PlannedCallable := p.items.filterMap Planned.method?

def fields (p : ClassPlan) : List PlannedField := p.items.filterMap Planned.field?

/-- The names of the loaded direct parents. -/
def loadedParents (p : ClassPlan) : List GeneratedNames := p.parents.filterMap ParentInfo.loaded?

/-- The shadow members. -/
def shadows (p : ClassPlan) : List String := p.fields.filterMap PlannedField.shadow

/-- What is left out: parents, then members. -/
def notices (p : ClassPlan) : List Notice :=
  p.parents.filterMap (ParentInfo.notice? p.qualifiedName) ++ p.items.filterMap Planned.notice?

end ClassPlan

/-- A constructor that a factory may call: a public one of the class itself that does not copy. -/
def isFactoryConstructor (c : ClassRecord) (item : OwnedMember) : Bool :=
  item.2.kind == .constructor && item.1.id == c.id && item.2.isPublic &&
    !isCopyConstructor c item.2

/-- Lets errors of the symbol table end a run. -/
def trust (result : Except SymbolError α) : Except BridgeError α :=
  match result with
  | .ok a => .ok a
  | .error e => .error (.symbol e)

namespace Context

/-- The name of a member in the Interface, with or without the suffix of generated members. -/
def interfaceMemberName (ctx : Context) (m : MemberRecord) (suffixed : Bool) : String :=
  if suffixed then
    match m.kind with
    | .operator =>
      ctx.affixes.suffixed ("operator_" ++ (Operator.identifier? m.name).getD "unnamed")
    | _ => ctx.affixes.suffixed m.name
  else m.writtenName

/-- Plans every arity of a callable: `plan` makes the entry of one that is accepted. -/
def planArities (ctx : Context) (owner : ClassRecord) (m : MemberRecord) (plan : Arity → Planned) :
    Except SymbolError (List Planned) :=
  (arities m.args).mapM fun arity => do
    match ← ctx.checkMemberFunction owner m arity.args with
    | .accepted => pure (plan arity)
    | .rejected reason =>
      pure (.ignored
        ⟨.memberFunctionIgnored, describeCall (memberPath owner m) arity.args, reason.text⟩)

/-- Plans a constructor. -/
def planConstructor (ctx : Context) (c : ClassRecord) (m : MemberRecord) :
    Except SymbolError (List Planned) :=
  ctx.planArities c m fun arity =>
    .constructor
      { member := m, owner := c, inherited := false, args := arity.args, removed := arity.removed
        usesLoaded := false, interfaceName := c.shortName }

/-- Plans a method or operator. -/
def planMethod (ctx : Context) (owner : ClassRecord) (m : MemberRecord) (inherited : Bool) :
    Except SymbolError (List Planned) := do
  let returns ← m.valueType
  let usesLoaded := ctx.usesLoaded (returns :: m.args.map Argument.type)
  ctx.planArities owner m fun arity =>
    .method
      { member := m, owner, inherited, args := arity.args, removed := arity.removed, usesLoaded
        interfaceName :=
          ctx.interfaceMemberName m (usesLoaded || arity.isTruncated || inherited) }

/-- Plans a field. -/
def planField (ctx : Context) (owner : ClassRecord) (m : MemberRecord) :
    Except SymbolError (List Planned) := do
  match ← ctx.checkMemberVariable owner m with
  | .rejected reason =>
    pure [.ignored ⟨.memberVariableIgnored, memberPath owner m, reason.text⟩]
  | .accepted =>
    let type ← m.valueType
    let loaded := ctx.loaded? type
    pure [.field
      { member := m, owner, type, loaded
        accessor := ctx.affixes.suffixed (m.name ++ "_ref")
        shadow :=
          if loaded.isSome && type.isPointer then
            some (ctx.affixes.suffixed (m.name ++ "_wrapper"))
          else none }]

/-- Plans one member of `c`, its own or taken over.  The assignment operator is left to the
generated one. -/
def planMember (ctx : Context) (c : ClassRecord) (flags : ClassFlags) (item : OwnedMember) :
    Except SymbolError (List Planned) :=
  let (owner, m) := item
  let inherited := owner.id != c.id
  let isOffered := m.isPublic && !m.isArtificial
  match m.kind with
  | .destructor => .ok []
  | .constructor =>
    if isFactoryConstructor c item && !flags.hasPureVirtual then ctx.planConstructor c m
    else .ok []
  | .method => if isOffered then ctx.planMethod owner m inherited else .ok []
  | .operator => if isOffered && m.name != "=" then ctx.planMethod owner m inherited else .ok []
  | .field => if isOffered then ctx.planField owner m else .ok []

/-- Plans a registered class. -/
def planClass (ctx : Context) (c : ClassRecord) : Except BridgeError ClassPlan :=
  match ctx.names.get? c.qualifiedName with
  | none => .error (.unregistered c.qualifiedName)
  | some names => trust do
    let flags ← ctx.table.flagsOf c
    let members ← ctx.collectMembers c
    let items ← members.mapM (ctx.planMember c flags)
    pure
      { record := c, names, flags
        parents := ctx.parentsOf c
        loadedAncestors := ctx.loadedAncestors c
        hasPublicConstructor := members.any (isFactoryConstructor c)
        items := items.flatten }

end Context

end LoadBridge
