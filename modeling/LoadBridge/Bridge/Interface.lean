import LoadBridge.Bridge.Plan
import LoadBridge.Bridge.Spelling
import LoadBridge.Ownership.Protocol

/-!
# Bridge — Interfaces

The Interface of a loaded class is the abstract class that the host compiles against: a pure
virtual function for each method arity, an accessor for each field, hooks to copy and assign, and
the members of the ownership protocol.  The library's own class inherits it.
-/

namespace LoadBridge

/-! ### Class heads -/

/-- A template argument that is written as a whole number of sixty-four bits. -/
def isInteger (arg : String) : Bool :=
  let (negative, digits) := match arg.toList with
    | '-' :: ds => (true, ds)
    | '+' :: ds => (false, ds)
    | ds => (false, ds)
  let size : Int := digits.foldl (fun n d => n * 10 + (d.toNat - 48)) (0 : Nat)
  let n := if negative then -size else size
  !digits.isEmpty && digits.all Char.isDigit && Int64.minValue.toInt ≤ n && n ≤ Int64.maxValue.toInt

/-- The parameters of the template that a specialization with these arguments belongs to:
`template <typename T0, int T1>`. -/
def primaryTemplateParams (args : List String) : String :=
  let params := args.zipIdx.map fun (arg, i) =>
    (if isInteger arg || arg == "true" || arg == "false" then "int T" else "typename T") ++ i.repr
  "template <" ++ ", ".intercalate params ++ ">"

/-- Declares the generated class `name`, a companion of `c`. -/
def forwardDeclaration (c : ClassRecord) (name : String) : Code :=
  if c.isSpecialization then
    .line (primaryTemplateParams c.templateArgs ++ " class " ++ (Name.splitTemplate name).1 ++ ";")
      ++ .line ("template <> class " ++ name ++ ";")
  else .line ("class " ++ name ++ ";")

/-- The head of the generated class `name`, a companion of `c`. -/
def classHead (c : ClassRecord) (name : String) (bases : List String) : String :=
  (if c.isSpecialization then "template <>\n" else "") ++ "class " ++ name ++ " : " ++
    ", ".intercalate (bases.map ("public virtual " ++ ·))

/-! ### Signatures -/

namespace Context

/-- A callable's entry in the Interface: `void name(params) const`. -/
def interfaceSignature (ctx : Context) (side : Side) (p : PlannedCallable) : String :=
  let returns := match p.returns with
    | some type => ctx.interfaceReturnType side type
    | none => "void"
  returns ++ " " ++ p.interfaceName ++ "(" ++
    parameterList p.args (ctx.interfaceArgType side) ++ ")" ++ p.constness

/-- A field's accessor, which gives a reference: to the shadow of a pointer to a loaded class, to
the field itself otherwise. -/
def accessorSignature (ctx : Context) (side : Side) (f : PlannedField) : String :=
  let call := f.accessor ++ "()"
  match f.loaded with
  | none => f.type.reference.declare (ctx.libraryBase f.type) call
  | some names =>
    if f.shadow.isSome then ctx.delegateName names side ++ "*& " ++ call
    else
      let object := { f.type.reference with pointerDepth := 0 }
      object.declare (ctx.interfaceName names side) call

def pointerCopyName (ctx : Context) : String := ctx.affixes.suffixed "pointer_copy"

def pointerAssignName (ctx : Context) : String := ctx.affixes.suffixed "pointer_assign"

def pointerCopySignature (ctx : Context) (interface : String) : String :=
  interface ++ "* " ++ ctx.pointerCopyName ++ "()"

def pointerAssignSignature (ctx : Context) (interface : String) : String :=
  "void " ++ ctx.pointerAssignName ++ "(" ++ interface ++ "* in)"

/-- The names that the protocol of a planned class is written with. -/
def protocolOf (ctx : Context) (p : ClassPlan) : InterfaceProtocol where
  interface := p.names.interface.name
  delegate := p.names.delegate.name
  ancestors := p.loadedAncestors.map fun names => ctx.interfaceName names .generated
  shadows := p.shadows

end Context

/-! ### Declarations -/

/-- The Interface of a class. -/
structure InterfaceDecl where
  /-- The class it stands for. -/
  target : String
  name : QualifiedName
  /-- The pure virtual functions in order: methods, accessors, hooks. -/
  virtuals : List String
  pointerCopy : Bool
  pointerAssign : Bool
  /-- The declaration for the library. -/
  code : Code
  /-- The declaration for the host. -/
  hostCode : Code
  deriving DecidableEq, Inhabited

/-- All members of an Interface: the pure virtual functions and those of the protocol. -/
def InterfaceDecl.memberNames (d : InterfaceDecl) : List String :=
  d.virtuals ++ InterfaceProtocol.memberNames

/-- Why a class has not both hooks, if it has not. -/
def ClassFlags.lackingHooks (f : ClassFlags) : Option String :=
  if f.hasPureVirtual then some "Contains pure virtual member functions."
  else
    match f.copyable, f.assignable with
    | false, false => some "No public copy constructor or assignment operator."
    | false, true => some "No public copy constructor."
    | true, false => some "No public assignment operator."
    | true, true => none

namespace ClassPlan

/-- The notice of a class that has not both hooks. -/
def hookNotices (p : ClassPlan) : List Notice :=
  p.flags.lackingHooks.toList.map fun reason =>
    ⟨.noPointerCopyAndAssignment, p.qualifiedName, reason⟩

end ClassPlan

namespace Context

/-- A pure virtual function. -/
def pureVirtual (signature : String) : Code := .line ("virtual " ++ signature ++ " =0;")

/-- The shadow members. -/
def shadowMembers (ctx : Context) (p : ClassPlan) : Code :=
  .concat (p.fields.map fun f =>
    match f.loaded, f.shadow with
    | some names, some shadow =>
      .line (ctx.delegateName names .generated ++ "* " ++ shadow ++ ";")
    | _, _ => .empty)

/-- The pure virtual functions. -/
def pureVirtuals (ctx : Context) (p : ClassPlan) : Code :=
  let interface := p.names.interface.name
  .concat (p.methods.map fun m => pureVirtual (ctx.interfaceSignature .generated m)) ++
  .onlyIf (!p.fields.isEmpty) .blank ++
  .concat (p.fields.map fun f => pureVirtual (ctx.accessorSignature .generated f)) ++
  .onlyIf (p.flags.copyable || p.flags.assignable) .blank ++
  .onlyIf p.flags.copyable (pureVirtual (ctx.pointerCopySignature interface)) ++
  .onlyIf p.flags.assignable (pureVirtual (ctx.pointerAssignSignature interface))

/-- The bases of an Interface: those of the loaded parents, or the root. -/
def interfaceBases (ctx : Context) (p : ClassPlan) : List String :=
  let bases := p.loadedParents.map fun names => ctx.interfaceName names .generated
  if bases.isEmpty then [ctx.affixes.interfaceRoot] else bases

/-- The class of an Interface. -/
def interfaceClass (ctx : Context) (p : ClassPlan) (flavor : Flavor) : Code :=
  .block (classHead p.record p.names.interface.name (ctx.interfaceBases p))
    (.onlyIf (!p.shadows.isEmpty)
        (.line "protected:" ++ .indented (ctx.shadowMembers p) ++ .blank) ++
      .line "public:" ++
      .indented (ctx.pureVirtuals p) ++
      .blank ++
      (ctx.protocolOf p).members flavor) ";"

/-- The declaration of an Interface.  The library's has the hooks before it. -/
def interfaceCode (ctx : Context) (p : ClassPlan) (flavor : Flavor) : Code :=
  let interface := p.names.interface.name
  let delegate := p.names.delegate.name
  forwardDeclaration p.record interface ++
  forwardDeclaration p.record delegate ++
  .onlyIf (flavor == .library) (hookDeclarations interface delegate) ++
  .blank ++
  ctx.interfaceClass p flavor

/-- The Interface of a planned class. -/
def interfaceOf (ctx : Context) (p : ClassPlan) : InterfaceDecl where
  target := p.qualifiedName
  name := p.names.interface
  virtuals :=
    p.methods.map PlannedCallable.interfaceName ++ p.fields.map PlannedField.accessor ++
      (if p.flags.copyable then [ctx.pointerCopyName] else []) ++
      (if p.flags.assignable then [ctx.pointerAssignName] else [])
  pointerCopy := p.flags.copyable
  pointerAssign := p.flags.assignable
  code := ctx.interfaceCode p .library
  hostCode := ctx.interfaceCode p .host

end Context

end LoadBridge
