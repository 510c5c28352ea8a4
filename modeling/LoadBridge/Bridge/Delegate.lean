import LoadBridge.Bridge.Interface

/-!
# Bridge — Delegates

The Delegate is the concrete class that host code uses.  It forwards every call to its Interface
object and binds public fields as references.  Its constructors call factory slots, which the host
binds after loading, so that the Delegate needs nothing of the library to be linked.
-/

namespace LoadBridge

/-- The slot of the factory of the constructor at `index`. -/
def factorySlotName (index : Nat) : String := "__factory" ++ index.repr

/-- The Delegate of a class. -/
structure DelegateDecl where
  /-- The class it stands for. -/
  target : String
  name : QualifiedName
  /-- A slot for each constructor. -/
  factorySlots : List String
  /-- The forwarding functions, one for each method arity. -/
  methods : List String
  /-- The reference members, one for each field. -/
  fields : List String
  /-- The class. -/
  declaration : Code
  /-- The hooks and member definitions, which follow the classes. -/
  definitions : Code
  deriving DecidableEq, Inhabited

/-- All the code of a Delegate. -/
def DelegateDecl.code (d : DelegateDecl) : Code := d.declaration ++ .blank ++ d.definitions

/-- The constructors of a plan with their slots. -/
def ClassPlan.slots (p : ClassPlan) : List (String × PlannedCallable) :=
  p.constructors.zipIdx.map fun (c, i) => (factorySlotName i, c)

/-- The Delegate's class name without its template bracket. -/
def ClassPlan.delegateConstructor (p : ClassPlan) : String :=
  (Name.splitTemplate p.names.delegate.name).1

namespace Context

/-! ### Members -/

/-- The reference member of a field. -/
def fieldMember (ctx : Context) (f : PlannedField) : String :=
  let name := f.member.name
  match f.loaded with
  | none => f.type.reference.declare (ctx.libraryBase f.type) name
  | some names =>
    if f.shadow.isSome then ctx.delegateName names .generated ++ "*& " ++ name
    else
      let object := { f.type.reference with pointerDepth := 0 }
      object.declare (ctx.delegateName names .generated) name

/-- What binds the reference member of a field to the library object. -/
def fieldInitializer (ctx : Context) (f : PlannedField) : String :=
  let access := "get_BEptr()->" ++ f.accessor ++ "()"
  let bound :=
    if f.loaded.isSome && f.shadow.isNone then
      ctx.toDelegateReturn { f.type.reference with pointerDepth := 0 } access
    else access
  f.member.name ++ "(" ++ bound ++ ")"

/-- The parameters of a callable in a Delegate. -/
def delegateParams (ctx : Context) (p : PlannedCallable) : String :=
  parameterList p.args ctx.delegateType

/-- The return type of a callable in a Delegate. -/
def delegateReturns (ctx : Context) (p : PlannedCallable) : String :=
  match p.returns with
  | some type => ctx.delegateReturnType type
  | none => "void"

/-- The arguments with which a Delegate calls its Interface. -/
def interfaceCallArgs (ctx : Context) (args : List Argument) : String :=
  callArguments args ctx.toInterfaceArg

/-- The call that a forwarding function makes. -/
def interfaceCall (ctx : Context) (p : PlannedCallable) : String :=
  "get_BEptr()->" ++ p.interfaceName ++ "(" ++ ctx.interfaceCallArgs p.args ++ ")"

/-- `call` as the only statement of a function that returns `type`, converted by `convert`. -/
def returning (type : Option TypeRef) (convert : TypeRef → String → String) (call : String) :
    String :=
  match type with
  | some t => if t.isVoid then call ++ ";" else "return " ++ convert t call ++ ";"
  | none => call ++ ";"

/-! ### The class -/

/-- A section `public:` and a blank line after it, for members that there are. -/
def publicSection (members : List String) : Code :=
  .onlyIf (!members.isEmpty) (.line "public:" ++ .indented (.lines members) ++ .blank)

/-- A factory slot: a function pointer that the host binds. -/
def slotMember (ctx : Context) (p : ClassPlan) (slot : String) (c : PlannedCallable) : String :=
  "inline static " ++ p.names.interface.name ++ "* (*" ++ slot ++ ")(" ++
    ", ".intercalate (c.args.map fun a => ctx.interfaceArgType .generated a.type) ++ ") = 0;"

/-- The declaration of a forwarding function. -/
def methodMember (ctx : Context) (m : PlannedCallable) : String :=
  ctx.delegateReturns m ++ " " ++ m.writtenName ++ "(" ++ ctx.delegateParams m ++ ")" ++
    m.constness ++ ";"

/-- Constructors, assignment, destructor and the way to the Interface object. -/
def lifeMembers (ctx : Context) (p : ClassPlan) (copyable assignable : Bool) : Code :=
  let ctor := p.delegateConstructor
  let delegate := p.names.delegate.name
  let interface := p.names.interface.name
  let deleted (kept : Bool) := if kept then ";" else " = delete;"
  .lines (p.constructors.map fun c => ctor ++ "(" ++ ctx.delegateParams c ++ ");") ++
  .line (ctor ++ "(" ++ interface ++ "* in, bool owns_target = false);") ++
  .line (ctor ++ "(const " ++ delegate ++ "& in)" ++ deleted copyable) ++
  .line (delegate ++ "& operator=(const " ++ delegate ++ "& in)" ++ deleted assignable) ++
  .line ("~" ++ ctor ++ "();") ++
  .blank ++
  .line (interface ++ "* get_BEptr() const;")

/-- The class of a Delegate. -/
def delegateDeclaration (ctx : Context) (p : ClassPlan) (copyable assignable : Bool) : Code :=
  let bases := ctx.affixes.delegateRoot ::
    p.loadedParents.map fun names => ctx.delegateName names .generated
  .block (classHead p.record p.names.delegate.name bases)
    (publicSection (p.slots.map fun (slot, c) => ctx.slotMember p slot c) ++
      publicSection (p.fields.map fun f => ctx.fieldMember f ++ ";") ++
      publicSection (p.methods.map ctx.methodMember) ++
      .line "public:" ++
      .indented (ctx.lifeMembers p copyable assignable)) ";"

/-! ### Definitions -/

/-- The definition of a forwarding function. -/
def methodDefinition (ctx : Context) (p : ClassPlan) (m : PlannedCallable) : Code :=
  .function
    ("inline " ++ ctx.delegateReturns m ++ " " ++ p.names.delegate.name ++ "::" ++
      m.writtenName ++ "(" ++ ctx.delegateParams m ++ ")" ++ m.constness)
    [returning m.returns ctx.toDelegateReturn (ctx.interfaceCall m)] ++
  .blank

/-- The definition of a constructor, which takes what its slot gives and owns it. -/
def constructorDefinition (ctx : Context) (p : ClassPlan) (slot : String) (c : PlannedCallable) :
    Code :=
  let ctor := p.delegateConstructor
  .line ("inline " ++ p.names.delegate.name ++ "::" ++ ctor ++ "(" ++ ctx.delegateParams c ++
    ") : " ++ ctor ++ "(" ++ slot ++ "(" ++ ctx.interfaceCallArgs c.args ++ "), true) \x7b\x7d") ++
  .blank

/-- The definition of the constructor that takes an Interface object. -/
def adoptingConstructor (ctx : Context) (p : ClassPlan) : Code :=
  let init := (ctx.affixes.delegateRoot ++ "(in, owns_target)") ::
    p.loadedAncestors.map (fun names => ctx.delegateName names .generated ++ "(in, owns_target)") ++
    p.fields.map ctx.fieldInitializer
  .function
    ("inline " ++ p.names.delegate.name ++ "::" ++ p.delegateConstructor ++ "(" ++
      p.names.interface.name ++ "* in, bool owns_target) : " ++ ", ".intercalate init)
    delegateLinkBody ++
  .blank

/-- The definition of the copy constructor. -/
def copyDefinition (ctx : Context) (p : ClassPlan) : Code :=
  let ctor := p.delegateConstructor
  let delegate := p.names.delegate.name
  .line ("inline " ++ delegate ++ "::" ++ ctor ++ "(const " ++ delegate ++ "& in) : " ++ ctor ++
    "(in.get_BEptr()->" ++ ctx.pointerCopyName ++ "(), true) \x7b\x7d") ++
  .blank

/-- The definition of the assignment. -/
def assignDefinition (ctx : Context) (p : ClassPlan) : Code :=
  let delegate := p.names.delegate.name
  .block ("inline " ++ delegate ++ "& " ++ delegate ++ "::operator=(const " ++ delegate ++ "& in)")
    (.block "if (this != &in)"
      (.line ("get_BEptr()->" ++ ctx.pointerAssignName ++ "(in.get_BEptr());")) "" ++
      .line "return *this;") "" ++
  .blank

/-- The hooks and member definitions of a Delegate. -/
def delegateDefinitions (ctx : Context) (p : ClassPlan) (copyable assignable : Bool) : Code :=
  let delegate := p.names.delegate.name
  let interface := p.names.interface.name
  hookDefinitions interface delegate ++
  .blank ++
  .onlyIf (!p.loadedAncestors.isEmpty) ((ctx.protocolOf p).definitions ++ .blank) ++
  .concat (p.methods.map (ctx.methodDefinition p)) ++
  .concat (p.slots.map fun (slot, c) => ctx.constructorDefinition p slot c) ++
  ctx.adoptingConstructor p ++
  .onlyIf copyable (ctx.copyDefinition p) ++
  .onlyIf assignable (ctx.assignDefinition p) ++
  delegateDestructor delegate ++
  .blank ++
  .function ("inline " ++ interface ++ "* " ++ delegate ++ "::get_BEptr() const")
    ["return dynamic_cast<" ++ interface ++ "*>(BEptr);"]

/-- The Delegate of a planned class.  It can be copied and assigned to if its Interface has the
hooks. -/
def delegateOf (ctx : Context) (p : ClassPlan) (copyable assignable : Bool) : DelegateDecl where
  target := p.qualifiedName
  name := p.names.delegate
  factorySlots := p.slots.map (·.1)
  methods := p.methods.map PlannedCallable.writtenName
  fields := p.fields.map fun f => f.member.name
  declaration := ctx.delegateDeclaration p copyable assignable
  definitions := ctx.delegateDefinitions p copyable assignable

end Context

end LoadBridge
