import LoadBridge.Bridge.Interface

/-!
# Bridge — Augmentations

To implement its Interface the library's own class inherits it and defines every member that the
class does not have already.  The text goes into the library, so generated names start at
the global scope.
-/

namespace LoadBridge

/-- What is added to a class of the library. -/
structure Augmentation where
  target : String
  /-- The base to add to the class head. -/
  inheritance : String
  /-- Where the class is declared. -/
  location : Option SourceLocation
  /-- The members that are added, in order. -/
  members : List String
  /-- The definitions to add to the class body. -/
  body : Code
  deriving DecidableEq, Inhabited

namespace ClassPlan

/-- The notice of a class whose declaration cannot be found. -/
def locationNotices (p : ClassPlan) : List Notice :=
  if p.record.location.isNone then
    [⟨.noInsertionPoint, p.qualifiedName, "no source location for the class declaration"⟩]
  else []

/-- The methods that need a forwarding body. -/
def forwarded (p : ClassPlan) : List PlannedCallable := p.methods.filter (·.needsForwarder)

end ClassPlan

namespace Context

/-- The statement of a forwarding body, which calls the member itself. -/
def forwarderBody (ctx : Context) (m : PlannedCallable) : String :=
  let target :=
    if m.inherited then Name.absolute m.owner.qualifiedName ++ "::" ++ m.writtenName
    else m.writtenName
  let call := target ++ "(" ++ callArguments m.args ctx.toLibraryArg ++ ")"
  match m.returns with
  | some t => if t.isVoid then call ++ ";" else "return " ++ ctx.toInterfaceReturn t call ++ ";"
  | none => call ++ ";"

/-- The body of an accessor.  A shadow is filled at its first use. -/
def accessorBody (ctx : Context) (f : PlannedField) : List String :=
  let name := f.member.name
  match f.shadow with
  | none => ["return " ++ name ++ ";"]
  | some shadow =>
    let target :=
      if f.type.cv.isConst then "const_cast<" ++ ctx.libraryBase f.type ++ "*>(" ++ name ++ ")"
      else name
    ["if (" ++ name ++ " != 0 && " ++ shadow ++ " == 0) \x7b " ++ shadow ++ " = " ++ target ++
        "->get_init_wptr(); \x7d",
      "return " ++ shadow ++ ";"]

/-- The hooks that an Interface has, defined. -/
def hookBodies (ctx : Context) (p : ClassPlan) (copy assign : Bool) : Code :=
  let target := Name.absolute p.qualifiedName
  let interface := ctx.interfaceName p.names .library
  let delegate := ctx.delegateName p.names .library
  .onlyIf copy
    (.function (ctx.pointerCopySignature interface) ["return new " ++ target ++ "(*this);"] ++
      .blank) ++
  .onlyIf assign
    (.function (ctx.pointerAssignSignature interface)
      [delegate ++ "* wptr_temp = get_wptr();",
        "*this = *dynamic_cast<" ++ target ++ "*>(in);",
        "set_wptr(wptr_temp);"])

/-- The additions to a planned class, whose Interface has these hooks. -/
def augmentationOf (ctx : Context) (p : ClassPlan) (copy assign : Bool) : Augmentation where
  target := p.qualifiedName
  inheritance := "public virtual " ++ ctx.interfaceName p.names .library
  location := p.record.location
  members :=
    p.forwarded.map PlannedCallable.interfaceName ++ p.fields.map PlannedField.accessor ++
      (if copy then [ctx.pointerCopyName] else []) ++
      (if assign then [ctx.pointerAssignName] else [])
  body :=
    .line "public:" ++
    .indented (
      .concat (p.forwarded.map fun m =>
        .function (ctx.interfaceSignature .library m) [ctx.forwarderBody m] ++ .blank) ++
      .concat (p.fields.map fun f =>
        .function (ctx.accessorSignature .library f) (ctx.accessorBody f) ++ .blank) ++
      ctx.hookBodies p copy assign)

end Context

end LoadBridge
