import LoadBridge.Bridge.Context
import LoadBridge.Name.Operator

/-!
# Bridge — Verdicts

Which classes, functions and members may cross the boundary.  A rejection is an answer, not an
error: its reason goes into a notice.  Only a symbol table that cannot be trusted is an error.
-/

namespace LoadBridge

/-- Why something cannot be wrapped. -/
inductive Rejection where
  | excluded
  | notFound
  | incomplete
  | template
  | pointerToPointer (type : TypeRef)
  | notAccepted (type : TypeRef)
  | arrayOfLoaded (type : TypeRef)
  | unsupportedOperator (symbol : String)
  | staticMember
  deriving DecidableEq, Inhabited

def Rejection.text : Rejection → String
  | .excluded => "explicitly excluded"
  | .notFound => "class/function not found"
  | .incomplete => "incomplete type"
  | .template => "template without concrete arguments"
  | .pointerToPointer type => "unsupported type: pointer-to-pointer '" ++ type.display ++ "'"
  | .notAccepted type => "unsupported type: non-accepted type '" ++ type.qualifiedName ++ "'"
  | .arrayOfLoaded type => "unsupported type: array of loaded type '" ++ type.display ++ "'"
  | .unsupportedOperator symbol => "unsupported operator: operator" ++ symbol
  | .staticMember => "static member"

/-- Whether something can be wrapped. -/
inductive Verdict where
  | accepted
  | rejected (reason : Rejection)
  deriving DecidableEq, Inhabited

def Verdict.isAccepted : Verdict → Bool
  | .accepted => true
  | .rejected _ => false

def Verdict.text : Verdict → String
  | .accepted => "accepted"
  | .rejected reason => reason.text

namespace Context

/-- The verdict on the class of this name. -/
def checkClass (ctx : Context) (qualified : String) : Verdict :=
  if ctx.isDitched qualified then .rejected .excluded
  else
    match ctx.table.classNamed? qualified with
    | none => .rejected .notFound
    | some c =>
      if c.isIncomplete then .rejected .incomplete
      else if c.isTemplate then .rejected .template
      else .accepted

/-- The verdict on one type of a signature or field. -/
def checkType (ctx : Context) (type : TypeRef) : Except SymbolError Verdict :=
  if type.pointerDepth > 1 then .ok (.rejected (.pointerToPointer type))
  else
    (ctx.classify type).map fun
      | .unresolved => .rejected .notFound
      | .unknown => .rejected (.notAccepted type)
      | .loaded => if type.isArray then .rejected (.arrayOfLoaded type) else .accepted
      | _ => .accepted

/-- The verdict on several types: the first that is not accepted decides. -/
def checkTypes (ctx : Context) : List TypeRef → Except SymbolError Verdict
  | [] => .ok .accepted
  | type :: rest => do
    match ← ctx.checkType type with
    | .accepted => ctx.checkTypes rest
    | .rejected reason => .ok (.rejected reason)

/-- The verdict on a return type, if there is one, and arguments. -/
def checkSignature (ctx : Context) (returns : Option TypeRef) (args : List Argument) :
    Except SymbolError Verdict :=
  ctx.checkTypes (returns.toList ++ args.map Argument.type)

end Context

/-- The name of a member on the ditch list. -/
def memberPath (c : ClassRecord) (m : MemberRecord) : String :=
  c.qualifiedName ++ "::" ++ m.writtenName

namespace MemberRecord

/-- The return type of a method or operator, which must have one. -/
def returned (m : MemberRecord) : Except SymbolError (Option TypeRef) :=
  match m.kind with
  | .method | .operator => m.valueType.map some
  | _ => .ok none

/-- Whether `m` is an operator that has no identifier. -/
def isUnnamedOperator (m : MemberRecord) : Bool :=
  m.kind == .operator && (Operator.identifier? m.name).isNone

end MemberRecord

namespace Context

/-- The verdict on a constructor, method or operator called with `args`. -/
def checkMemberFunction (ctx : Context) (c : ClassRecord) (m : MemberRecord)
    (args : List Argument) : Except SymbolError Verdict :=
  if ctx.isDitched (memberPath c m) then .ok (.rejected .excluded)
  else if m.isStatic && m.kind != .constructor then .ok (.rejected .staticMember)
  else if m.isUnnamedOperator then .ok (.rejected (.unsupportedOperator m.name))
  else do ctx.checkSignature (← m.returned) args

/-- The verdict on a field. -/
def checkMemberVariable (ctx : Context) (c : ClassRecord) (m : MemberRecord) :
    Except SymbolError Verdict :=
  if ctx.isDitched (memberPath c m) then .ok (.rejected .excluded)
  else if m.isStatic then .ok (.rejected .staticMember)
  else do ctx.checkType (← m.valueType)

/-- The verdict on a free function called with `args`. -/
def checkFunction (ctx : Context) (f : FunctionRecord) (args : List Argument) :
    Except SymbolError Verdict :=
  if ctx.isDitched f.qualifiedName then .ok (.rejected .excluded)
  else do ctx.checkSignature (some (← f.returnType)) args

end Context

/-! ### Copies -/

/-- The base of the only argument is the class `c`. -/
def takesOnly (c : ClassRecord) (m : MemberRecord) : Bool :=
  match m.args with
  | [a] => a.type.element == some c.id
  | _ => false

/-- A constructor whose only argument has the class itself as its base. -/
def isCopyConstructor (c : ClassRecord) (m : MemberRecord) : Bool :=
  m.kind == .constructor && takesOnly c m

/-- An `operator=` whose only argument has the class itself as its base, and which returns nothing
or the class. -/
def isAssignmentOperator (c : ClassRecord) (m : MemberRecord) : Bool :=
  m.kind == .operator && m.name == "=" && takesOnly c m &&
    match m.type with
    | some returns => returns.isVoid || returns.element == some c.id
    | none => false

/-- What decides whether a class can be copied. -/
structure ClassFlags where
  /-- The class declares a pure virtual member. -/
  hasPureVirtual : Bool := false
  hasCopyConstructor : Bool := false
  hasAssignmentOperator : Bool := false
  deriving DecidableEq, Inhabited

namespace ClassFlags

/-- Whether an object can be copied through its Interface. -/
def copyable (f : ClassFlags) : Bool := f.hasCopyConstructor && !f.hasPureVirtual

/-- Whether an object can be assigned to through its Interface. -/
def assignable (f : ClassFlags) : Bool := f.hasAssignmentOperator && !f.hasPureVirtual

end ClassFlags

/-- The flags of a class, all of whose members must be in the table. -/
def SymbolTable.flagsOf (t : SymbolTable) (c : ClassRecord) : Except SymbolError ClassFlags :=
  (t.membersOf c).map fun members =>
    { hasPureVirtual := members.any (·.isPureVirtual)
      hasCopyConstructor := members.any fun m => m.isPublic && isCopyConstructor c m
      hasAssignmentOperator := members.any fun m => m.isPublic && isAssignmentOperator c m }

end LoadBridge
