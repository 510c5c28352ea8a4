import LoadBridge.Proofs.Bridge.Delegate

/-!
# Bridge — Conversions

What crosses the boundary is an object of one of three classes or a pointer to one: the class of the
library, its Interface, or its Delegate.  A declaration over one of them is a `Form`, an expression
that has been evaluated is a `Value`, and the expressions that generated code converts values with
are an `Expression`.  Each has a text.  `Expression.value?` follows the rules of C++: it gives the
type and the value category of an expression, and nothing where the expression is ill-formed;
`Value.initializes` tells whether a value can be handed to what is declared.  The member functions
that are called are declared in generated code (`memberFunctions_declared`).
-/

namespace LoadBridge

/-- The class of the library, and those that are generated for it. -/
inductive Companion where
  | target
  | interface
  | delegate
  deriving DecidableEq

/-- Whether `a` is `b` or has it as a base.  The class of the library inherits its Interface. -/
def Companion.isA (a b : Companion) : Bool := a == b || (a == .target && b == .interface)

/-- Whether nothing is lost from the first qualifiers to the second. -/
def Qualifiers.within (a b : Qualifiers) : Bool :=
  (!a.isConst || b.isConst) && (!a.isVolatile || b.isVolatile)

/-- What a declaration puts around a class. -/
structure Shape where
  /-- The qualifiers of the object. -/
  cv : Qualifiers := {}
  isPointer : Bool := false
  isReference : Bool := false
  deriving DecidableEq

/-- A declaration over one of the three classes. -/
structure Form where
  base : Companion
  shape : Shape := {}
  deriving DecidableEq

/-- An object of a class or a pointer to one.  An lvalue has a place of its own. -/
structure Value where
  base : Companion
  /-- The qualifiers of the object. -/
  cv : Qualifiers := {}
  isPointer : Bool := false
  isLvalue : Bool := false
  deriving DecidableEq

namespace Form

/-- An object of the class. -/
def object (base : Companion) (cv : Qualifiers := {}) : Form := ⟨base, { cv }⟩

/-- A pointer to an object of the class. -/
def pointer (base : Companion) (cv : Qualifiers := {}) : Form := ⟨base, { cv, isPointer := true }⟩

/-- A reference to an object of the class. -/
def reference (base : Companion) (cv : Qualifiers := {}) : Form :=
  ⟨base, { cv, isReference := true }⟩

/-- The declared type, where the classes go by these names. -/
def text (f : Form) (spell : Companion → String) : String :=
  f.shape.cv.text ++ spell f.base ++ (if f.shape.isPointer then "*" else "") ++
    if f.shape.isReference then "&" else ""

theorem text_pointer (base : Companion) (spell : Companion → String) :
    (pointer base).text spell = spell base ++ "*" := by
  simp [text, pointer, Qualifiers.text]

theorem text_reference (base : Companion) (spell : Companion → String) :
    (reference base).text spell = spell base ++ "&" := by
  simp [text, reference, Qualifiers.text]

/-- A parameter that is declared so, by its name. -/
def named (f : Form) : Value := ⟨f.base, f.shape.cv, f.shape.isPointer, true⟩

/-- The call of a function that returns what is declared so. -/
def called (f : Form) : Value := ⟨f.base, f.shape.cv, f.shape.isPointer, f.shape.isReference⟩

end Form

/-- **Whether a value can be handed to what is declared.**  A reference to a pointer takes a pointer
that has a place, of the very same type.  A reference to an object takes an object that has a place,
and if it is const one that has none, and a pointer takes a pointer: to the class or to an heir of
it, with no qualifier lost.  An object is made from an object of its class, by copying it if it has
a place, and none that is volatile is copied. -/
def Value.initializes (v : Value) (f : Form) : Bool :=
  v.isPointer == f.shape.isPointer &&
    match f.shape.isReference, f.shape.isPointer with
    | true, true => v.isLvalue && v.base == f.base && v.cv == f.shape.cv
    | true, false =>
      v.base.isA f.base && v.cv.within f.shape.cv &&
        (v.isLvalue || f.shape.cv == { isConst := true })
    | false, true => v.base.isA f.base && v.cv.within f.shape.cv
    | false, false => v.base == f.base && !(v.isLvalue && v.cv.isVolatile)

/-! ### Member functions -/

/-- A member function without parameters of one of the classes. -/
structure MemberFunction where
  name : String
  owner : Companion
  isConst : Bool
  returns : Form

namespace MemberFunction

/-- The Interface object behind a Delegate. -/
def entry : MemberFunction := ⟨"get_BEptr", .delegate, true, .pointer .interface⟩

/-- The companion of an Interface object, by pointer. -/
def companionPointer : MemberFunction := ⟨"get_init_wptr", .interface, false, .pointer .delegate⟩

/-- The companion of an Interface object, by reference. -/
def companionReference : MemberFunction :=
  ⟨"get_init_wref", .interface, false, .reference .delegate⟩

/-- The declaration. -/
def text (f : MemberFunction) (spell : Companion → String) : String :=
  f.returns.text spell ++ " " ++ f.name ++ "()" ++ if f.isConst then " const" else ""

/-- Whether it can be called on the object, or on the object behind the pointer: only a const
function is called on what is const, and none on what is volatile. -/
def callableOn (f : MemberFunction) (v : Value) : Bool :=
  v.base == f.owner && v.cv.within { isConst := f.isConst }

end MemberFunction

/-- The short names of a planned class and of its companions. -/
def ClassPlan.companionNames (p : ClassPlan) : Companion → String
  | .target => p.record.name
  | .interface => p.names.interface.name
  | .delegate => p.names.delegate.name

open Code (Item) in
/-- **The member functions that are called are declared**: one by the Delegate, beside the
constructor that takes a pointer to its Interface, and two by the Interface. -/
theorem memberFunctions_declared (ctx : Context) (p : ClassPlan) (copyable assignable : Bool) :
    Item.line (MemberFunction.entry.text p.companionNames ++ ";") ∈
      (ctx.lifeMembers p copyable assignable).items ∧
    Item.line (p.delegateConstructor ++ "(" ++ (Form.pointer .interface).text p.companionNames ++
      " in, bool owns_target = false);") ∈ (ctx.lifeMembers p copyable assignable).items ∧
    (ctx.protocolOf p).materializers.items =
      [.function (MemberFunction.companionPointer.text p.companionNames)
        ["init_wrapper();", "return wptr;"],
      .function (MemberFunction.companionReference.text p.companionNames)
        ["init_wrapper();", "return *wptr;"]] := by
  have hentry : MemberFunction.entry.text p.companionNames ++ ";" =
      p.names.interface.name ++ "* get_BEptr() const;" := by
    simp only [MemberFunction.text, MemberFunction.entry, Form.text_pointer, String.append_assoc]
    rfl
  rw [ctx.items_lifeMembers p]
  refine ⟨?_, ?_, ?_⟩
  · rw [hentry]
    simp
  · simp [Form.text_pointer, ClassPlan.companionNames, String.append_assoc]
  · simp [InterfaceProtocol.materializers, Context.protocolOf, MemberFunction.text,
      Form.text_pointer, Form.text_reference, ClassPlan.companionNames,
      MemberFunction.companionPointer, MemberFunction.companionReference, String.append_assoc]

/-! ### Expressions -/

/-- An expression over one operand: the name of a parameter, or a call. -/
inductive Expression where
  | operand
  | deref (e : Expression)
  /-- `e->f()` or `e.f()`. -/
  | member (e : Expression) (isArrow : Bool) (f : MemberFunction)
  /-- `(x == 0 ? 0 : e)` for the operand `x`. -/
  | unlessNull (e : Expression)
  | constCast (form : Form) (e : Expression)
  | dynamicCast (form : Form) (e : Expression)
  /-- A Delegate that is made around an Interface object, and owns it. -/
  | adopted (e : Expression)
  /-- An object of the library that is made to be handed out. -/
  | allocated (e : Expression)

namespace Expression

/-- The text of an expression, where the classes go by these names and `x` is the operand. -/
def text (spell : Companion → String) (x : String) : Expression → String
  | operand => x
  | deref e => "*" ++ e.text spell x
  | member e isArrow f => e.text spell x ++ (if isArrow then "->" else ".") ++ f.name ++ "()"
  | unlessNull e => "(" ++ x ++ " == 0 ? 0 : " ++ e.text spell x ++ ")"
  | constCast form e => "const_cast<" ++ form.text spell ++ ">(" ++ e.text spell x ++ ")"
  | dynamicCast form e => "dynamic_cast<" ++ form.text spell ++ ">(" ++ e.text spell x ++ ")"
  | adopted e => spell .delegate ++ "(" ++ e.text spell x ++ ", true)"
  | allocated e => "new " ++ spell .target ++ "(" ++ e.text spell x ++ ")"

/-- What is behind a pointer, which has a place. -/
def pointee? (v : Value) : Option Value :=
  if v.isPointer then some { v with isPointer := false, isLvalue := true } else none

/-- A call of a member function, through a pointer if `isArrow` and on an object if not. -/
def called? (isArrow : Bool) (f : MemberFunction) (v : Value) : Option Value :=
  if v.isPointer == isArrow && f.callableOn v then some f.returns.called else none

/-- The pointer, or the null pointer where the operand is one.  Neither has a place. -/
def chosen? (x v : Value) : Option Value :=
  if x.isPointer && v.isPointer then some { v with isLvalue := false } else none

/-- Qualifiers taken away or added, of a pointer or of an object that has a place. -/
def constCast? (form : Form) (v : Value) : Option Value :=
  if v.base == form.base && v.isPointer == form.shape.isPointer &&
      (if form.shape.isReference then v.isLvalue else v.isPointer) then some form.called
  else none

/-- A cast within a hierarchy, of a pointer or of an object that has a place, not of a reference to
a pointer.  No qualifier is lost. -/
def dynamicCast? (form : Form) (v : Value) : Option Value :=
  if (v.base.isA form.base || form.base.isA v.base) && v.isPointer == form.shape.isPointer &&
      v.cv.within form.shape.cv && (form.shape.isPointer != form.shape.isReference) &&
      (v.isPointer || v.isLvalue) then some form.called
  else none

/-- What is made from a value that can be handed to `parameter`. -/
def made? (parameter result : Form) (v : Value) : Option Value :=
  if v.initializes parameter then some result.called else none

/-- **The value of an expression** whose operand is `x`, if it is well-formed. -/
def value? (x : Value) : Expression → Option Value
  | operand => some x
  | deref e => (e.value? x).bind pointee?
  | member e isArrow f => (e.value? x).bind (called? isArrow f)
  | unlessNull e => (e.value? x).bind (chosen? x)
  | constCast form e => (e.value? x).bind (constCast? form)
  | dynamicCast form e => (e.value? x).bind (dynamicCast? form)
  | adopted e => (e.value? x).bind (made? (.pointer .interface) (.object .delegate))
  | allocated e => (e.value? x).bind (made? (.object .target) (.pointer .target))

/-- Whether the expression is well-formed for the operand `x`, and can be handed to `f`. -/
def fits (e : Expression) (x : Value) (f : Form) : Bool := (e.value? x).any (·.initializes f)

end Expression

end LoadBridge
