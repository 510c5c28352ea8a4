import LoadBridge.Bridge.Context

/-!
# Bridge — Spelling

How types and expressions are written on the two sides of the boundary.  A loaded class never
crosses as itself:

| in the library | in the Interface | in the Delegate |
|----------------|------------------|-----------------|
| `Bar` argument | `Abstract_Bar&`  | `Wrapper_Bar`   |
| `Bar&`         | `Abstract_Bar&`  | `Wrapper_Bar&`  |
| `Bar*`         | `Abstract_Bar*`  | `Wrapper_Bar*`  |
| `Bar` returned | `Abstract_Bar*`  | `Wrapper_Bar`   |

A type that is not loaded is spelled alike everywhere.
-/

namespace LoadBridge

/-- The name of the argument at `index`: its own, or one made of its position. -/
def argName (index : Nat) (a : Argument) : String :=
  a.name.getD ("arg_" ++ (index + 1).repr)

/-- A list of parameters: type and name each. -/
def parameterList (args : List Argument) (spell : TypeRef → String) : String :=
  ", ".intercalate (args.zipIdx.map fun (a, i) => spell a.type ++ " " ++ argName i a)

/-- The arguments of a call: each parameter's name, converted. -/
def callArguments (args : List Argument) (convert : TypeRef → String → String) : String :=
  ", ".intercalate (args.zipIdx.map fun (a, i) => convert a.type (argName i a))

namespace Context

/-! ### Types -/

/-- A type as the library spells it. -/
def libraryType (ctx : Context) (type : TypeRef) : String := type.renderWith (ctx.libraryBase type)

/-- The type of an argument in an Interface. -/
def interfaceArgType (ctx : Context) (side : Side) (type : TypeRef) : String :=
  match ctx.loaded? type with
  | none => ctx.libraryType type
  | some names =>
    let base := ctx.interfaceName names side
    if type.isByValue then type.reference.renderWith base else type.renderWith base

/-- The return type in an Interface.  A value is returned by pointer. -/
def interfaceReturnType (ctx : Context) (side : Side) (type : TypeRef) : String :=
  match ctx.loaded? type with
  | none => ctx.libraryType type
  | some names =>
    let base := ctx.interfaceName names side
    if h : type.isByValue = true then
      (type.pointerTo (TypeRef.room_of_isByValue h)).renderWith base
    else type.renderWith base

/-- The type of an argument or field in a Delegate. -/
def delegateType (ctx : Context) (type : TypeRef) : String :=
  match ctx.loaded? type with
  | none => ctx.libraryType type
  | some names => type.renderWith (ctx.delegateName names .generated)

/-- The return type in a Delegate.  A value of a loaded class is returned without qualifiers. -/
def delegateReturnType (ctx : Context) (type : TypeRef) : String :=
  if type.isByValue && (ctx.loaded? type).isSome then ctx.delegateType type.unqualified
  else ctx.delegateType type

/-! ### Expressions -/

/-- In the library: an argument that came as an Interface, as the callable of the library takes it. -/
def toLibraryArg (ctx : Context) (type : TypeRef) (name : String) : String :=
  match ctx.loaded? type with
  | none => name
  | some _ =>
    let base := ctx.libraryBase type
    let target := if type.isByValue then type.reference.renderWith base else type.renderWith base
    "dynamic_cast<" ++ target ++ ">(" ++ name ++ ")"

/-- In the library: the result of the call, as the Interface returns it. -/
def toInterfaceReturn (ctx : Context) (type : TypeRef) (call : String) : String :=
  if type.isByValue && (ctx.loaded? type).isSome then
    "new " ++ ctx.libraryBase type ++ "(" ++ call ++ ")"
  else call

/-- In a Delegate: an argument that came as a Delegate, as the Interface takes it. -/
def toInterfaceArg (ctx : Context) (type : TypeRef) (name : String) : String :=
  match ctx.loaded? type with
  | none => name
  | some _ =>
    if type.isPointer then "(" ++ name ++ " == 0 ? 0 : " ++ name ++ "->get_BEptr())"
    else "*" ++ name ++ ".get_BEptr()"

/-- In a Delegate: the result of the Interface's call, as the Delegate returns it. -/
def toDelegateReturn (ctx : Context) (type : TypeRef) (call : String) : String :=
  match ctx.loaded? type with
  | none => call
  | some names =>
    let interface := ctx.interfaceName names .generated
    if type.isByValue then ctx.delegateName names .generated ++ "(" ++ call ++ ", true)"
    else if type.isPointer then
      if type.cv.isConst then "const_cast<" ++ interface ++ "*>(" ++ call ++ ")->get_init_wptr()"
      else call ++ "->get_init_wptr()"
    else if type.cv.isConst then
      "const_cast<" ++ interface ++ "&>(" ++ call ++ ").get_init_wref()"
    else call ++ ".get_init_wref()"

end Context

end LoadBridge
