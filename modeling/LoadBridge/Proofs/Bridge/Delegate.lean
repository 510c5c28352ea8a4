import LoadBridge.Bridge.Delegate
import LoadBridge.Proofs.Bridge.EntryPoint

/-!
# Bridge — What a Delegate consists of

The class of a Delegate has a section each for slots, reference members and forwarding functions
(`Context.items_delegateDeclaration`), and its definitions follow in the same order
(`Context.items_delegateDefinitions`).  One of them calls each entry point of the Interface, under
the name that the Interface has for it and with as many arguments (`EntryPoint.calls_caller`).
-/

namespace LoadBridge

open Code (Item)

/-! ### Calls -/

/-- A call of a function. -/
def callText (function : String) (args : List String) : String :=
  function ++ "(" ++ ", ".intercalate args ++ ")"

/-- The text has in it a call of the function with so many arguments. -/
def Calls (function : String) (arity : Nat) (text : String) : Prop :=
  ∃ args, args.length = arity ∧ (callText function args).toList <:+: text.toList

theorem calls_callArguments (function : String) (args : List Argument)
    (convert : TypeRef → String → String) :
    Calls function args.length (function ++ "(" ++ callArguments args convert ++ ")") :=
  ⟨_, by rw [List.length_map, List.length_zipIdx], List.infix_rfl⟩

theorem Calls.mono {function text whole : String} {arity : Nat}
    (h : Calls function arity text) (hpart : text.toList <:+: whole.toList) :
    Calls function arity whole := by
  obtain ⟨args, hlength, hcall⟩ := h
  exact ⟨args, hlength, hcall.trans hpart⟩

theorem infix_append (before text after : String) :
    text.toList <:+: (before ++ text ++ after).toList := by
  rw [String.toList_append, String.toList_append]
  exact List.infix_append ..

theorem infix_append_right (text after : String) : text.toList <:+: (text ++ after).toList := by
  rw [String.toList_append]
  exact (List.prefix_append ..).isInfix

theorem infix_call (before function args after : String) :
    (function ++ "(" ++ args ++ ")").toList <:+:
      (before ++ function ++ "(" ++ args ++ ")" ++ after).toList := by
  have hwhole : before ++ function ++ "(" ++ args ++ ")" ++ after =
      before ++ (function ++ "(" ++ args ++ ")") ++ after := by
    simp only [String.append_assoc]
  exact hwhole ▸ infix_append ..

namespace Context

variable (ctx : Context) (p : ClassPlan)

/-- What converts the result of a call has the call in it. -/
theorem infix_toDelegateReturn (type : TypeRef) (call : String) :
    call.toList <:+: (ctx.toDelegateReturn type call).toList := by
  rw [toDelegateReturn]
  cases ctx.loaded? type with
  | none => exact List.infix_rfl
  | some names =>
      dsimp only
      split
      · exact infix_append _ _ _
      split
      · split
        · exact infix_append _ _ _
        · exact infix_append_right _ _
      split
      · exact infix_append _ _ _
      · exact infix_append_right _ _

theorem infix_returning (type : Option TypeRef) {convert : TypeRef → String → String}
    {call : String} (h : ∀ t, call.toList <:+: (convert t call).toList) :
    call.toList <:+: (returning type convert call).toList := by
  cases type with
  | none => exact infix_append_right _ _
  | some t =>
      rw [returning]
      split
      · exact infix_append_right _ _
      · exact (h t).trans (infix_append _ _ _)

end Context

namespace EntryPoint

/-- The part of the definitions of a Delegate that calls an entry point: the statement of a
forwarding function, what initializes a reference member, and what copies and assigns. -/
def caller (ctx : Context) (p : ClassPlan) : EntryPoint → String
  | .method m => Context.returning m.returns ctx.toDelegateReturn (ctx.interfaceCall m)
  | .accessor f => ctx.fieldInitializer f
  | .pointerCopy =>
    p.delegateConstructor ++ "(in.get_BEptr()->" ++ ctx.pointerCopyName ++ "(), true)"
  | .pointerAssign => "get_BEptr()->" ++ ctx.pointerAssignName ++ "(in.get_BEptr());"

/-- **Every entry point is called by its name in the Interface, with as many arguments as it
has.** -/
theorem calls_caller (ctx : Context) (p : ClassPlan) (e : EntryPoint) :
    Calls ("get_BEptr()->" ++ e.name ctx) e.arity (e.caller ctx p) := by
  cases e with
  | method m =>
      exact (calls_callArguments _ m.args _).mono
        (Context.infix_returning _ (ctx.infix_toDelegateReturn · _))
  | accessor f =>
      have haccess : Calls ("get_BEptr()->" ++ f.accessor) 0
          ("get_BEptr()->" ++ f.accessor ++ "()") :=
        ⟨[], rfl, by simp [callText, String.append_assoc]⟩
      rw [caller, Context.fieldInitializer]
      split
      · exact (haccess.mono (ctx.infix_toDelegateReturn _ _)).mono (infix_append _ _ _)
      · exact haccess.mono (infix_append _ _ _)
  | pointerCopy =>
      have hopen : "(in.get_BEptr()->" = "(in." ++ "get_BEptr()->" := rfl
      have hcopy : (p.delegateConstructor ++ "(in.") ++
          callText ("get_BEptr()->" ++ ctx.pointerCopyName) [] ++ ", true)" =
            caller ctx p .pointerCopy := by
        simp only [caller, callText, hopen, String.append_assoc]
        rfl
      exact ⟨[], rfl, hcopy ▸ infix_append _ _ _⟩
  | pointerAssign =>
      have hassign : callText ("get_BEptr()->" ++ ctx.pointerAssignName) ["in.get_BEptr()"] ++ ";" =
          caller ctx p .pointerAssign := by
        simp [caller, callText, String.append_assoc]
      exact ⟨["in.get_BEptr()"], rfl, hassign ▸ infix_append_right _ _⟩

end EntryPoint

namespace Context

variable (ctx : Context) (p : ClassPlan) (copyable assignable : Bool)

/-! ### The class -/

/-- A section of members, if there are any. -/
def sectionItems (members : List String) : List Item :=
  if members.isEmpty then [] else .line "public:" :: members.map .line

theorem items_publicSection {members : List String} (h : ∀ member ∈ members, member ≠ "") :
    (publicSection members).items = sectionItems members := by
  cases members with
  | nil => rfl
  | cons member rest =>
      rw [publicSection, List.isEmpty_cons, Bool.not_false, Code.onlyIf, if_pos rfl,
        Code.items_append, Code.items_append, Code.items_indented, Code.items_lines h]
      simp [sectionItems]

/-- What the class of a Delegate declares. -/
theorem items_delegateDeclaration : ∃ head body,
    (ctx.delegateDeclaration p copyable assignable).items = [.block head body ";"] ∧
    body.items =
      sectionItems (p.slots.map fun (slot, c) => ctx.slotMember p slot c) ++
      sectionItems (p.fields.map fun f => ctx.fieldMember f ++ ";") ++
      sectionItems (p.methods.map ctx.methodMember) ++
      .line "public:" :: (ctx.lifeMembers p copyable assignable).items := by
  have hslots : ∀ member ∈ p.slots.map fun (slot, c) => ctx.slotMember p slot c, member ≠ "" :=
    List.forall_mem_map.2 fun _ _ => Code.append_ne_empty _ (by decide)
  have hfields : ∀ member ∈ p.fields.map fun f => ctx.fieldMember f ++ ";", member ≠ "" :=
    List.forall_mem_map.2 fun _ _ => Code.append_ne_empty _ (by decide)
  have hmethods : ∀ member ∈ p.methods.map ctx.methodMember, member ≠ "" :=
    List.forall_mem_map.2 fun _ _ => Code.append_ne_empty _ (by decide)
  refine ⟨_, _, rfl, ?_⟩
  simp only [Code.items_append, items_publicSection hslots, items_publicSection hfields,
    items_publicSection hmethods]
  simp

/-- Of its life a Delegate declares a constructor for each slot and five members more. -/
theorem items_lifeMembers : (ctx.lifeMembers p copyable assignable).items =
    p.constructors.map (fun c =>
      .line (p.delegateConstructor ++ "(" ++ ctx.delegateParams c ++ ");")) ++
    [.line (p.delegateConstructor ++ "(" ++ p.names.interface.name ++
        "* in, bool owns_target = false);"),
      .line (p.delegateConstructor ++ "(const " ++ p.names.delegate.name ++ "& in)" ++
        if copyable then ";" else " = delete;"),
      .line (p.names.delegate.name ++ "& operator=(const " ++ p.names.delegate.name ++ "& in)" ++
        if assignable then ";" else " = delete;"),
      .line ("~" ++ p.delegateConstructor ++ "();"),
      .line (p.names.interface.name ++ "* get_BEptr() const;")] := by
  have hconstructors : ∀ text ∈ p.constructors.map fun c =>
      p.delegateConstructor ++ "(" ++ ctx.delegateParams c ++ ");", text ≠ "" :=
    List.forall_mem_map.2 fun _ _ => Code.append_ne_empty _ (by decide)
  simp only [lifeMembers, Code.items_append, Code.items_lines hconstructors]
  simp

/-! ### The definitions -/

/-- The definition of a forwarding function. -/
def methodItem (m : PlannedCallable) : Item :=
  .function
    ("inline " ++ ctx.delegateReturns m ++ " " ++ p.names.delegate.name ++ "::" ++
      m.writtenName ++ "(" ++ ctx.delegateParams m ++ ")" ++ m.constness)
    [EntryPoint.caller ctx p (.method m)]

/-- The definition of a constructor, which calls its slot. -/
def constructorItem (slot : String) (c : PlannedCallable) : Item :=
  .line ("inline " ++ p.names.delegate.name ++ "::" ++ p.delegateConstructor ++ "(" ++
    ctx.delegateParams c ++ ") : " ++ p.delegateConstructor ++ "(" ++ slot ++ "(" ++
    ctx.interfaceCallArgs c.args ++ "), true) \x7b\x7d")

/-- The definition of the constructor that takes an Interface object, which initializes the bases
and then the reference members. -/
def adoptingItem : Item :=
  .function
    ("inline " ++ p.names.delegate.name ++ "::" ++ p.delegateConstructor ++ "(" ++
      p.names.interface.name ++ "* in, bool owns_target) : " ++ ", ".intercalate
        ((ctx.affixes.delegateRoot ++ "(in, owns_target)") ::
          p.loadedAncestors.map
            (fun names => ctx.delegateName names .generated ++ "(in, owns_target)") ++
          p.fields.map fun f => EntryPoint.caller ctx p (.accessor f)))
    delegateLinkBody

/-- The definition of the copy constructor. -/
def copyItem : Item :=
  .line ("inline " ++ p.names.delegate.name ++ "::" ++ p.delegateConstructor ++ "(const " ++
    p.names.delegate.name ++ "& in) : " ++ EntryPoint.caller ctx p .pointerCopy ++ " \x7b\x7d")

/-- The definition of the assignment. -/
def assignItem : Item :=
  .block
    ("inline " ++ p.names.delegate.name ++ "& " ++ p.names.delegate.name ++
      "::operator=(const " ++ p.names.delegate.name ++ "& in)")
    (.block "if (this != &in)" (.line (EntryPoint.caller ctx p .pointerAssign)) "" ++
      .line "return *this;") ""

/-- The definition of the way to the Interface object. -/
def getterItem : Item :=
  .function ("inline " ++ p.names.interface.name ++ "* " ++ p.names.delegate.name ++
      "::get_BEptr() const")
    ["return dynamic_cast<" ++ p.names.interface.name ++ "*>(BEptr);"]

/-- The definitions that make, copy and end a Delegate, beside the constructors that call slots. -/
def lifeItems : List Item :=
  [ctx.adoptingItem p] ++
    (if copyable then [ctx.copyItem p] else []) ++
    (if assignable then [ctx.assignItem p] else []) ++
    (delegateDestructor p.names.delegate.name).items ++
    [getterItem p]

theorem items_constructorDefinition (slot : String) (c : PlannedCallable) :
    (ctx.constructorDefinition p slot c).items = [ctx.constructorItem p slot c] := by
  rw [constructorDefinition, Code.items_append, Code.items_line,
    if_neg (Code.append_ne_empty _ (by decide))]
  rfl

theorem items_copyDefinition : (ctx.copyDefinition p).items = [ctx.copyItem p] := by
  rw [copyDefinition, Code.items_append, Code.items_line,
    if_neg (Code.append_ne_empty _ (by decide))]
  simp [copyItem, EntryPoint.caller, String.append_assoc]

/-- Without ancestors the protocol has nothing to define after the Delegate. -/
theorem items_protocolDefinitions :
    (if !p.loadedAncestors.isEmpty then (ctx.protocolOf p).definitions.items else []) =
      (ctx.protocolOf p).definitions.items := by
  cases hancestors : p.loadedAncestors with
  | nil => simp [InterfaceProtocol.definitions, protocolOf, hancestors]
  | cons => rfl

/-- **The definitions of a Delegate**: one for each method, one for each slot, one that initializes
the reference members, and those that copy and assign where the Interface can. -/
theorem items_delegateDefinitions : (ctx.delegateDefinitions p copyable assignable).items =
    (hookDefinitions p.names.interface.name p.names.delegate.name).items ++
    (ctx.protocolOf p).definitions.items ++
    p.methods.map (ctx.methodItem p) ++
    p.slots.map (fun (slot, c) => ctx.constructorItem p slot c) ++
    ctx.lifeItems p copyable assignable := by
  simp only [delegateDefinitions, Code.items_append, Code.items_onlyIf, Code.items_blank,
    List.append_nil, items_protocolDefinitions, items_copyDefinition]
  rw [Code.items_concat_map fun _ => rfl,
    Code.items_concat_map fun _ => items_constructorDefinition .., lifeItems]
  simp only [List.append_assoc]
  rfl

end Context

end LoadBridge
