import LoadBridge.Proofs.Bridge.Braces
import LoadBridge.Proofs.Ownership.Nested

/-!
# Bridge — Generated code is well nested
-/

namespace LoadBridge

open Text

/-! ### Class heads -/

theorem braceless_primaryTemplateParams (args : List String) :
    Braceless (primaryTemplateParams args) := by
  rw [primaryTemplateParams, braceless_append, braceless_append]
  refine ⟨⟨by decide, braceless_intercalate (by decide) fun s hs => ?_⟩, by decide⟩
  obtain ⟨⟨arg, i⟩, -, rfl⟩ := List.mem_map.1 hs
  exact braceless_append.2 ⟨braceless_ite.2 ⟨fun _ => by decide, fun _ => by decide⟩,
    braceless_repr i⟩

theorem nested_forwardDeclaration {c : ClassRecord} {name : String} (hname : Braceless name) :
    (forwardDeclaration c name).Nested := by
  rw [forwardDeclaration]
  split <;> simp +decide [braceless_primaryTemplateParams, hname]

theorem braceless_classHead {c : ClassRecord} {name : String} {bases : List String}
    (hname : Braceless name) (hbases : ∀ base ∈ bases, Braceless base) :
    Braceless (classHead c name bases) := by
  simp +decide +contextual [classHead, hname, hbases]

/-! ### Signatures -/

theorem PlannedCallable.braceless_constness (p : PlannedCallable) : Braceless p.constness := by
  simp +decide [constness]

theorem PlannedCallable.Clean.writtenName {p : PlannedCallable} (h : p.Clean) :
    Braceless p.writtenName := MemberRecord.braceless_writtenName h.name

namespace Context

variable {ctx : Context} {p : ClassPlan} {m : PlannedCallable} {f : PlannedField}
  {args : List Argument} {type : TypeRef} {text : String} {flavor : Flavor} {a b : Bool}

theorem braceless_interfaceParams (h : ctx.Clean) (hargs : ∀ a ∈ args, a.Clean) (side : Side) :
    Braceless (parameterList args (ctx.interfaceArgType side)) :=
  braceless_parameterList hargs fun _ ht => braceless_interfaceArgType h ht side

theorem braceless_interfaceSignature (h : ctx.Clean) (hm : m.Clean) (side : Side) :
    Braceless (ctx.interfaceSignature side m) := by
  have hparams := braceless_interfaceParams h hm.args side
  rw [interfaceSignature]
  cases hreturns : m.returns with
  | none => simp +decide [hm.interfaceName, hparams, m.braceless_constness]
  | some type =>
    have hreturn := braceless_interfaceReturnType h (hm.returns type hreturns) side
    simp +decide [hm.interfaceName, hparams, m.braceless_constness, hreturn]

theorem braceless_accessorSignature (h : ctx.Clean) (hf : f.Clean) (side : Side) :
    Braceless (ctx.accessorSignature side f) := by
  have hcall : Braceless (f.accessor ++ "()") := by simp +decide [hf.accessor]
  rw [accessorSignature]
  cases hloaded : f.loaded with
  | none => exact TypeRef.braceless_declare (braceless_libraryBase h hf.type) hcall
  | some names =>
    have hnames := hf.loaded names hloaded
    dsimp only
    split
    · simp +decide [braceless_delegateName h hnames, hf.accessor]
    · exact TypeRef.braceless_declare (braceless_interfaceName h hnames side) hcall

theorem braceless_pointerCopyName (h : ctx.Clean) : Braceless ctx.pointerCopyName :=
  braceless_suffixed h (by decide)

theorem braceless_pointerAssignName (h : ctx.Clean) : Braceless ctx.pointerAssignName :=
  braceless_suffixed h (by decide)

theorem braceless_pointerCopySignature (h : ctx.Clean) (htext : Braceless text) :
    Braceless (ctx.pointerCopySignature text) := by
  simp +decide [pointerCopySignature, braceless_pointerCopyName h, htext]

theorem braceless_pointerAssignSignature (h : ctx.Clean) (htext : Braceless text) :
    Braceless (ctx.pointerAssignSignature text) := by
  simp +decide [pointerAssignSignature, braceless_pointerAssignName h, htext]

/-! ### Interfaces -/

theorem clean_protocolOf (h : ctx.Clean) (hp : p.Clean) : (ctx.protocolOf p).Clean where
  interface := hp.names.interface.name
  delegate := hp.names.delegate.name
  ancestors := by
    intro a ha
    obtain ⟨names, hnames, rfl⟩ := List.mem_map.1 ha
    exact braceless_interfaceName h (hp.ancestors names hnames) .generated
  shadows := by
    intro s hs
    obtain ⟨f, hf, hshadow⟩ := List.mem_filterMap.1 hs
    exact (hp.fields f hf).shadow s hshadow

theorem nested_pureVirtual (htext : Braceless text) : (pureVirtual text).Nested := by
  simp +decide [pureVirtual, htext]

theorem nested_shadowMembers (h : ctx.Clean) (hp : p.Clean) : (ctx.shadowMembers p).Nested := by
  refine Code.nested_concat.2 fun piece hpiece => ?_
  obtain ⟨f, hf, rfl⟩ := List.mem_map.1 hpiece
  have hfield := hp.fields f hf
  split
  · next names shadow hloaded hshadow =>
    simp +decide [braceless_delegateName h (hfield.loaded names hloaded),
      hfield.shadow shadow hshadow]
  · exact trivial

theorem nested_pureVirtuals (h : ctx.Clean) (hp : p.Clean) : (ctx.pureVirtuals p).Nested := by
  have hinterface := hp.names.interface.name
  have hmethods : ∀ m ∈ p.methods,
      (pureVirtual (ctx.interfaceSignature .generated m)).Nested := fun m hm =>
    nested_pureVirtual (braceless_interfaceSignature h (hp.methods m hm) _)
  have hfields : ∀ f ∈ p.fields, (pureVirtual (ctx.accessorSignature .generated f)).Nested :=
    fun f hf => nested_pureVirtual (braceless_accessorSignature h (hp.fields f hf) _)
  have hcopy := nested_pureVirtual (braceless_pointerCopySignature h hinterface)
  have hassign := nested_pureVirtual (braceless_pointerAssignSignature h hinterface)
  simpa [pureVirtuals, hcopy, hassign] using ⟨hmethods, hfields⟩

theorem braceless_of_mem_interfaceBases (h : ctx.Clean) (hp : p.Clean) :
    ∀ base ∈ ctx.interfaceBases p, Braceless base := by
  rw [interfaceBases]
  split
  · exact List.forall_mem_singleton.2 (braceless_rootOf h.interfacePrefix)
  · simpa using fun names hnames => braceless_interfaceName h (hp.parents names hnames) .generated

theorem nested_interfaceClass (h : ctx.Clean) (hp : p.Clean) (flavor : Flavor) :
    (ctx.interfaceClass p flavor).Nested := by
  have hhead := braceless_classHead (c := p.record) hp.names.interface.name
    (braceless_of_mem_interfaceBases h hp)
  simp +decide [interfaceClass, hhead, nested_shadowMembers h hp, nested_pureVirtuals h hp,
    InterfaceProtocol.nested_members (clean_protocolOf h hp)]

/-- **An Interface is well nested**, in both flavours. -/
theorem nested_interfaceCode (h : ctx.Clean) (hp : p.Clean) (flavor : Flavor) :
    (ctx.interfaceCode p flavor).Nested := by
  have hinterface := hp.names.interface.name
  have hdelegate := hp.names.delegate.name
  simp [interfaceCode, nested_forwardDeclaration, nested_hookDeclarations, hinterface, hdelegate,
    nested_interfaceClass h hp]

/-! ### Delegates -/

theorem braceless_delegateParams (h : ctx.Clean) (hargs : ∀ a ∈ m.args, a.Clean) :
    Braceless (ctx.delegateParams m) :=
  braceless_parameterList hargs fun _ ht => braceless_delegateType h ht

theorem braceless_delegateReturns (h : ctx.Clean) (hm : m.Clean) :
    Braceless (ctx.delegateReturns m) := by
  rw [delegateReturns]
  split
  · next type hreturns => exact braceless_delegateReturnType h (hm.returns type hreturns)
  · decide

theorem braceless_interfaceCallArgs (hargs : ∀ a ∈ args, a.Clean) :
    Braceless (ctx.interfaceCallArgs args) :=
  braceless_callArguments hargs fun _ _ _ hname => braceless_toInterfaceArg hname

/-- The statement of a forwarding function. -/
theorem braceless_returning {returns : Option TypeRef} {convert : TypeRef → String → String}
    {call : String} (hconvert : ∀ type, returns = some type → Braceless (convert type call))
    (hcall : Braceless call) : Braceless (returning returns convert call) := by
  cases returns with
  | none => exact braceless_append.2 ⟨hcall, by decide⟩
  | some type => simp +decide [returning, hconvert type rfl, hcall]

theorem braceless_fieldMember (h : ctx.Clean) (hf : f.Clean) : Braceless (ctx.fieldMember f) := by
  rw [fieldMember]
  cases hloaded : f.loaded with
  | none => exact TypeRef.braceless_declare (braceless_libraryBase h hf.type) hf.name
  | some names =>
    have hdelegate := braceless_delegateName h (hf.loaded names hloaded) .generated
    dsimp only
    split
    · simp +decide [hdelegate, hf.name]
    · exact TypeRef.braceless_declare hdelegate hf.name

theorem braceless_fieldInitializer (h : ctx.Clean) (hf : f.Clean) :
    Braceless (ctx.fieldInitializer f) := by
  have haccess : Braceless ("get_BEptr()->" ++ f.accessor ++ "()") := by
    simp +decide [hf.accessor]
  have hbound : Braceless (ctx.toDelegateReturn { f.type.reference with pointerDepth := 0 }
      ("get_BEptr()->" ++ f.accessor ++ "()")) := braceless_toDelegateReturn h haccess
  simp +decide only [fieldInitializer, braceless_append, braceless_ite, hf.name, haccess, hbound,
    implies_true, and_self]

theorem braceless_of_mem_slots (hp : p.Clean) {slot : String × PlannedCallable}
    (hslot : slot ∈ p.slots) : Braceless slot.1 ∧ ∀ a ∈ slot.2.args, a.Clean := by
  obtain ⟨⟨c, i⟩, hmem, rfl⟩ := List.mem_map.1 hslot
  exact ⟨braceless_append.2 ⟨by decide, braceless_repr i⟩,
    hp.constructors c (List.fst_mem_of_mem_zipIdx hmem)⟩

theorem braceless_slotMember (h : ctx.Clean) (hp : p.Clean) {slot : String × PlannedCallable}
    (hslot : slot ∈ p.slots) : Braceless (ctx.slotMember p slot.1 slot.2) := by
  obtain ⟨hname, hargs⟩ := braceless_of_mem_slots hp hslot
  have htypes : Braceless (", ".intercalate
      (slot.2.args.map fun a => ctx.interfaceArgType .generated a.type)) :=
    braceless_intercalate (by decide) <| List.forall_mem_map.2 fun a ha =>
      braceless_interfaceArgType h (hargs a ha).type .generated
  unfold slotMember
  simp only [braceless_append, hp.names.interface.name, hname, htypes, and_true]
  decide

theorem braceless_methodMember (h : ctx.Clean) (hm : m.Clean) : Braceless (ctx.methodMember m) := by
  simp only [methodMember, braceless_append, braceless_delegateReturns h hm, hm.writtenName,
    braceless_delegateParams h hm.args, m.braceless_constness, true_and, and_true]
  decide

theorem nested_publicSection {members : List String} (hmembers : ∀ s ∈ members, Braceless s) :
    (publicSection members).Nested := by
  simp +decide +contextual [publicSection, hmembers]

theorem braceless_delegateConstructor (hp : p.Clean) : Braceless p.delegateConstructor :=
  braceless_splitTemplate hp.names.delegate.name

theorem nested_lifeMembers (h : ctx.Clean) (hp : p.Clean) : (ctx.lifeMembers p a b).Nested := by
  have hctor := braceless_delegateConstructor hp
  have hparams : ∀ c ∈ p.constructors, Braceless (ctx.delegateParams c) := fun c hc =>
    braceless_delegateParams h (hp.constructors c hc)
  simp +decide +contextual [lifeMembers, hctor, hp.names.delegate.name, hp.names.interface.name,
    hparams]

theorem nested_delegateDeclaration (h : ctx.Clean) (hp : p.Clean) :
    (ctx.delegateDeclaration p a b).Nested := by
  have hbases : ∀ base ∈ ctx.affixes.delegateRoot ::
      p.loadedParents.map fun names => ctx.delegateName names .generated, Braceless base := by
    refine List.forall_mem_cons.2 ⟨braceless_rootOf h.delegatePrefix, fun base hbase => ?_⟩
    obtain ⟨names, hnames, rfl⟩ := List.mem_map.1 hbase
    exact braceless_delegateName h (hp.parents names hnames) .generated
  have hslots : ∀ s ∈ p.slots.map fun slot => ctx.slotMember p slot.1 slot.2, Braceless s :=
    List.forall_mem_map.2 fun _ hslot => braceless_slotMember h hp hslot
  have hfields : ∀ s ∈ p.fields.map fun f => ctx.fieldMember f ++ ";", Braceless s :=
    List.forall_mem_map.2 fun f hf =>
      braceless_append.2 ⟨braceless_fieldMember h (hp.fields f hf), by decide⟩
  have hmethods : ∀ s ∈ p.methods.map ctx.methodMember, Braceless s :=
    List.forall_mem_map.2 fun m hm => braceless_methodMember h (hp.methods m hm)
  have hhead := braceless_classHead (c := p.record) hp.names.delegate.name hbases
  have hpublic : Text.Nested "public:" := by decide
  exact ⟨hhead, ⟨⟨⟨⟨nested_publicSection hslots, nested_publicSection hfields⟩,
    nested_publicSection hmethods⟩, hpublic⟩, nested_lifeMembers h hp⟩, by decide⟩

theorem nested_methodDefinition (h : ctx.Clean) (hp : p.Clean) (hm : m.Clean) :
    (ctx.methodDefinition p m).Nested := by
  have hcall : Braceless (ctx.interfaceCall m) := by
    unfold interfaceCall
    simp +decide [hm.interfaceName, braceless_interfaceCallArgs hm.args]
  have hbody : Braceless (returning m.returns ctx.toDelegateReturn (ctx.interfaceCall m)) :=
    braceless_returning (fun _ _ => braceless_toDelegateReturn h hcall) hcall
  simp only [methodDefinition, Code.nested_append, Code.nested_function, Code.nested_blank,
    braceless_append, braceless_delegateReturns h hm, hp.names.delegate.name, hm.writtenName,
    braceless_delegateParams h hm.args, m.braceless_constness, List.forall_mem_singleton,
    hbody.nested, and_true]
  decide

theorem nested_constructorDefinition (h : ctx.Clean) (hp : p.Clean)
    {slot : String × PlannedCallable} (hslot : slot ∈ p.slots) :
    (ctx.constructorDefinition p slot.1 slot.2).Nested := by
  obtain ⟨hname, hargs⟩ := braceless_of_mem_slots hp hslot
  simp +decide [constructorDefinition, hname, hp.names.delegate.name,
    braceless_delegateConstructor hp, braceless_delegateParams h hargs,
    braceless_interfaceCallArgs hargs]

theorem nested_adoptingConstructor (h : ctx.Clean) (hp : p.Clean) :
    (ctx.adoptingConstructor p).Nested := by
  have hroot : Braceless (ctx.affixes.delegateRoot ++ "(in, owns_target)") :=
    braceless_append.2 ⟨braceless_rootOf h.delegatePrefix, by decide⟩
  have hancestors : ∀ names ∈ p.loadedAncestors,
      Braceless (ctx.delegateName names .generated ++ "(in, owns_target)") := fun names hnames =>
    braceless_append.2 ⟨braceless_delegateName h (hp.ancestors names hnames) .generated, by decide⟩
  have hinit : ∀ s ∈ (ctx.affixes.delegateRoot ++ "(in, owns_target)") ::
      p.loadedAncestors.map (fun names => ctx.delegateName names .generated ++
        "(in, owns_target)") ++ p.fields.map ctx.fieldInitializer, Braceless s :=
    List.forall_mem_append.2 ⟨List.forall_mem_cons.2 ⟨hroot, List.forall_mem_map.2 hancestors⟩,
      List.forall_mem_map.2 fun f hf => braceless_fieldInitializer h (hp.fields f hf)⟩
  have hinits : Braceless (", ".intercalate _) := braceless_intercalate (by decide) hinit
  simp only [adoptingConstructor, Code.nested_append, Code.nested_function, Code.nested_blank,
    braceless_append, hp.names.delegate.name, hp.names.interface.name,
    braceless_delegateConstructor hp, hinits, and_true]
  decide

theorem nested_copyDefinition (h : ctx.Clean) (hp : p.Clean) : (ctx.copyDefinition p).Nested := by
  simp +decide [copyDefinition, hp.names.delegate.name, braceless_delegateConstructor hp,
    braceless_pointerCopyName h]

theorem nested_assignDefinition (h : ctx.Clean) (hp : p.Clean) :
    (ctx.assignDefinition p).Nested := by
  simp +decide [assignDefinition, hp.names.delegate.name, braceless_pointerAssignName h]

/-- **A Delegate is well nested**: what it declares, and what defines its members. -/
theorem nested_delegateDefinitions (h : ctx.Clean) (hp : p.Clean) :
    (ctx.delegateDefinitions p a b).Nested := by
  have hinterface := hp.names.interface.name
  have hdelegate := hp.names.delegate.name
  have hmethods : ∀ m ∈ p.methods, (ctx.methodDefinition p m).Nested := fun m hm =>
    nested_methodDefinition h hp (hp.methods m hm)
  have hslots : ∀ slot ∈ p.slots, (ctx.constructorDefinition p slot.1 slot.2).Nested :=
    fun _ hslot => nested_constructorDefinition h hp hslot
  have hpointer : (Code.function ("inline " ++ p.names.interface.name ++ "* " ++
      p.names.delegate.name ++ "::get_BEptr() const")
      ["return dynamic_cast<" ++ p.names.interface.name ++ "*>(BEptr);"]).Nested := by
    simp +decide [hinterface, hdelegate]
  simp only [delegateDefinitions, Code.nested_append, Code.nested_concat, Code.nested_onlyIf,
    List.forall_mem_map, Code.nested_blank, nested_hookDefinitions hinterface hdelegate,
    nested_delegateDestructor hdelegate,
    InterfaceProtocol.nested_definitions (clean_protocolOf h hp),
    nested_adoptingConstructor h hp, nested_copyDefinition h hp, nested_assignDefinition h hp,
    hpointer, implies_true, and_true, true_and]
  exact ⟨hmethods, hslots⟩

/-! ### Augmentations -/

theorem braceless_callLibrary (h : ctx.Clean) (hargs : ∀ a ∈ args, a.Clean) :
    Braceless (callArguments args ctx.toLibraryArg) :=
  braceless_callArguments hargs fun _ _ => braceless_toLibraryArg h

theorem braceless_forwarderBody (h : ctx.Clean) (hm : m.Clean) :
    Braceless (ctx.forwarderBody m) := by
  have htarget : Braceless (if m.inherited then Name.absolute m.owner.qualifiedName ++ "::" ++
      m.writtenName else m.writtenName) := by
    simp +decide [braceless_absolute hm.owner, hm.writtenName]
  have hcall := braceless_append.2 ⟨braceless_append.2 ⟨braceless_append.2 ⟨htarget,
    (by decide : Braceless "(")⟩, braceless_callLibrary h hm.args⟩, (by decide : Braceless ")")⟩
  exact braceless_returning
    (fun type htype => braceless_toInterfaceReturn h (hm.returns type htype) hcall) hcall

/-- A shadow is filled on one line, in braces. -/
theorem nested_shadowFill {name shadow target : String} (hname : Braceless name)
    (hshadow : Braceless shadow) (htarget : Braceless target) :
    Text.Nested ("if (" ++ name ++ " != 0 && " ++ shadow ++ " == 0) \x7b " ++ shadow ++ " = " ++
      target ++ "->get_init_wptr(); \x7d") := by
  have hopen : " == 0) \x7b " = " == 0) " ++ "\x7b" ++ " " := by decide
  have hhead : "if (" ++ name ++ " != 0 && " ++ shadow ++ " == 0) \x7b " =
      "if (" ++ name ++ " != 0 && " ++ shadow ++ " == 0) " ++ "\x7b" ++ " " := by
    rw [hopen, ← String.append_assoc, ← String.append_assoc]
  have hclose : "->get_init_wptr(); \x7d" = "->get_init_wptr(); " ++ "\x7d" ++ "" := by decide
  have hcondition : Braceless ("if (" ++ name ++ " != 0 && " ++ shadow ++ " == 0) ") := by
    simp +decide [hname, hshadow]
  have hbody : Braceless (" " ++ (shadow ++ " = " ++ target) ++ "->get_init_wptr(); ") := by
    simp +decide [hshadow, htarget]
  have hfill := Nested.between hhead hclose hcondition.nested hbody.nested (by decide)
  simpa only [String.append_assoc] using hfill

theorem nested_accessorBody (h : ctx.Clean) (hf : f.Clean) :
    ∀ s ∈ ctx.accessorBody f, Text.Nested s := by
  rw [accessorBody]
  cases hshadow : f.shadow with
  | none => exact List.forall_mem_singleton.2 (Braceless.nested (by simp +decide [hf.name]))
  | some shadow =>
    have hshadow := hf.shadow shadow hshadow
    have htarget : Braceless (if f.type.cv.isConst then
        "const_cast<" ++ ctx.libraryBase f.type ++ "*>(" ++ f.member.name ++ ")"
        else f.member.name) := by
      simp +decide [braceless_libraryBase h hf.type, hf.name]
    exact List.forall_mem_cons.2 ⟨nested_shadowFill hf.name hshadow htarget,
      List.forall_mem_singleton.2 (Braceless.nested (by simp +decide [hshadow]))⟩

/-- The hooks of an Interface, defined in the library's class. -/
theorem nested_hookBodies (h : ctx.Clean) (hp : p.Clean) : (ctx.hookBodies p a b).Nested := by
  have htarget : Braceless (Name.absolute p.qualifiedName) :=
    braceless_absolute (ClassRecord.braceless_qualifiedName hp.record)
  have hinterface := braceless_interfaceName h hp.names .library
  have hdelegate := braceless_delegateName h hp.names .library
  simp +decide [hookBodies, braceless_pointerCopySignature h hinterface,
    braceless_pointerAssignSignature h hinterface, htarget, hdelegate]

/-- **What is added to a class of the library is well nested.** -/
theorem nested_augmentationBody (h : ctx.Clean) (hp : p.Clean) :
    (ctx.augmentationOf p a b).body.Nested := by
  have hforwarders : ∀ m ∈ p.forwarded,
      (Code.function (ctx.interfaceSignature .library m) [ctx.forwarderBody m] ++ .blank).Nested :=
    fun m hmem => by
      have hm := hp.methods m (List.mem_filter.1 hmem).1
      simp [braceless_interfaceSignature h hm, (braceless_forwarderBody h hm).nested]
  have haccessors : ∀ f ∈ p.fields,
      (Code.function (ctx.accessorSignature .library f) (ctx.accessorBody f) ++ .blank).Nested :=
    fun f hmem => by
      have hf := hp.fields f hmem
      simpa [braceless_accessorSignature h hf] using nested_accessorBody h hf
  simp only [augmentationOf, Code.nested_append, Code.nested_line, Code.nested_indented,
    Code.nested_concat, List.forall_mem_map, nested_hookBodies h hp, and_true]
  exact ⟨by decide, hforwarders, haccessors⟩

/-! ### Factories -/

theorem nested_exported {returns symbol params body : String} (hreturns : Braceless returns)
    (hsymbol : Braceless symbol) (hparams : Braceless params) (hbody : Braceless body) :
    (exported returns symbol params body).Nested := by
  simp +decide [exported, hreturns, hsymbol, hparams, hbody]

theorem braceless_factorySymbol (h : ctx.Clean) {c : ClassRecord} (hc : (Record.ofClass c).Clean)
    (overload counter : Nat) : Braceless (ctx.factorySymbol c overload counter) := by
  have hname : Braceless c.shortName := braceless_splitTemplate (hc _ (by simp [Record.texts]))
  have htag : Braceless (templateTag c) :=
    braceless_of_forall (isWord_templateTag c) (by decide) (by decide)
  unfold factorySymbol
  simp only [braceless_append, h.factoryPrefix, h.codeSuffix, hname, htag, braceless_repr, and_true,
    true_and]
  decide

theorem nested_factoryCode (h : ctx.Clean) (hp : p.Clean) {order : FactoryOrder} {symbol : String}
    (hargs : ∀ a ∈ order.constructor.args, a.Clean) (hsymbol : Braceless symbol) :
    (ctx.factoryCode p order symbol).Nested := by
  have htarget : Braceless (Name.absolute p.qualifiedName) :=
    braceless_absolute (ClassRecord.braceless_qualifiedName hp.record)
  have hinterface := braceless_interfaceName h hp.names .library
  have hdelegate := braceless_delegateName h hp.names .library
  have hcall := braceless_callLibrary h hargs
  have hparams := braceless_interfaceParams h hargs .library
  rw [factoryCode]
  split
  · exact nested_exported (by simp +decide [hinterface]) hsymbol hparams
      (by simp +decide [htarget, hcall])
  · exact nested_exported (by simp +decide [hdelegate]) hsymbol hparams
      (by simp +decide [hdelegate, htarget, hcall])

/-- Factories are made for the constructors of the plan. -/
theorem constructor_of_mem_factoryOrders {order : FactoryOrder}
    (horder : order ∈ ctx.factoryOrders p) : order.constructor ∈ p.constructors := by
  obtain ⟨⟨c, i⟩, hmem, horder⟩ := List.mem_flatMap.1 horder
  have hc : c ∈ p.constructors := List.fst_mem_of_mem_zipIdx hmem
  rcases List.mem_cons.1 horder with rfl | horder
  · exact hc
  · split at horder
    · exact List.mem_singleton.1 horder ▸ hc
    · cases horder

/-- What a factory is bound by. -/
theorem braceless_of_mem_records (h : ctx.Clean) (hp : p.Clean) {counter : Nat} {r : FactoryRecord}
    (hr : r ∈ (ctx.factoriesOf counter p).records) :
    Braceless r.symbol ∧ ∀ slot, r.slot = some slot → Braceless slot := by
  rw [factoriesOf] at hr
  split at hr
  · cases hr
  · simp only [List.map_map] at hr
    obtain ⟨⟨order, n⟩, -, rfl⟩ := List.mem_map.1 hr
    refine ⟨braceless_factorySymbol h hp.record _ _, fun slot hslot => ?_⟩
    have hlong : Braceless p.names.delegate.long :=
      braceless_join hp.names.delegate.scope hp.names.delegate.name
    cases hreturns : order.returns <;> simp only [Function.comp, factoryRecord, hreturns] at hslot
    · cases hslot
      simp +decide [hlong, factorySlotName]
    · cases hslot

/-- **The factories of a class are well nested.** -/
theorem nested_factoriesOf (h : ctx.Clean) (hp : p.Clean) (counter : Nat) :
    (ctx.factoriesOf counter p).code.Nested := by
  rw [factoriesOf]
  split
  · exact trivial
  · simp only [Code.nested_concat, List.forall_mem_map]
    intro entry hentry
    have hc := constructor_of_mem_factoryOrders (List.fst_mem_of_mem_zipIdx hentry)
    exact nested_factoryCode h hp (hp.constructors _ hc) (braceless_factorySymbol h hp.record _ _)

end Context

end LoadBridge
