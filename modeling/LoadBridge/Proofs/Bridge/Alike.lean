import LoadBridge.Proofs.Bridge.Registration

/-!
# Bridge — Contexts that are alike

Code generation does not look at all of a context.  Of the configuration it sees which names are on
the ditch list and which are those of known classes, not how they are written, and it never sees
which classes were asked for; of the names that are registered it sees what each name finds, not in
which order.  Two contexts that agree on what is seen are alike (`Context.Alike`), and every stage
does the same in both: types are classified and spelled alike, members are accepted and planned
alike, and classes (`Alike.generateClasses`) and functions (`Alike.wrapFunctions`) come out equal,
errors included.  Runs of configurations that are alike start in such contexts (`Config.Alike.new`),
and generate code in such contexts if they register the same names (`Config.Alike.ofRun`).
-/

namespace LoadBridge

/-- Configurations that differ at most in the classes they ask for, and in how they write the names
of the ditch list and of known classes. -/
structure Config.Alike (a b : Config) : Prop where
  ditched : a.isDitched = b.isDitched
  known : a.isKnownClass = b.isKnownClass
  functions : a.load.functions = b.load.functions
  parentClasses : a.load.parentClasses = b.load.parentClasses
  inheritedMembers : a.load.inheritedMembers = b.load.inheritedMembers
  naming : a.naming = b.naming
  output : a.output = b.output

namespace Config.Alike

variable {a b : Config}

theorem affixes (h : a.Alike b) : a.affixes = b.affixes := by
  rw [Config.affixes, Config.affixes, h.naming]

theorem selectors (h : a.Alike b) : a.selectors = b.selectors := by
  rw [Config.selectors, Config.selectors, h.functions]

/-- What makes a configuration valid is seen. -/
theorem validate (h : a.Alike b) : a.validate = b.validate := by
  simp only [Config.validate, Config.fault?, h.affixes, h.naming, h.output, h.selectors]

end Config.Alike

namespace Context

/-- Contexts over one table whose configurations are alike, in which every name finds the same
generated names. -/
structure Alike (a b : Context) : Prop where
  table : a.table = b.table
  config : a.config.Alike b.config
  affixes : a.affixes = b.affixes
  outer : a.names.outer = b.names.outer
  get? : a.names.get? = b.names.get?

namespace Alike

variable {a b : Context}

/-! ### Types -/

theorem baseName (h : a.Alike b) : a.baseName = b.baseName := by
  funext type
  simp only [Context.baseName, elementOf, h.table]

theorem libraryBase (h : a.Alike b) : a.libraryBase = b.libraryBase := by
  funext type
  simp only [Context.libraryBase, elementOf, h.baseName, h.table]

theorem isLoaded (h : a.Alike b) : a.names.isLoaded = b.names.isLoaded := by
  funext q
  rw [NameTable.isLoaded, NameTable.isLoaded, h.get?]

theorem classifyName (h : a.Alike b) : a.classifyName = b.classifyName := by
  funext q
  simp only [Context.classifyName, h.isLoaded, h.config.known]

theorem classify (h : a.Alike b) : a.classify = b.classify := by
  funext type
  simp only [Context.classify, h.table, h.classifyName]

theorem loaded? (h : a.Alike b) : a.loaded? = b.loaded? := by
  funext type
  rw [Context.loaded?, Context.loaded?, h.get?, h.baseName]

theorem usesLoaded (h : a.Alike b) : a.usesLoaded = b.usesLoaded := by
  funext types
  simp only [Context.usesLoaded, h.loaded?]

/-! ### Spelling -/

theorem spell (h : a.Alike b) : a.spell = b.spell := by
  funext name side
  cases side <;> simp only [Context.spell, NameTable.absolute, h.outer]

theorem interfaceName (h : a.Alike b) : a.interfaceName = b.interfaceName := by
  funext names side
  rw [Context.interfaceName, Context.interfaceName, h.spell]

theorem delegateName (h : a.Alike b) : a.delegateName = b.delegateName := by
  funext names side
  rw [Context.delegateName, Context.delegateName, h.spell]

theorem generatedScope (h : a.Alike b) : a.generatedScope = b.generatedScope := by
  funext scope
  rw [Context.generatedScope, Context.generatedScope, h.outer]

theorem libraryType (h : a.Alike b) : a.libraryType = b.libraryType := by
  funext type
  rw [Context.libraryType, Context.libraryType, h.libraryBase]

theorem interfaceArgType (h : a.Alike b) : a.interfaceArgType = b.interfaceArgType := by
  funext side type
  simp only [Context.interfaceArgType, h.loaded?, h.libraryType, h.interfaceName]

theorem interfaceReturnType (h : a.Alike b) : a.interfaceReturnType = b.interfaceReturnType := by
  funext side type
  simp only [Context.interfaceReturnType, h.loaded?, h.libraryType, h.interfaceName]

theorem delegateType (h : a.Alike b) : a.delegateType = b.delegateType := by
  funext type
  simp only [Context.delegateType, h.loaded?, h.libraryType, h.delegateName]

theorem delegateReturnType (h : a.Alike b) : a.delegateReturnType = b.delegateReturnType := by
  funext type
  simp only [Context.delegateReturnType, h.loaded?, h.delegateType]

theorem toLibraryArg (h : a.Alike b) : a.toLibraryArg = b.toLibraryArg := by
  funext type name
  simp only [Context.toLibraryArg, h.loaded?, h.libraryBase]

theorem toInterfaceReturn (h : a.Alike b) : a.toInterfaceReturn = b.toInterfaceReturn := by
  funext type call
  simp only [Context.toInterfaceReturn, h.loaded?, h.libraryBase]

theorem toInterfaceArg (h : a.Alike b) : a.toInterfaceArg = b.toInterfaceArg := by
  funext type name
  simp only [Context.toInterfaceArg, h.loaded?]

theorem toDelegateReturn (h : a.Alike b) : a.toDelegateReturn = b.toDelegateReturn := by
  funext type call
  simp only [Context.toDelegateReturn, h.loaded?, h.interfaceName, h.delegateName]

/-! ### Verdicts -/

theorem isDitched (h : a.Alike b) : a.isDitched = b.isDitched := h.config.ditched

theorem checkClass (h : a.Alike b) : a.checkClass = b.checkClass := by
  funext q
  simp only [Context.checkClass, h.isDitched, h.table]

theorem checkType (h : a.Alike b) : a.checkType = b.checkType := by
  funext type
  simp only [Context.checkType, h.classify]

theorem checkTypes (h : a.Alike b) : a.checkTypes = b.checkTypes := by
  funext types
  induction types with
  | nil => rfl
  | cons type rest ih => simp only [Context.checkTypes, h.checkType, ih]

theorem checkSignature (h : a.Alike b) : a.checkSignature = b.checkSignature := by
  funext returns args
  rw [Context.checkSignature, Context.checkSignature, h.checkTypes]

theorem checkMemberFunction (h : a.Alike b) : a.checkMemberFunction = b.checkMemberFunction := by
  funext c m args
  simp only [Context.checkMemberFunction, h.isDitched, h.checkSignature]

theorem checkMemberVariable (h : a.Alike b) : a.checkMemberVariable = b.checkMemberVariable := by
  funext c m
  simp only [Context.checkMemberVariable, h.isDitched, h.checkType]

theorem checkFunction (h : a.Alike b) : a.checkFunction = b.checkFunction := by
  funext f args
  simp only [Context.checkFunction, h.isDitched, h.checkSignature]

/-! ### Hierarchies -/

theorem parentsOf (h : a.Alike b) : a.parentsOf = b.parentsOf := by
  funext c
  simp only [Context.parentsOf, parentOf, parentStatus, h.table, h.classifyName, h.get?]

theorem isLoadedClass (h : a.Alike b) : a.isLoadedClass = b.isLoadedClass := by
  funext c
  rw [Context.isLoadedClass, Context.isLoadedClass, h.isLoaded]

theorem loadedAncestors (h : a.Alike b) : a.loadedAncestors = b.loadedAncestors := by
  have hbases : a.loadedBasesOf = b.loadedBasesOf := by
    funext id
    simp only [loadedBasesOf, h.table, h.isLoadedClass]
  funext c
  simp only [Context.loadedAncestors, loadedAncestorIds, hbases, h.table, h.isLoadedClass, h.get?]

theorem collectMembers (h : a.Alike b) : a.collectMembers = b.collectMembers := by
  have hbases : a.unloadedBasesOf = b.unloadedBasesOf := by
    funext id
    simp only [unloadedBasesOf, h.table, h.isLoadedClass]
  funext c
  simp only [Context.collectMembers, unloadedAncestors, hbases, h.table, h.config.inheritedMembers]

/-! ### Plans -/

theorem interfaceMemberName (h : a.Alike b) : a.interfaceMemberName = b.interfaceMemberName := by
  funext m suffixed
  simp only [Context.interfaceMemberName, h.affixes]

theorem planArities (h : a.Alike b) : a.planArities = b.planArities := by
  funext owner m plan
  simp only [Context.planArities, h.checkMemberFunction]

theorem planMember (h : a.Alike b) : a.planMember = b.planMember := by
  funext c flags item
  simp only [Context.planMember, planConstructor, planMethod, planField, h.planArities,
    h.usesLoaded, h.interfaceMemberName, h.checkMemberVariable, h.loaded?, h.affixes]

/-- **A class has one plan in contexts that are alike**, or fails with one error. -/
theorem planClass (h : a.Alike b) : a.planClass = b.planClass := by
  funext c
  simp only [Context.planClass, h.get?, h.table, h.collectMembers, h.planMember, h.parentsOf,
    h.loadedAncestors]

/-! ### Classes -/

theorem interfaceSignature (h : a.Alike b) : a.interfaceSignature = b.interfaceSignature := by
  funext side p
  simp only [Context.interfaceSignature, h.interfaceReturnType, h.interfaceArgType]

theorem accessorSignature (h : a.Alike b) : a.accessorSignature = b.accessorSignature := by
  funext side f
  simp only [Context.accessorSignature, h.libraryBase, h.interfaceName, h.delegateName]

theorem pointerCopyName (h : a.Alike b) : a.pointerCopyName = b.pointerCopyName := by
  rw [Context.pointerCopyName, Context.pointerCopyName, h.affixes]

theorem pointerAssignName (h : a.Alike b) : a.pointerAssignName = b.pointerAssignName := by
  rw [Context.pointerAssignName, Context.pointerAssignName, h.affixes]

theorem pointerCopySignature (h : a.Alike b) :
    a.pointerCopySignature = b.pointerCopySignature := by
  funext interface
  rw [Context.pointerCopySignature, Context.pointerCopySignature, h.pointerCopyName]

theorem pointerAssignSignature (h : a.Alike b) :
    a.pointerAssignSignature = b.pointerAssignSignature := by
  funext interface
  rw [Context.pointerAssignSignature, Context.pointerAssignSignature, h.pointerAssignName]

theorem protocolOf (h : a.Alike b) : a.protocolOf = b.protocolOf := by
  funext p
  simp only [Context.protocolOf, h.interfaceName]

theorem interfaceOf (h : a.Alike b) : a.interfaceOf = b.interfaceOf := by
  have hcode : a.interfaceCode = b.interfaceCode := by
    funext p flavor
    simp only [interfaceCode, interfaceClass, interfaceBases, pureVirtuals, shadowMembers,
      h.affixes, h.interfaceName, h.delegateName, h.interfaceSignature, h.accessorSignature,
      h.pointerCopySignature, h.pointerAssignSignature, h.protocolOf]
  funext p
  simp only [Context.interfaceOf, hcode, h.pointerCopyName, h.pointerAssignName]

theorem slotMember (h : a.Alike b) : a.slotMember = b.slotMember := by
  funext p slot c
  unfold Context.slotMember
  rw [h.interfaceArgType]

theorem fieldInitializer (h : a.Alike b) : a.fieldInitializer = b.fieldInitializer := by
  funext f
  simp only [Context.fieldInitializer, h.toDelegateReturn]

theorem delegateParams (h : a.Alike b) : a.delegateParams = b.delegateParams := by
  funext p
  rw [Context.delegateParams, Context.delegateParams, h.delegateType]

theorem delegateReturns (h : a.Alike b) : a.delegateReturns = b.delegateReturns := by
  funext p
  simp only [Context.delegateReturns, h.delegateReturnType]

theorem methodMember (h : a.Alike b) : a.methodMember = b.methodMember := by
  funext m
  rw [Context.methodMember, Context.methodMember, h.delegateReturns, h.delegateParams]

theorem interfaceCallArgs (h : a.Alike b) : a.interfaceCallArgs = b.interfaceCallArgs := by
  funext args
  rw [Context.interfaceCallArgs, Context.interfaceCallArgs, h.toInterfaceArg]

theorem interfaceCall (h : a.Alike b) : a.interfaceCall = b.interfaceCall := by
  funext p
  unfold Context.interfaceCall
  rw [h.interfaceCallArgs]

theorem methodDefinition (h : a.Alike b) : a.methodDefinition = b.methodDefinition := by
  funext p m
  rw [Context.methodDefinition, Context.methodDefinition, h.delegateReturns, h.delegateParams,
    h.toDelegateReturn, h.interfaceCall]

theorem constructorDefinition (h : a.Alike b) :
    a.constructorDefinition = b.constructorDefinition := by
  funext p slot c
  unfold Context.constructorDefinition
  rw [h.delegateParams, h.interfaceCallArgs]

theorem delegateOf (h : a.Alike b) : a.delegateOf = b.delegateOf := by
  funext p copyable assignable
  simp only [Context.delegateOf, delegateDeclaration, delegateDefinitions, fieldMember, lifeMembers,
    adoptingConstructor, copyDefinition, assignDefinition, h.affixes, h.delegateName, h.libraryBase,
    h.slotMember, h.fieldInitializer, h.delegateParams, h.methodMember, h.methodDefinition,
    h.constructorDefinition, h.pointerCopyName, h.pointerAssignName, h.protocolOf]

theorem augmentationOf (h : a.Alike b) : a.augmentationOf = b.augmentationOf := by
  funext p copy assign
  simp only [Context.augmentationOf, forwarderBody, accessorBody, hookBodies, h.interfaceName,
    h.delegateName, h.interfaceSignature, h.accessorSignature, h.pointerCopyName,
    h.pointerAssignName, h.pointerCopySignature, h.pointerAssignSignature, h.toLibraryArg,
    h.toInterfaceReturn, h.libraryBase]

theorem factoriesOf (h : a.Alike b) : a.factoriesOf = b.factoriesOf := by
  funext counter p
  simp only [Context.factoriesOf, factoryOrders, factoryRecord, factorySymbol, factoryCode,
    h.config.naming, h.config.output, h.affixes, h.interfaceName, h.delegateName,
    h.interfaceArgType, h.toLibraryArg]

theorem outputOf (h : a.Alike b) : a.outputOf = b.outputOf := by
  funext counter c plan
  simp only [Context.outputOf, h.interfaceOf, h.delegateOf, h.augmentationOf, h.factoriesOf,
    h.generatedScope]

/-- **Classes come out equal in contexts that are alike.** -/
theorem generateClasses (h : a.Alike b) : a.generateClasses = b.generateClasses := by
  funext counter classes
  induction classes generalizing counter with
  | nil => rfl
  | cons c rest ih =>
      simp only [Context.generateClasses, generateClass, h.planClass, h.outputOf, ih]

/-! ### Functions -/

theorem exportedFunction (h : a.Alike b) : a.exportedFunction = b.exportedFunction := by
  funext f returns usesLoaded arity counter
  simp only [Context.exportedFunction, libraryWrapper, hostFunction, h.affixes, h.generatedScope,
    h.interfaceArgType, h.interfaceReturnType, h.delegateType, h.delegateReturnType, h.toLibraryArg,
    h.toInterfaceReturn, h.interfaceCallArgs, h.toDelegateReturn]

theorem wrapFunction (h : a.Alike b) : a.wrapFunction = b.wrapFunction := by
  have harity : a.wrapArity = b.wrapArity := by
    funext f returns usesLoaded w arity
    simp only [wrapArity, h.checkFunction, h.exportedFunction]
  funext w f
  simp only [Context.wrapFunction, h.usesLoaded, harity]

/-- **Functions come out equal in contexts that are alike.** -/
theorem wrapFunctions (h : a.Alike b) : a.wrapFunctions = b.wrapFunctions := by
  have hselected : a.wrapSelected = b.wrapSelected := by
    funext w s
    simp only [wrapSelected, h.table, h.wrapFunction]
  funext counter
  simp only [Context.wrapFunctions, h.config.selectors, hselected]

/-! ### The result -/

/-- **A result is assembled alike**, but for the notices of the load set. -/
theorem assemble (h : a.Alike b) : a.assemble = b.assemble := by
  funext notices classes wrapping
  simp only [Context.assemble, declareAll, Context.bindFunction, h.outer, h.affixes,
    show a.declareCompanions = b.declareCompanions by
      funext c; simp only [declareCompanions, h.table]]

end Alike

end Context

/-! ### Runs -/

namespace Config.Alike

open Context

variable {a b : Config} {table : SymbolTable}

/-- Runs of configurations that are alike start alike. -/
theorem new (h : a.Alike b) (table : SymbolTable) :
    (Context.new table a).Alike (Context.new table b) where
  table := rfl
  config := h
  affixes := h.affixes
  outer := by simp only [Context.new, NameTable.new, h.output]
  get? := rfl

/-- They generate code alike if they give every name the same companions. -/
theorem ofRun (h : a.Alike b)
    (hnames : (ofRun table a).names.get? = (ofRun table b).names.get?) :
    (Context.ofRun table a).Alike (Context.ofRun table b) where
  table := rfl
  config := h
  affixes := by rw [affixes_ofRun, affixes_ofRun, h.affixes]
  outer := by
    rw [outer_ofRun, outer_ofRun, h.output]
  get? := hnames

end Config.Alike

end LoadBridge
