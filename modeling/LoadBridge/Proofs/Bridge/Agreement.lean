import LoadBridge.Proofs.Bridge.Delegate
import LoadBridge.Proofs.Bridge.Entries
import LoadBridge.Proofs.Bridge.Layout
import LoadBridge.Proofs.Bridge.Run
import LoadBridge.Proofs.Bridge.Signature

/-!
# Bridge — What is written for a class agrees

Interface, augmentation and Delegate are written apart from each other, each from the plan of the
class.  They agree on every entry point (`ClassOutput.Agrees`): the Interface declares it, one
definition is to implement it, which is added to the library's class or is a member that the class
has (`PlannedCallable.IsKept`), and one part of the Delegate calls it by its name.  What is written
for a field fits together, too (`PlannedField.Fits`).  A member that the class has implements its
entry point if it takes no array; one that does is declared in other types
(`Context.kept_not_implementing`).
-/

namespace LoadBridge

open Code (Item)

/-- A member of `c` itself that is left to implement its entry point.  Nothing in it is loaded, so
the Interface spells it in the types of the library, under its own name and with all its arguments.
That is its declaration, and the member does implement the entry point, where it has no array. -/
structure PlannedCallable.IsKept (ctx : Context) (c : ClassRecord) (m : PlannedCallable) :
    Prop where
  owner : m.owner.id = c.id
  name : m.interfaceName = m.writtenName
  args : m.args = m.member.args
  notLoaded : ∀ type ∈ m.member.types, ctx.loaded? type = none
  spelled : ∃ returns, m.member.type = some returns ∧ ∀ side,
    ctx.interfaceSignature side m = ctx.spelledSignature m.member returns ∧
    (ctx.interfaceSignature side m = ctx.memberSignature m.member returns ↔
      ∀ type ∈ m.member.types, type.isArray = false)

/-- The call of an accessor. -/
def PlannedField.access (f : PlannedField) : String := "get_BEptr()->" ++ f.accessor ++ "()"

/-- What is written for a field fits together: the shadow, the accessor in the Interface, the
reference member of the Delegate, and what initializes that. -/
inductive PlannedField.Fits (ctx : Context) (f : PlannedField) : Prop
  /-- No class is loaded.  The reference member is bound to what the accessor gives, of one type. -/
  | plain (shape : TypeRef) (base : String) (loaded : f.loaded = none) (shadow : f.shadow = none)
      (data : ctx.shadowOf? f = none)
      (accessor : ∀ side, ctx.accessorSignature side f = shape.declare base (f.accessor ++ "()"))
      (member : ctx.fieldMember f = shape.declare base f.member.name)
      (initializer : ctx.fieldInitializer f = f.member.name ++ "(" ++ f.access ++ ")")
  /-- A pointer to a loaded class.  The reference member is bound to the shadow, which keeps a
  pointer to the companion. -/
  | shadowed (names : GeneratedNames) (kept : String) (loaded : f.loaded = some names)
      (pointer : f.type.isPointer = true) (shadow : f.shadow = some kept)
      (data : ctx.shadowOf? f = some (ctx.delegateName names .generated ++ "* " ++ kept))
      (accessor : ∀ side, ctx.accessorSignature side f =
        ctx.delegateName names side ++ "*& " ++ f.accessor ++ "()")
      (member : ctx.fieldMember f = ctx.delegateName names .generated ++ "*& " ++ f.member.name)
      (initializer : ctx.fieldInitializer f = f.member.name ++ "(" ++ f.access ++ ")")
  /-- An object of a loaded class.  The accessor gives its Interface, and the reference member is
  bound to the companion of that. -/
  | object (names : GeneratedNames) (shape : TypeRef) (loaded : f.loaded = some names)
      (pointer : f.type.isPointer = false) (shadow : f.shadow = none)
      (data : ctx.shadowOf? f = none)
      (accessor : ∀ side, ctx.accessorSignature side f =
        shape.declare (ctx.interfaceName names side) (f.accessor ++ "()"))
      (member : ctx.fieldMember f =
        shape.declare (ctx.delegateName names .generated) f.member.name)
      (initializer : ctx.fieldInitializer f = f.member.name ++ "(" ++
        (if f.type.cv.isConst then
          "const_cast<" ++ ctx.interfaceName names .generated ++ "&>(" ++ f.access ++
            ").get_init_wref()"
        else f.access ++ ".get_init_wref()") ++ ")")

/-- What is written for a planned class `c` agrees.  Each entry point is declared once, left to one
implementor and called once. -/
structure ClassOutput.Agrees (ctx : Context) (c : ClassRecord) (plan : ClassPlan)
    (output : ClassOutput) : Prop where
  virtuals : output.interface.virtuals =
    plan.methods.map PlannedCallable.interfaceName ++ plan.fields.map PlannedField.accessor ++
      (if plan.flags.copyable then [ctx.pointerCopyName] else []) ++
      (if plan.flags.assignable then [ctx.pointerAssignName] else [])
  entryPoints : output.interface.virtuals = plan.entryPoints.map (EntryPoint.name ctx)
  /-- Both builds of the Interface declare the shadows, and then the entry points. -/
  declared : ∀ code ∈ [output.interface.code, output.interface.hostCode], ∃ outside head body rest,
    code.items = outside ++ [.block head body ";"] ∧
    body.items =
      (if plan.shadows.isEmpty then []
        else .line "protected:" ::
          (ctx.shadowData plan).map fun declaration => .line (declaration ++ ";")) ++
      .line "public:" ::
        plan.entryPoints.map (fun e =>
          .line ("virtual " ++ e.signature ctx plan .generated ++ " =0;")) ++ rest
  /-- All entry points are added to the library's class but the methods that need no forwarder. -/
  added : output.augmentation.members =
    (plan.entryPoints.filter EntryPoint.isAdded).map (EntryPoint.name ctx)
  /-- Those that are added are defined, as the Interface declares them. -/
  implemented : output.augmentation.body.items =
    .line "public:" :: plan.addedEntryPoints.map fun e =>
      .function (e.signature ctx plan .library) (e.implementation ctx plan)
  /-- Those that are not added are left to members of the class. -/
  kept : ∀ m ∈ plan.keptMethods, m.IsKept ctx c
  /-- These are all of them. -/
  implementors : (plan.addedEntryPoints ++ plan.keptMethods.map EntryPoint.method).Perm
    plan.entryPoints
  methods : output.delegate.methods = plan.methods.map PlannedCallable.writtenName
  /-- The Delegate has one part for each entry point. -/
  definitions : output.delegate.definitions.items =
    (hookDefinitions plan.names.interface.name plan.names.delegate.name).items ++
    (ctx.protocolOf plan).definitions.items ++
    plan.methods.map (ctx.methodItem plan) ++
    plan.slots.map (fun (slot, c) => ctx.constructorItem plan slot c) ++
    ctx.lifeItems plan plan.flags.copyable plan.flags.assignable
  /-- This part calls it, with as many arguments as it has. -/
  calls : ∀ e ∈ plan.entryPoints,
    Calls ("get_BEptr()->" ++ e.name ctx) e.arity (e.caller ctx plan)
  fields : output.delegate.fields = plan.fields.map fun f => f.member.name
  /-- The Delegate has a reference member for each field and a function for each method. -/
  declaration : ∃ head body life, output.delegate.declaration.items = [.block head body ";"] ∧
    body.items =
      Context.sectionItems (plan.slots.map fun (slot, c) => ctx.slotMember plan slot c) ++
      Context.sectionItems (plan.fields.map fun f => ctx.fieldMember f ++ ";") ++
      Context.sectionItems (plan.methods.map ctx.methodMember) ++ .line "public:" :: life
  fits : ∀ f ∈ plan.fields, f.Fits ctx

variable {ctx : Context} {c : ClassRecord} {plan : ClassPlan}

/-! ### Methods -/

/-- Where nothing is loaded no type is converted. -/
theorem Context.usesLoaded_eq_false_iff {types : List TypeRef} :
    ctx.usesLoaded types = false ↔ ∀ type ∈ types, ctx.loaded? type = none := by
  simp [usesLoaded]

theorem Context.interfaceArgType_of_not_loaded {type : TypeRef} (h : ctx.loaded? type = none)
    (side : Side) : ctx.interfaceArgType side type = ctx.libraryType type := by
  rw [interfaceArgType, h]

theorem Context.interfaceReturnType_of_not_loaded {type : TypeRef} (h : ctx.loaded? type = none)
    (side : Side) : ctx.interfaceReturnType side type = ctx.libraryType type := by
  rw [interfaceReturnType, h]

theorem parameterList_congr {args : List Argument} {spell spell' : TypeRef → String}
    (h : ∀ a ∈ args, spell a.type = spell' a.type) :
    parameterList args spell = parameterList args spell' := by
  rw [parameterList, parameterList]
  refine congrArg _ (List.map_congr_left ?_)
  rintro ⟨a, i⟩ hmem
  show spell a.type ++ _ ++ _ = spell' a.type ++ _ ++ _
  rw [h a (List.fst_mem_of_mem_zipIdx hmem)]

/-- **A method that needs no forwarder is left to implement its entry point.** -/
theorem PlannedCallable.IsMethodOf.isKept {m : PlannedCallable} (h : m.IsMethodOf ctx c)
    (hkept : m.needsForwarder = false) : m.IsKept ctx c := by
  obtain ⟨hloaded, hremoved, hinherited⟩ := needsForwarder_eq_false_iff.1 hkept
  have hname : m.interfaceName = m.writtenName := by
    rw [h.name, hkept]
    rfl
  have hargs : m.args = m.member.args := args_of_removed_eq_zero h.arity hremoved
  have hnone : ∀ type ∈ m.member.types, ctx.loaded? type = none :=
    Context.usesLoaded_eq_false_iff.1 (h.usesLoaded.symm.trans hloaded)
  obtain ⟨returns, hreturns⟩ := h.returns
  refine ⟨?_, hname, hargs, hnone, returns, hreturns, fun side => ?_⟩
  · exact (bne_eq_false_iff_eq.1 (h.inherited.symm.trans hinherited))
  · have hresult : m.returns = some returns := by
      rw [PlannedCallable.returns]
      rcases h.kind with hkind | hkind <;> rw [hkind] <;> exact hreturns
    have hreturned : returns ∈ m.member.types := by simp [MemberRecord.types, hreturns]
    have hreturnType : ctx.interfaceReturnType side returns = ctx.libraryType returns :=
      Context.interfaceReturnType_of_not_loaded (hnone _ hreturned) side
    have hparams : parameterList m.member.args (ctx.interfaceArgType side) =
        parameterList m.member.args ctx.libraryType :=
      parameterList_congr fun a ha => Context.interfaceArgType_of_not_loaded
        (hnone _ (List.mem_append_right _ (List.mem_map_of_mem ha))) side
    have hspelled : ctx.interfaceSignature side m = ctx.spelledSignature m.member returns := by
      rw [Context.interfaceSignature, hresult, hname, hargs, hparams]
      simp only [hreturnType, Context.spelledSignature, Context.memberDeclarator,
        String.append_assoc]
      rfl
    refine ⟨hspelled, ?_⟩
    rw [hspelled, ctx.spelledSignature_eq_iff, MemberRecord.types, hreturns]
    rfl

/-! ### Fields -/

/-- A reference to a loaded class is converted to the companion. -/
theorem Context.toDelegateReturn_reference {type : TypeRef} {names : GeneratedNames}
    (hloaded : ctx.loaded? type = some names) (hreference : type.isReference = true)
    (hdepth : type.pointerDepth = 0) (call : String) :
    ctx.toDelegateReturn type call =
      if type.cv.isConst then
        "const_cast<" ++ ctx.interfaceName names .generated ++ "&>(" ++ call ++ ").get_init_wref()"
      else call ++ ".get_init_wref()" := by
  have hvalue : type.isByValue = false := by simp [TypeRef.isByValue, hreference]
  have hpointer : type.isPointer = false := by simp [TypeRef.isPointer, hdepth]
  rw [toDelegateReturn, hloaded]
  simp [hvalue, hpointer]

/-- **What is written for a field fits together.** -/
theorem PlannedField.IsFieldOf.fits {f : PlannedField} (h : f.IsFieldOf ctx) : f.Fits ctx := by
  have hshadow := h.shadow
  cases hloaded : f.loaded with
  | none =>
      have hnone : f.shadow = none := by rw [hshadow, hloaded]; rfl
      refine .plain f.type.reference (ctx.libraryBase f.type) hloaded hnone ?_ ?_ ?_ ?_
      · rw [Context.shadowOf?, hloaded]
      · intro side
        rw [Context.accessorSignature, hloaded]
      · rw [Context.fieldMember, hloaded]
      · rw [Context.fieldInitializer, hloaded]
        rfl
  | some names =>
      cases hpointer : f.type.isPointer with
      | true =>
          have hsome : f.shadow = some (ctx.affixes.suffixed (f.member.name ++ "_wrapper")) := by
            rw [hshadow, hloaded, hpointer]
            rfl
          refine .shadowed names _ hloaded hpointer hsome ?_ ?_ ?_ ?_
          · rw [Context.shadowOf?, hloaded, hsome]
          · intro side
            simp [Context.accessorSignature, hloaded, hsome, String.append_assoc]
          · simp [Context.fieldMember, hloaded, hsome]
          · rw [Context.fieldInitializer, hloaded, hsome]
            rfl
      | false =>
          have hnone : f.shadow = none := by rw [hshadow, hloaded, hpointer]; rfl
          have hbase : ctx.loaded? { f.type.reference with pointerDepth := 0 } = some names :=
            h.loaded.symm.trans hloaded
          refine .object names { f.type.reference with pointerDepth := 0 } hloaded hpointer hnone
            ?_ ?_ ?_ ?_
          · rw [Context.shadowOf?, hloaded, hnone]
          · intro side
            simp [Context.accessorSignature, hloaded, hnone]
          · simp [Context.fieldMember, hloaded, hnone]
          · have hcall := Context.toDelegateReturn_reference hbase rfl rfl f.access
            rw [Context.fieldInitializer, hloaded, hnone]
            exact congrArg (fun call => f.member.name ++ "(" ++ call ++ ")") hcall

/-! ### Classes -/

/-- **What is written for a class agrees.**  For every plan in every context the Interface, the
augmentation and the Delegate go by the same entry points: each is declared once, left to one
implementor, and called once, under one name and with as many arguments as it has.  The implementor
is added as it is declared, or it is a member of the class, which is declared so exactly if it has
no array. -/
theorem ClassOutput.agrees_outputOf (counter : Nat) (h : ctx.planClass c = .ok plan) :
    (ctx.outputOf counter c plan).Agrees ctx c plan := by
  have hbody (flavor : Flavor) : (ctx.interfaceBody plan flavor).items =
      (if plan.shadows.isEmpty then []
        else .line "protected:" ::
          (ctx.shadowData plan).map fun declaration => .line (declaration ++ ";")) ++
      .line "public:" ::
        plan.entryPoints.map (fun e =>
          .line ("virtual " ++ e.signature ctx plan .generated ++ " =0;")) ++
      ((ctx.protocolOf plan).members flavor).items := by
    rw [← ctx.items_shadowSection plan, ← ctx.items_pureVirtuals plan, ctx.items_interfaceBody]
    simp
  obtain ⟨head, body, hdeclaration, hdelegate⟩ :=
    ctx.items_delegateDeclaration plan plan.flags.copyable plan.flags.assignable
  constructor
  case virtuals => rfl
  case entryPoints => exact ctx.virtuals_interfaceOf plan
  case declared =>
    intro code hcode
    rcases List.mem_pair.1 hcode with rfl | rfl
    · exact ⟨_, _, _, _, ctx.items_code plan, hbody .library⟩
    · exact ⟨_, _, _, _, ctx.items_hostCode plan, hbody .host⟩
  case added => exact ctx.members_augmentationOf plan
  case implemented => exact ctx.items_augmentationOf plan
  case kept =>
    intro m hm
    obtain ⟨hm, hkept⟩ := List.mem_filter.1 hm
    exact (Context.of_mem_methods h hm).isKept (by simpa using hkept)
  case implementors => exact plan.perm_entryPoints
  case methods => rfl
  case definitions => exact ctx.items_delegateDefinitions plan _ _
  case calls => exact fun e _ => e.calls_caller ctx plan
  case fields => rfl
  case declaration => exact ⟨head, body, _, hdeclaration, hdelegate⟩
  case fits => exact fun f hf => (Context.of_mem_fields h hf).fits

/-! ### A class with members of every sort -/

/-- A class that can be copied, with a method in which nothing is loaded, one that answers the class
itself and has a default, two fields, and a method that takes arrays. -/
def shapeRecord : ClassRecord where
  id := ⟨"_1"⟩
  name := "Shape"
  members := [⟨"_2"⟩, ⟨"_3"⟩, ⟨"_4"⟩, ⟨"_5"⟩, ⟨"_6"⟩, ⟨"_7"⟩]

/-- Takes nothing. -/
def shapeArea : MemberRecord where
  id := ⟨"_3"⟩
  name := "area"
  kind := .method
  context := ⟨"_1"⟩
  type := some (.named "double")
  isConst := true

/-- Takes arrays, by address and by reference. -/
def shapeOutline : MemberRecord where
  id := ⟨"_7"⟩
  name := "outline"
  kind := .method
  context := ⟨"_1"⟩
  type := some (.named "void")
  args :=
    let corners := (TypeRef.named "double").array 4
    [{ type := corners, name := some "xs" }, { type := corners.reference, name := some "ys" }]
  isConst := true

def shapeTable : SymbolTable where
  records :=
    let shape := TypeRef.of ⟨"_1"⟩ [] "Shape"
    [.ofClass shapeRecord,
      .ofMember { id := ⟨"_2"⟩, name := "Shape", kind := .constructor, context := ⟨"_1"⟩
                  args := [{ type := shape.constant.reference }] },
      .ofMember shapeArea,
      .ofMember { id := ⟨"_4"⟩, name := "next", kind := .method, context := ⟨"_1"⟩
                  type := some shape, args := [{ type := .named "int", hasDefault := true }] },
      .ofMember { id := ⟨"_5"⟩, name := "count", kind := .field, context := ⟨"_1"⟩
                  type := some (.named "int") },
      .ofMember { id := ⟨"_6"⟩, name := "peer", kind := .field, context := ⟨"_1"⟩
                  type := some { shape with pointerDepth := 1 } },
      .ofMember shapeOutline]
  distinct := by decide

/-- The class is loaded. -/
def shapeContext : Context := (Context.new shapeTable {}).register [⟨[], "Shape"⟩]

theorem ClassOutput.agrees_outputOf_shape :
    ∃ plan, shapeContext.planClass shapeRecord = .ok plan ∧
      plan.entryPoints.map (EntryPoint.name shapeContext) =
        ["area", "next_BE", "next_BE", "outline", "count_ref_BE", "peer_ref_BE",
          "pointer_copy_BE"] ∧
      plan.addedEntryPoints.map (EntryPoint.name shapeContext) =
        ["next_BE", "next_BE", "count_ref_BE", "peer_ref_BE", "pointer_copy_BE"] ∧
      (shapeContext.outputOf 0 shapeRecord plan).Agrees shapeContext shapeRecord plan := by
  have hplan : (shapeContext.planClass shapeRecord).map (fun plan =>
      (plan.entryPoints.map (EntryPoint.name shapeContext),
        plan.addedEntryPoints.map (EntryPoint.name shapeContext))) =
      .ok (["area", "next_BE", "next_BE", "outline", "count_ref_BE", "peer_ref_BE",
          "pointer_copy_BE"],
        ["next_BE", "next_BE", "count_ref_BE", "peer_ref_BE", "pointer_copy_BE"]) := by
    cbv
  obtain ⟨plan, hplan, hnames⟩ := map_eq_ok.1 hplan
  obtain ⟨hall, hadded⟩ := Prod.mk.inj hnames
  exact ⟨plan, hplan, hall, hadded, agrees_outputOf 0 hplan⟩

/-- **A method that takes arrays does not implement the entry point that is left to it.**  The
Interface declares it without the extents. -/
theorem Context.kept_not_implementing : ∃ plan, shapeContext.planClass shapeRecord = .ok plan ∧
    ∃ m ∈ plan.keptMethods, m.member = shapeOutline ∧
      (∀ type ∈ m.member.types, shapeContext.loaded? type = none) ∧
      shapeContext.memberSignature m.member (.named "void") =
        "void outline(double xs[4], double (&ys)[4]) const" ∧
      ∀ side, shapeContext.interfaceSignature side m =
        "void outline(double xs, double& ys) const" := by
  have hplan : (shapeContext.planClass shapeRecord).map (fun plan => plan.keptMethods.map fun m =>
      (m.member, [Side.generated, .library].map (shapeContext.interfaceSignature · m))) =
      .ok [(shapeArea, ["double area() const", "double area() const"]),
        (shapeOutline, ["void outline(double xs, double& ys) const",
          "void outline(double xs, double& ys) const"])] := by
    cbv
  obtain ⟨plan, hplan, hkept⟩ := map_eq_ok.1 hplan
  have hmem : (shapeOutline, ["void outline(double xs, double& ys) const",
      "void outline(double xs, double& ys) const"]) ∈ plan.keptMethods.map fun m =>
        (m.member, [Side.generated, .library].map (shapeContext.interfaceSignature · m)) := by
    rw [hkept]
    exact List.mem_cons_of_mem _ List.mem_cons_self
  obtain ⟨m, hm, houtline⟩ := List.mem_map.1 hmem
  obtain ⟨hmember, hsides⟩ := Prod.mk.inj houtline
  refine ⟨plan, hplan, m, hm, hmember, ?_, ?_, fun side => ?_⟩
  · exact ((Context.of_mem_methods hplan (List.mem_of_mem_filter hm)).isKept
      (by simpa using (List.mem_filter.1 hm).2)).notLoaded
  · rw [hmember]
    cbv
  · simp only [List.map_cons, List.map_nil, List.cons.injEq, and_true] at hsides
    cases side
    · exact hsides.1
    · exact hsides.2

end LoadBridge
