import LoadBridge.Proofs.Bridge.Conversion
import LoadBridge.Proofs.Bridge.LoadedTypes
import LoadBridge.Proofs.Bridge.Selection

/-!
# Bridge — Forwarding type-checks

A call that crosses the boundary is converted twice: between the Delegate and the Interface, and
between the Interface and the library.  Over a loaded class a type is spelled by its `Shape`, and so
are the expressions that convert its values (`Context.IsWritten`).  Whether these are well-formed
and fit what they are handed to (`Shape.argumentCrosses`, `Shape.resultCrosses`) depends on the
shape alone.  It comes down to three things: no reference to a pointer crosses, a value is returned
without qualifiers, and nothing is volatile but a pointer or a reference that is returned and const
as well (`Shape.argumentCrosses_iff`, `Shape.resultCrosses_iff`).  Types of all these shapes are
accepted, so not every callable that is planned or wrapped type-checks
(`Context.forwarding_checked`, `Context.forwarding_broken`).
-/

namespace LoadBridge

/-! ### Shapes -/

/-- What the declaration of a type puts around its base. -/
def TypeRef.shape (t : TypeRef) : Shape := ⟨t.cv, t.isPointer, t.isReference⟩

namespace Shape

variable (s : Shape)

/-- Neither a pointer nor a reference. -/
def isByValue : Bool := !s.isPointer && !s.isReference

/-- An argument in the Interface: a value is handed over by reference. -/
def passed : Shape := if s.isByValue then { s with isReference := true } else s

/-- A result in the Interface: a value is returned by pointer. -/
def returned : Shape := if s.isByValue then { s with isPointer := true } else s

/-- A result in the Delegate: a value is returned without qualifiers. -/
def handedOut : Shape := if s.isByValue then { s with cv := {} } else s

/-- What the Delegate makes of an argument, for the Interface. -/
def argumentToInterface : Expression :=
  if s.isPointer then .unlessNull (.member .operand true .entry)
  else .deref (.member .operand false .entry)

/-- What the library makes of an argument of the Interface. -/
def argumentToLibrary : Expression :=
  .dynamicCast ⟨.target, s.passed⟩ .operand

/-- What the library makes of a result, for the Interface. -/
def resultToInterface : Expression := if s.isByValue then .allocated .operand else .operand

/-- What the Delegate makes of a result of the Interface. -/
def resultToDelegate : Expression :=
  if s.isByValue then .adopted .operand
  else if s.isPointer then
    .member (if s.cv.isConst then .constCast (.pointer .interface) .operand else .operand) true
      .companionPointer
  else
    .member (if s.cv.isConst then .constCast (.reference .interface) .operand else .operand) false
      .companionReference

/-- **An argument crosses**: what the Delegate makes of its parameter can be handed to the
Interface, and what the library makes of that to the callable. -/
def argumentCrosses : Bool :=
  s.argumentToInterface.fits (Form.mk .delegate s).named ⟨.interface, s.passed⟩ &&
    s.argumentToLibrary.fits (Form.mk .interface s.passed).named ⟨.target, s⟩

/-- **A result crosses**: what the library makes of it can be returned by the Interface, and what
the Delegate makes of that by the Delegate. -/
def resultCrosses : Bool :=
  s.resultToInterface.fits (Form.mk .target s).called ⟨.interface, s.returned⟩ &&
    s.resultToDelegate.fits (Form.mk .interface s.returned).called ⟨.delegate, s.handedOut⟩

/-- A reference to a pointer. -/
def isPointerReference : Bool := s.isPointer && s.isReference

/-- Can be the type of an argument: it is not volatile, and no reference to a pointer. -/
def IsPassable : Prop := s.cv.isVolatile = false ∧ s.isPointerReference = false

/-- Can be the type of a result: a value without qualifiers, or a pointer or a reference that is not
volatile unless it is const as well, but no reference to a pointer. -/
def IsReturnable : Prop :=
  (if s.isByValue then s.cv = {} else s.cv.isVolatile = true → s.cv.isConst = true) ∧
    s.isPointerReference = false

instance : Decidable s.IsPassable := inferInstanceAs (Decidable (_ ∧ _))

instance : Decidable s.IsReturnable := inferInstanceAs (Decidable (_ ∧ _))

/-- **Which arguments cross.** -/
theorem argumentCrosses_iff : s.argumentCrosses = true ↔ s.IsPassable := by
  rw [IsPassable]
  obtain ⟨⟨isConst, isVolatile⟩, isPointer, isReference⟩ := s
  -- four things to be made of a class, each with four qualifications
  cases isPointer <;> cases isReference <;> cases isConst <;> cases isVolatile <;> decide

/-- **Which results cross.** -/
theorem resultCrosses_iff : s.resultCrosses = true ↔ s.IsReturnable := by
  rw [IsReturnable]
  obtain ⟨⟨isConst, isVolatile⟩, isPointer, isReference⟩ := s
  cases isPointer <;> cases isReference <;> cases isConst <;> cases isVolatile <;> decide

end Shape

/-! ### Texts -/

namespace TypeRef

variable {t : TypeRef}

theorem isByValue_eq (t : TypeRef) : t.isByValue = t.shape.isByValue := by
  simp [isByValue, Shape.isByValue, shape, isPointer, bne]

/-- A pointer that is accepted has one star. -/
theorem stars_eq (hdepth : ¬ t.pointerDepth > 1) : t.stars = if t.isPointer then "*" else "" := by
  have hcases : t.pointerDepth = 0 ∨ t.pointerDepth = 1 := by
    rw [gt_iff_lt, UInt8.lt_iff_toNat_lt] at hdepth
    rw [← UInt8.toNat_inj, ← UInt8.toNat_inj]
    have hone : (1 : UInt8).toNat = 1 := rfl
    have hzero : (0 : UInt8).toNat = 0 := rfl
    omega
  rcases hcases with h | h <;> simp [stars, isPointer, h]

/-- A type is written as its shape is. -/
theorem renderWith_eq_text (hdepth : ¬ t.pointerDepth > 1) (spell : Companion → String)
    (base : Companion) : t.renderWith (spell base) = (Form.mk base t.shape).text spell := by
  rw [renderWith, indirection, stars_eq hdepth, Form.text, shape]
  simp only [String.append_assoc]

theorem shape_reference (t : TypeRef) : t.reference.shape = { t.shape with isReference := true } :=
  rfl

theorem pointerDepth_of_isByValue (h : t.isByValue = true) : t.pointerDepth = 0 := by
  simp only [isByValue, Bool.and_eq_true, beq_iff_eq] at h
  exact h.1

theorem shape_pointerTo (h : t.isByValue = true) :
    (t.pointerTo (room_of_isByValue h)).shape = { t.shape with isPointer := true } := by
  simp [shape, pointerTo, isPointer, pointerDepth_of_isByValue h]

theorem depth_pointerTo (h : t.isByValue = true) :
    ¬ (t.pointerTo (room_of_isByValue h)).pointerDepth > 1 := by
  simp only [pointerTo, pointerDepth_of_isByValue h]
  decide

end TypeRef

namespace Context

variable {ctx : Context} {type : TypeRef} {names : GeneratedNames}

/-- The names of a class and of its companions in the code of one side. -/
def companionNames (ctx : Context) (type : TypeRef) (names : GeneratedNames) (side : Side) :
    Companion → String
  | .target => ctx.libraryBase type
  | .interface => ctx.interfaceName names side
  | .delegate => ctx.delegateName names side

/-- A type over a loaded class is written as its shapes are, and its values are converted by their
expressions. -/
structure IsWritten (ctx : Context) (type : TypeRef) (names : GeneratedNames) : Prop where
  library : ∀ side, ctx.libraryType type =
    (Form.mk .target type.shape).text (ctx.companionNames type names side)
  interfaceArg : ∀ side, ctx.interfaceArgType side type =
    (Form.mk .interface type.shape.passed).text (ctx.companionNames type names side)
  interfaceReturn : ∀ side, ctx.interfaceReturnType side type =
    (Form.mk .interface type.shape.returned).text (ctx.companionNames type names side)
  delegate : ctx.delegateType type =
    (Form.mk .delegate type.shape).text (ctx.companionNames type names .generated)
  delegateReturn : ctx.delegateReturnType type =
    (Form.mk .delegate type.shape.handedOut).text (ctx.companionNames type names .generated)
  toInterfaceArg : ∀ name, ctx.toInterfaceArg type name =
    type.shape.argumentToInterface.text (ctx.companionNames type names .generated) name
  toLibraryArg : ∀ side name, ctx.toLibraryArg type name =
    type.shape.argumentToLibrary.text (ctx.companionNames type names side) name
  toInterfaceReturn : ∀ side call, ctx.toInterfaceReturn type call =
    type.shape.resultToInterface.text (ctx.companionNames type names side) call
  toDelegateReturn : ∀ call, ctx.toDelegateReturn type call =
    type.shape.resultToDelegate.text (ctx.companionNames type names .generated) call

theorem isWritten (hloaded : ctx.loaded? type = some names) (hdepth : ¬ type.pointerDepth > 1) :
    ctx.IsWritten type names := by
  have htranslated := isTranslated hloaded
  have hvalue := type.isByValue_eq
  have hpointer : type.shape.isPointer = type.isPointer := rfl
  have hconst : type.shape.cv.isConst = type.cv.isConst := rfl
  constructor
  case library =>
    exact fun side => TypeRef.renderWith_eq_text hdepth (ctx.companionNames type names side) .target
  case interfaceArg =>
    intro side
    rw [htranslated.interfaceArg, Shape.passed, ← hvalue]
    split
    · exact TypeRef.renderWith_eq_text (t := type.reference) hdepth
        (ctx.companionNames type names side) .interface
    · exact TypeRef.renderWith_eq_text hdepth (ctx.companionNames type names side) .interface
  case interfaceReturn =>
    intro side
    rw [htranslated.interfaceReturn, Shape.returned, ← hvalue]
    split
    · next h =>
      rw [← TypeRef.shape_pointerTo h]
      exact TypeRef.renderWith_eq_text (TypeRef.depth_pointerTo h)
        (ctx.companionNames type names side) .interface
    · exact TypeRef.renderWith_eq_text hdepth (ctx.companionNames type names side) .interface
  case delegate =>
    rw [htranslated.delegate]
    exact TypeRef.renderWith_eq_text hdepth (ctx.companionNames type names .generated) .delegate
  case delegateReturn =>
    rw [htranslated.delegateReturn, Shape.handedOut, ← hvalue]
    split
    · exact TypeRef.renderWith_eq_text (t := type.unqualified) hdepth
        (ctx.companionNames type names .generated) .delegate
    · exact TypeRef.renderWith_eq_text hdepth (ctx.companionNames type names .generated) .delegate
  case toInterfaceArg =>
    intro name
    rw [Context.toInterfaceArg, hloaded, Shape.argumentToInterface, hpointer]
    dsimp only
    split <;> simp only [Expression.text, MemberFunction.entry, String.append_assoc] <;> rfl
  case toLibraryArg =>
    intro side name
    rw [Context.toLibraryArg, hloaded, Shape.argumentToLibrary, Shape.passed, ← hvalue]
    dsimp only
    split
    · rw [Expression.text, ← TypeRef.shape_reference,
        ← TypeRef.renderWith_eq_text (t := type.reference) hdepth]
      rfl
    · rw [Expression.text, ← TypeRef.renderWith_eq_text hdepth]
      rfl
  case toInterfaceReturn =>
    intro side call
    rw [Context.toInterfaceReturn, hloaded, Shape.resultToInterface, ← hvalue, Option.isSome_some,
      Bool.and_true]
    split <;> rfl
  case toDelegateReturn =>
    intro call
    rw [Context.toDelegateReturn, hloaded, Shape.resultToDelegate, ← hvalue, hpointer, hconst]
    dsimp only
    split
    · rfl
    split <;> split <;> simp only [Expression.text, Form.text_pointer, Form.text_reference,
      MemberFunction.companionPointer, MemberFunction.companionReference,
      String.append_assoc] <;> rfl

/-! ### Signatures -/

/-- The result of a callable and its arguments cross, where their classes are loaded. -/
def Crosses (ctx : Context) (returns : Option TypeRef) (args : List Argument) : Prop :=
  (∀ type ∈ returns, type.isVoid = false → (ctx.loaded? type).isSome = true →
    type.shape.resultCrosses = true) ∧
  ∀ a ∈ args, (ctx.loaded? a.type).isSome = true → a.type.shape.argumentCrosses = true

/-- The result of a callable can be returned and its arguments can be passed, where their classes
are loaded. -/
def IsForwardable (ctx : Context) (returns : Option TypeRef) (args : List Argument) : Prop :=
  (∀ type ∈ returns, type.isVoid = false → (ctx.loaded? type).isSome = true →
    type.shape.IsReturnable) ∧
  ∀ a ∈ args, (ctx.loaded? a.type).isSome = true → a.type.shape.IsPassable

/-- **How a signature is forwarded.**  Over loaded classes, types are written as their shapes are
and values are converted by their expressions; other types are spelled alike and their values cross
as they are.  The expressions are well-formed, and fit what they are handed to, in a signature that
can be forwarded and in no other one. -/
structure IsForwarded (ctx : Context) (returns : Option TypeRef) (args : List Argument) : Prop where
  written : ∀ type ∈ returns.toList ++ args.map Argument.type, ∀ names,
    ctx.loaded? type = some names → ctx.IsWritten type names
  untranslated : ∀ type ∈ returns.toList ++ args.map Argument.type,
    ctx.loaded? type = none → ctx.IsUntranslated type
  crosses_iff : ctx.Crosses returns args ↔ ctx.IsForwardable returns args

theorem crosses_iff (ctx : Context) (returns : Option TypeRef) (args : List Argument) :
    ctx.Crosses returns args ↔ ctx.IsForwardable returns args := by
  simp only [Crosses, IsForwardable, Shape.resultCrosses_iff, Shape.argumentCrosses_iff]

variable {c owner : ClassRecord} {m : MemberRecord} {plan : ClassPlan} {p : PlannedCallable}
  {f : FunctionRecord} {returns : Option TypeRef} {args : List Argument}

/-- What is accepted is no pointer to a pointer. -/
theorem depth_of_checkType (h : ctx.checkType type = .ok .accepted) : ¬ type.pointerDepth > 1 := by
  intro hdepth
  rw [checkType, if_pos hdepth] at h
  cases h

/-- **A signature that is accepted is forwarded.** -/
theorem isForwarded (h : ctx.checkSignature returns args = .ok .accepted) :
    ctx.IsForwarded returns args where
  written type htype _ hnames :=
    isWritten hnames (depth_of_checkType (checkTypes_eq_accepted_iff.1 h type htype))
  untranslated _ _ hnone := isUntranslated hnone
  crosses_iff := crosses_iff ctx returns args

theorem signature_of_checkMemberFunction
    (h : ctx.checkMemberFunction owner m args = .ok .accepted) :
    ∃ returned, m.returned = .ok returned ∧ ctx.checkSignature returned args = .ok .accepted := by
  rw [checkMemberFunction] at h
  split at h
  · cases h
  split at h
  · cases h
  split at h
  · cases h
  · exact bind_eq_ok.1 h

theorem returns_of_returned (h : p.member.returned = .ok returns) : p.returns = returns := by
  have hfunction : p.member.valueType.map some = .ok returns → p.member.type = returns := by
    intro h
    obtain ⟨type, htype, rfl⟩ := map_eq_ok.1 h
    exact MemberRecord.valueType_eq_ok_iff.1 htype
  rw [MemberRecord.returned] at h
  rw [PlannedCallable.returns]
  generalize p.member.kind = kind at h ⊢
  cases kind with
  | method | operator => exact hfunction h
  | constructor | destructor | field => exact Except.ok.inj h

/-- In a block of entries, which is empty unless its member is offered, every call is accepted. -/
theorem accepts_of_mem_block {accepts : Arity → Bool} {isOffered : Bool}
    {block : List PlannedCallable} (hnone : isOffered = false → block = [])
    (hoffered : isOffered = true → OfferedArities args accepts (block.map PlannedCallable.call))
    (hp : p ∈ block) : accepts p.call = true := by
  have hyes : isOffered = true := by
    by_contra hno
    rw [hnone (Bool.eq_false_iff.2 hno)] at hp
    cases hp
  have hcall : p.call ∈ block.map PlannedCallable.call := List.mem_map_of_mem hp
  rw [(hoffered hyes).accepted] at hcall
  exact (List.mem_filter.1 hcall).2

/-- An arity that is planned is accepted. -/
theorem accepted_of_mem_callables (h : ctx.planClass c = .ok plan)
    (hp : p ∈ plan.constructors ++ plan.methods) :
    ∃ owner, ctx.checkMemberFunction owner p.member p.args = .ok .accepted := by
  obtain ⟨members, methods, constructors, -, hmethods, hmethodEntries, hconstructors,
    hconstructorEntries⟩ := exists_entries h
  rcases List.mem_append.1 hp with hp | hp
  · rw [hconstructors] at hp
    obtain ⟨block, hblock, hp⟩ := List.mem_flatten.1 hp
    obtain ⟨item, -, hentries⟩ := exists_partner_left hconstructorEntries hblock
    have haccepts := accepts_of_mem_block hentries.none hentries.offered hp
    exact ⟨c, (hentries.member p hp).1 ▸ acceptsMember_iff.1 haccepts⟩
  · rw [hmethods] at hp
    obtain ⟨block, hblock, hp⟩ := List.mem_flatten.1 hp
    obtain ⟨item, -, hentries⟩ := exists_partner_left hmethodEntries hblock
    have haccepts := accepts_of_mem_block hentries.none hentries.offered hp
    exact ⟨item.1, (hentries.member p hp).1 ▸ acceptsMember_iff.1 haccepts⟩

/-- **A planned callable is forwarded.** -/
theorem isForwarded_of_mem_callables (h : ctx.planClass c = .ok plan)
    (hp : p ∈ plan.constructors ++ plan.methods) : ctx.IsForwarded p.returns p.args := by
  obtain ⟨owner, haccepted⟩ := accepted_of_mem_callables h hp
  obtain ⟨returned, hreturned, hsignature⟩ := signature_of_checkMemberFunction haccepted
  rw [returns_of_returned hreturned]
  exact isForwarded hsignature

theorem signature_of_checkFunction (h : ctx.checkFunction f args = .ok .accepted) :
    ∃ returns, f.returns = some returns ∧
      ctx.checkSignature (some returns) args = .ok .accepted := by
  rw [checkFunction] at h
  split at h
  · cases h
  · obtain ⟨returns, hreturns, hsignature⟩ := bind_eq_ok.1 h
    exact ⟨returns, returnType_eq_ok_iff.1 hreturns, hsignature⟩

/-- A wrapper stands for an arity of a function of the table, which is accepted. -/
theorem exists_call_of_mem_wrappers {counter : Nat} {w : Wrapping} {x : FunctionWrapper}
    (h : ctx.wrapFunctions counter = .ok w) (hx : x ∈ w.wrappers) :
    ∃ f ∈ ctx.table.functions, ∃ arity ∈ arities f.args,
      ctx.checkFunction f arity.args = .ok .accepted ∧ ctx.IsWrapperFor f arity x := by
  obtain ⟨selectors, -, hwraps⟩ := wrapsBlocks_wrapFunctions h
  obtain ⟨blocks, hwrappers, hentries⟩ := hwraps.blocks
  rw [hwrappers, List.nil_append] at hx
  obtain ⟨block, hblock, hx⟩ := List.mem_flatten.1 hx
  obtain ⟨f, hf, hfunction⟩ := exists_partner_left hentries hblock
  obtain ⟨arity, harity, hwrapper⟩ := exists_partner_left hfunction.wrappers hx
  obtain ⟨harity, haccepts⟩ := List.mem_filter.1 harity
  obtain ⟨s, -, hpicked⟩ := List.mem_flatMap.1 (of_mem_attempted hf).1
  exact ⟨f, (List.mem_filter.1 hpicked).1, arity, harity, acceptsCall_iff.1 haccepts, hwrapper⟩

/-- **Forwarding, end to end.**  Every constructor and method that is planned, and every function
that is wrapped, is forwarded: its signature is written and converted as its shapes tell, and
type-checks on both hops exactly if it can be forwarded. -/
theorem forwarding_checked (ctx : Context) :
    (∀ c plan, ctx.planClass c = .ok plan → ∀ p ∈ plan.constructors ++ plan.methods,
      ctx.IsForwarded p.returns p.args) ∧
    ∀ counter w, ctx.wrapFunctions counter = .ok w → ∀ x ∈ w.wrappers,
      ∃ f ∈ ctx.table.functions, ∃ arity ∈ arities f.args, ∃ returns n,
        f.returns = some returns ∧ x = ctx.wrapperFor f returns arity n ∧
          ctx.IsForwarded (some returns) arity.args := by
  refine ⟨fun c plan h p hp => isForwarded_of_mem_callables h hp, fun counter w h x hx => ?_⟩
  obtain ⟨f, hf, arity, harity, haccepted, returns, n, hreturns, rfl⟩ :=
    exists_call_of_mem_wrappers h hx
  obtain ⟨returns', hreturns', hsignature⟩ := signature_of_checkFunction haccepted
  obtain rfl := Option.some.inj (hreturns.symm.trans hreturns')
  exact ⟨f, hf, arity, harity, returns, n, hreturns, rfl, isForwarded hsignature⟩

/-! ### Signatures that cross, and some that do not -/

def relayType : TypeRef := .of ⟨"_1"⟩ [] "Relay"

/-- A reference to a pointer. -/
def relaySlot : TypeRef := { relayType with pointerDepth := 1, isReference := true }

/-- A method of the relay. -/
def relayMember (id name : String) (returns : TypeRef) (args : List Argument) : MemberRecord where
  id := ⟨id⟩
  name
  kind := .method
  context := ⟨"_1"⟩
  type := some returns
  args

/-- One method that crosses; a const value, a reference to a pointer as a result, and one as an
argument. -/
def relayMembers : List MemberRecord :=
  [relayMember "_2" "next" { relayType with pointerDepth := 1, cv := ⟨true, false⟩ }
      [{ type := relayType.constant.reference }, { type := relayType }],
    relayMember "_3" "frozen" relayType.constant [],
    relayMember "_4" "slot" relaySlot [],
    relayMember "_5" "swap" (.named "void") [{ type := relaySlot, name := some "other" }]]

def relayRecord : ClassRecord where
  id := ⟨"_1"⟩
  name := "Relay"
  members := relayMembers.map MemberRecord.id

/-- A function that returns a value. -/
def tapFunction : FunctionRecord where
  id := ⟨"_6"⟩
  name := "tap"
  returns := some relayType
  args := [{ type := { relayType with pointerDepth := 1 } }]

def relayTable : SymbolTable where
  records := .ofClass relayRecord :: .ofFunction tapFunction :: relayMembers.map .ofMember
  distinct := by decide

def relayContext : Context :=
  (new relayTable { load := { functions := ["tap"] } }).register [⟨[], "Relay"⟩]

/-- What is planned of the relay. -/
theorem methods_relay : ∃ plan, relayContext.planClass relayRecord = .ok plan ∧
    plan.methods.map (fun p => (p.returns, p.args)) =
      relayMembers.map fun m => (m.type, m.args) :=
  map_eq_ok.1 (toOption_eq_some.1 (by decide +kernel))

theorem exists_method_relay {plan : ClassPlan} (hmethods :
    plan.methods.map (fun p => (p.returns, p.args)) = relayMembers.map fun m => (m.type, m.args))
    {m : MemberRecord} (hm : m ∈ relayMembers) :
    ∃ p ∈ plan.methods, p.returns = m.type ∧ p.args = m.args := by
  have hmem : (m.type, m.args) ∈ plan.methods.map fun p => (p.returns, p.args) :=
    hmethods ▸ List.mem_map_of_mem hm
  obtain ⟨p, hp, hparts⟩ := List.mem_map.1 hmem
  exact ⟨p, hp, Prod.mk.inj hparts⟩

theorem forwarding_checked_relay : ∃ plan w, relayContext.planClass relayRecord = .ok plan ∧
    relayContext.wrapFunctions 0 = .ok w ∧
    (∃ p ∈ plan.methods, p.returns = relayMembers[0].type ∧ p.args = relayMembers[0].args ∧
      relayContext.Crosses p.returns p.args) ∧
    ∃ x ∈ w.wrappers, ∃ n,
      x = relayContext.wrapperFor tapFunction relayType ⟨tapFunction.args, 0⟩ n ∧
      relayContext.Crosses (some relayType) tapFunction.args := by
  obtain ⟨hplans, hruns⟩ := relayContext.forwarding_checked
  obtain ⟨plan, hplan, hmethods⟩ := methods_relay
  obtain ⟨p, hp, hreturns, hargs⟩ := exists_method_relay hmethods (m := relayMembers[0]) (by simp)
  have hmethod := hplans relayRecord plan hplan p (List.mem_append_right _ hp)
  have hlength : (relayContext.wrapFunctions 0).map (fun w => w.wrappers.length) = .ok 1 :=
    toOption_eq_some.1 (by decide +kernel)
  obtain ⟨w, hw, hlength⟩ := map_eq_ok.1 hlength
  obtain ⟨x, hx⟩ := List.length_eq_one_iff.1 hlength
  have hmem : x ∈ w.wrappers := hx ▸ List.mem_cons_self
  obtain ⟨f, hf, arity, harity, returns, n, hreturned, hwrapper, hfunction⟩ :=
    hruns 0 w hw x hmem
  have honly : relayTable.functions = [tapFunction] := rfl
  obtain rfl := List.mem_singleton.1 (honly ▸ hf)
  have hcalls : arities tapFunction.args = [⟨tapFunction.args, 0⟩] := rfl
  obtain rfl := List.mem_singleton.1 (hcalls ▸ harity)
  obtain rfl := Option.some.inj hreturned
  refine ⟨plan, w, hplan, hw, ⟨p, hp, hreturns, hargs, hmethod.crosses_iff.2 ?_⟩,
    x, hmem, n, hwrapper, hfunction.crosses_iff.2 ?_⟩
  · rw [hreturns, hargs]
    have hpassable : ∀ a ∈ relayMembers[0].args, a.type.shape.IsPassable := by decide
    refine ⟨fun type htype _ _ => ?_, fun a ha _ => hpassable a ha⟩
    obtain rfl := Option.some.inj htype
    decide
  · have hpassable : ∀ a ∈ tapFunction.args, a.type.shape.IsPassable := by decide
    refine ⟨fun type htype _ _ => ?_, fun a ha _ => hpassable a ha⟩
    obtain rfl := Option.some.inj htype
    decide

/-- **Forwarding that does not type-check.**  A const value is returned as a pointer to a const
Interface, which the constructor of the Delegate does not take.  A reference to a pointer is bound
to the companion that `get_init_wptr` returns, or to the result of a conditional, and neither has a
place. -/
theorem forwarding_broken : ∃ plan, relayContext.planClass relayRecord = .ok plan ∧
    (∃ p ∈ plan.methods, p.returns = some relayType.constant ∧
      relayContext.interfaceReturnType .generated relayType.constant = "const Abstract_Relay*" ∧
      relayContext.toDelegateReturn relayType.constant "f()" = "Wrapper_Relay(f(), true)" ∧
      ¬ relayContext.Crosses p.returns p.args) ∧
    (∃ p ∈ plan.methods, p.returns = some relaySlot ∧
      relayContext.delegateReturnType relaySlot = "Wrapper_Relay*&" ∧
      relayContext.toDelegateReturn relaySlot "f()" = "f()->get_init_wptr()" ∧
      ¬ relayContext.Crosses p.returns p.args) ∧
    ∃ p ∈ plan.methods, p.args = [{ type := relaySlot, name := some "other" }] ∧
      relayContext.interfaceArgType .generated relaySlot = "Abstract_Relay*&" ∧
      relayContext.toInterfaceArg relaySlot "other" =
        "(other == 0 ? 0 : other->get_BEptr())" ∧
      ¬ relayContext.Crosses p.returns p.args := by
  obtain ⟨plan, hplan, hmethods⟩ := methods_relay
  obtain ⟨frozen, hfrozen, hvalue, -⟩ :=
    exists_method_relay hmethods (m := relayMembers[1]) (by simp)
  obtain ⟨slot, hslot, hresult, -⟩ :=
    exists_method_relay hmethods (m := relayMembers[2]) (by simp)
  obtain ⟨swap, hswap, -, hargument⟩ :=
    exists_method_relay hmethods (m := relayMembers[3]) (by simp)
  refine ⟨plan, hplan, ⟨frozen, hfrozen, hvalue, by cbv, by cbv, fun h => ?_⟩,
    ⟨slot, hslot, hresult, by cbv, by cbv, fun h => ?_⟩,
    swap, hswap, hargument, by cbv, by cbv, fun h => ?_⟩
  · exact absurd (h.1 relayType.constant hvalue (by decide) (by cbv)) (by decide)
  · exact absurd (h.1 relaySlot hresult (by decide) (by cbv)) (by decide)
  · have hmem : { type := relaySlot, name := some "other" } ∈ swap.args :=
      hargument ▸ List.mem_cons_self
    exact absurd (h.2 _ hmem (by cbv)) (by decide)

end Context

end LoadBridge
