import LoadBridge.Proofs.Bridge.Delegate
import LoadBridge.Proofs.Bridge.Emission
import LoadBridge.Proofs.Bridge.Entries
import LoadBridge.Proofs.Bridge.Symbols
import LoadBridge.Proofs.Bridge.Totality
import LoadBridge.Proofs.Bridge.Wrapper

/-!
# Bridge — Slots and what they are bound to

The Delegate of a class declares a slot for each constructor of the plan and calls it from one
constructor of its own; the class has a factory for each slot, which takes what the slot takes
(`ClassOutput.SlotsAgree`).  The function that binds a run assigns to the slots of its factories and
of its wrapped functions, to each once and in order, and what it looks up is defined in the source
of the library (`GenerationOutput.slots_bound`).
-/

namespace LoadBridge

open Code (Item)

/-- The entries that `f` takes up are those that satisfy `p`. -/
theorem map_filterMap_eq_map_filter {α β γ : Type} {f : α → Option β} {g : β → γ} {p : α → Bool}
    {k : α → γ} {xs : List α} (h : ∀ x ∈ xs, (f x).map g = if p x then some (k x) else none) :
    (xs.filterMap f).map g = (xs.filter p).map k := by
  rw [List.map_filterMap, List.filterMap_congr h, ← List.filterMap_eq_map, List.filterMap_filter]
  rfl

namespace ClassPlan

variable (p : ClassPlan)

theorem map_fst_slots :
    p.slots.map Prod.fst = (List.range p.constructors.length).map factorySlotName := by
  rw [slots, List.map_map, List.range_eq_range', ← List.zipIdx_map_snd 0, List.map_map]
  rfl

end ClassPlan

namespace Context

variable {ctx : Context} {c : ClassRecord} {plan : ClassPlan}

/-! ### Factories -/

/-- The types of the parameters of the slot of a constructor. -/
def slotTypes (ctx : Context) (c : PlannedCallable) : List String :=
  c.args.map fun a => ctx.interfaceArgType .generated a.type

/-- A class that has no factories has no constructors in its plan. -/
theorem constructors_eq_nil (h : ctx.planClass c = .ok plan)
    (hlacking : plan.lackingFactories.isSome = true) : plan.constructors = [] := by
  cases hconstructors : plan.constructors with
  | nil => rfl
  | cons first rest =>
      obtain ⟨-, hpublic, hvirtual⟩ := of_mem_constructors h (hconstructors ▸ List.mem_cons_self)
      simp [ClassPlan.lackingFactories, hpublic, hvirtual, hconstructors] at hlacking

/-- **A planned class has all the factories that its constructors ask for.** -/
theorem factoriesOf_eq (h : ctx.planClass c = .ok plan) (counter : Nat) :
    ctx.factoriesOf counter plan =
      { records := ((ctx.factoryOrders plan).zipIdx counter).map fun (order, n) =>
          ctx.factoryRecord plan order n
        code := .concat (((ctx.factoryOrders plan).zipIdx counter).map fun (order, n) =>
          ctx.factoryCode plan order (ctx.factoryRecord plan order n).symbol) } := by
  rw [factoriesOf]
  split
  · next hlacking =>
    have hnone : ctx.factoryOrders plan = [] := by
      rw [factoryOrders, constructors_eq_nil h hlacking]
      rfl
    rw [hnone]
    rfl
  · simp only [List.map_map]
    rfl

/-- The slot that a factory is bound to. -/
def slotOf? (plan : ClassPlan) (order : FactoryOrder) : Option String :=
  match order.returns with
  | .interface => some (plan.names.delegate.long ++ "::" ++ factorySlotName order.overload)
  | .delegate => none

/-- The factories that answer one kind of object are those that were ordered. -/
theorem map_filter_records (h : ctx.planClass c = .ok plan) (counter : Nat)
    (kind : FactoryReturn) :
    ((ctx.factoriesOf counter plan).records.filter fun r => r.returns = kind).map
        (fun r => (r.slot, r.args)) =
      ((ctx.factoryOrders plan).filter fun order => order.returns = kind).map fun order =>
        (slotOf? plan order, ctx.slotTypes order.constructor) := by
  rw [factoriesOf_eq h, List.filter_map, List.map_map]
  have hfst := congrArg (List.filter fun order => order.returns = kind)
    (List.zipIdx_map_fst counter (ctx.factoryOrders plan))
  rw [List.filter_map] at hfst
  rw [← hfst, List.map_map]
  rfl

/-- An Interface is ordered of each constructor. -/
theorem filter_interface_factoryOrders (ctx : Context) (plan : ClassPlan) :
    (ctx.factoryOrders plan).filter (fun order => order.returns = .interface) =
      plan.constructors.zipIdx.map fun (c, i) => ⟨c, i, .interface⟩ := by
  rw [factoryOrders, List.filter_flatMap, List.map_eq_flatMap]
  refine List.flatMap_congr fun entry _ => ?_
  cases ctx.config.output.wrapperReturnFactories <;> rfl

/-- A Delegate is ordered of each constructor where the configuration asks for it. -/
theorem filter_delegate_factoryOrders (ctx : Context) (plan : ClassPlan) :
    (ctx.factoryOrders plan).filter (fun order => order.returns = .delegate) =
      if ctx.config.output.wrapperReturnFactories then
        plan.constructors.zipIdx.map fun (c, i) => ⟨c, i, .delegate⟩
      else [] := by
  rw [factoryOrders, List.filter_flatMap]
  cases ctx.config.output.wrapperReturnFactories with
  | true =>
      rw [if_pos rfl, List.map_eq_flatMap]
      rfl
  | false => exact List.flatMap_eq_nil_iff.2 fun _ _ => rfl

/-- The slots of the factories that answer Interface objects are those of the Delegate. -/
theorem map_interface_records (h : ctx.planClass c = .ok plan) (counter : Nat) :
    ((ctx.factoriesOf counter plan).records.filter fun r => r.returns = .interface).map
        (fun r => (r.slot, r.args)) =
      plan.slots.map fun (slot, c) =>
        (some (plan.names.delegate.long ++ "::" ++ slot), ctx.slotTypes c) := by
  rw [map_filter_records h, filter_interface_factoryOrders, ClassPlan.slots, List.map_map,
    List.map_map]
  rfl

/-- The other factories have no slots. -/
theorem map_delegate_records (h : ctx.planClass c = .ok plan) (counter : Nat) :
    ((ctx.factoriesOf counter plan).records.filter fun r => r.returns = .delegate).map
        FactoryRecord.slot =
      .replicate (if ctx.config.output.wrapperReturnFactories then plan.constructors.length else 0)
        none := by
  have hslots := congrArg (List.map Prod.fst) (map_filter_records h counter .delegate)
  rw [List.map_map, List.map_map, filter_delegate_factoryOrders] at hslots
  refine hslots.trans ?_
  cases ctx.config.output.wrapperReturnFactories with
  | false => rfl
  | true =>
      rw [if_pos rfl, if_pos rfl, List.map_map]
      refine List.eq_replicate_iff.2 ⟨by simp, ?_⟩
      exact List.forall_mem_map.2 fun _ _ => rfl

/-- The constructor of the Delegate at a slot calls it. -/
theorem calls_constructorItem (ctx : Context) (plan : ClassPlan) (slot : String)
    (c : PlannedCallable) : ∃ text, ctx.constructorItem plan slot c = .line text ∧
      Calls slot (ctx.slotTypes c).length text := by
  refine ⟨_, rfl, ?_⟩
  rw [slotTypes, List.length_map]
  refine (calls_callArguments slot c.args ctx.toInterfaceArg).mono ?_
  have hclose : "), true) \x7b\x7d" = ")" ++ ", true) \x7b\x7d" := rfl
  rw [hclose, ← String.append_assoc]
  exact infix_call _ _ _ _

end Context

/-- The slots of a Delegate, its constructors and the factories of its class agree, where the plan
of the class has constructors. -/
structure ClassOutput.SlotsAgree (ctx : Context) (plan : ClassPlan) (output : ClassOutput) :
    Prop where
  /-- The slots are numbered. -/
  slots : output.delegate.factorySlots =
    (List.range plan.constructors.length).map factorySlotName
  names : plan.slots.map Prod.fst = output.delegate.factorySlots
  /-- The Delegate declares them as pointers to functions, and no others, and a constructor for
  each. -/
  declared : ∃ head body life, output.delegate.declaration.items = [.block head body ";"] ∧
    body.items =
      Context.sectionItems (plan.slots.map fun (slot, c) =>
        "inline static " ++ plan.names.interface.name ++ "* (*" ++ slot ++ ")(" ++
          ", ".intercalate (ctx.slotTypes c) ++ ") = 0;") ++
      Context.sectionItems (plan.fields.map fun f => ctx.fieldMember f ++ ";") ++
      Context.sectionItems (plan.methods.map ctx.methodMember) ++
      .line "public:" ::
        (plan.constructors.map (fun c =>
          .line (plan.delegateConstructor ++ "(" ++ ctx.delegateParams c ++ ");")) ++ life)
  /-- Each has a factory that takes what it takes. -/
  factories : (output.factories.records.filter fun r => r.returns = .interface).map
      (fun r => (r.slot, r.args)) =
    plan.slots.map fun (slot, c) =>
      (some (output.names.delegate.long ++ "::" ++ slot), ctx.slotTypes c)
  /-- The factories that answer Delegates have no slots. -/
  further : (output.factories.records.filter fun r => r.returns = .delegate).map
      FactoryRecord.slot =
    List.replicate
      (if ctx.config.output.wrapperReturnFactories then plan.constructors.length else 0) none
  /-- A constructor of the Delegate is defined for each. -/
  constructors : ∃ before after, output.delegate.definitions.items =
    before ++ plan.slots.map (fun (slot, c) => ctx.constructorItem plan slot c) ++ after
  /-- The constructor calls it, with as many arguments as it takes. -/
  calls : ∀ entry ∈ plan.slots, ∃ text, ctx.constructorItem plan entry.1 entry.2 = .line text ∧
    Calls entry.1 (ctx.slotTypes entry.2).length text

theorem ClassOutput.slotsAgree_outputOf {ctx : Context} {c : ClassRecord} {plan : ClassPlan}
    (counter : Nat) (h : ctx.planClass c = .ok plan) :
    (ctx.outputOf counter c plan).SlotsAgree ctx plan := by
  obtain ⟨head, body, hdeclaration, hdelegate⟩ :=
    ctx.items_delegateDeclaration plan plan.flags.copyable plan.flags.assignable
  constructor
  case slots => exact plan.map_fst_slots
  case names => rfl
  case declared =>
    rw [ctx.items_lifeMembers plan] at hdelegate
    exact ⟨head, body, _, hdeclaration, hdelegate⟩
  case factories => exact Context.map_interface_records h counter
  case further => exact Context.map_delegate_records h counter
  case constructors =>
    exact ⟨_, _, ctx.items_delegateDefinitions plan plan.flags.copyable plan.flags.assignable⟩
  case calls => exact fun entry _ => ctx.calls_constructorItem plan entry.1 entry.2

/-! ### Symbols -/

/-- A symbol is defined: a function of that name is declared with it as its label, and defined. -/
def Code.DefinesSymbol (code : Code) (symbol : String) : Prop :=
  ∃ returns params statement,
    [.block "extern \"C\"" (.line (returns ++ " " ++ symbol ++ "(" ++ params ++ ")" ++
        " asm(\"" ++ symbol ++ "\");")) "",
      .function (returns ++ " " ++ symbol ++ "(" ++ params ++ ")") [statement]] <:+: code.items

namespace Code

theorem DefinesSymbol.mono {part whole : Code} {symbol : String}
    (h : part.DefinesSymbol symbol) (hpart : part.items <:+: whole.items) :
    whole.DefinesSymbol symbol := by
  obtain ⟨returns, params, statement, hitems⟩ := h
  exact ⟨returns, params, statement, hitems.trans hpart⟩

theorem definesSymbol_exported (returns symbol params statement : String) :
    (exported returns symbol params statement).DefinesSymbol symbol :=
  ⟨returns, params, statement, List.infix_rfl⟩

theorem infix_items_concat {piece : Code} {pieces : List Code} (h : piece ∈ pieces) :
    piece.items <:+: (concat pieces).items := by
  rw [items_concat]
  exact List.infix_of_mem_flatten (List.mem_map_of_mem h)

end Code

namespace Context

variable {ctx : Context} {c : ClassRecord} {plan : ClassPlan}

theorem definesSymbol_factoryCode (ctx : Context) (plan : ClassPlan) (order : FactoryOrder)
    (symbol : String) : (ctx.factoryCode plan order symbol).DefinesSymbol symbol := by
  rw [factoryCode]
  cases order.returns <;> exact Code.definesSymbol_exported _ _ _ _

/-- A class defines the symbols of its factories. -/
theorem definesSymbol_of_mem_records {counter : Nat} {r : FactoryRecord}
    (h : ctx.planClass c = .ok plan) (hr : r ∈ (ctx.factoriesOf counter plan).records) :
    (ctx.factoriesOf counter plan).code.DefinesSymbol r.symbol := by
  rw [factoriesOf_eq h] at hr ⊢
  obtain ⟨⟨order, n⟩, hmem, rfl⟩ := List.mem_map.1 hr
  exact (definesSymbol_factoryCode ctx plan order _).mono
    (Code.infix_items_concat (List.mem_map_of_mem hmem))

/-- A factory has a slot when it answers an Interface object. -/
theorem slot_isSome_of_mem_records {counter : Nat} {r : FactoryRecord}
    (h : ctx.planClass c = .ok plan) (hr : r ∈ (ctx.factoriesOf counter plan).records) :
    r.slot.isSome = decide (r.returns = .interface) := by
  rw [factoriesOf_eq h] at hr
  obtain ⟨⟨order, n⟩, -, rfl⟩ := List.mem_map.1 hr
  obtain ⟨constructor, overload, returns⟩ := order
  cases returns <;> rfl

/-- A wrapper has a slot when it has a symbol, and then it defines it. -/
theorem WrapperOf.slot {f : FunctionRecord} {w : FunctionWrapper} (h : ctx.WrapperOf f w) :
    w.slot.isSome = w.symbol.isSome ∧ ∀ symbol, w.symbol = some symbol →
      w.libraryCode.DefinesSymbol symbol := by
  cases h with
  | passthrough => exact ⟨rfl, fun _ h => (nomatch h)⟩
  | exported =>
      refine ⟨rfl, fun symbol hsymbol => ?_⟩
      obtain rfl := Option.some.inj hsymbol
      exact Code.definesSymbol_exported _ _ _ _

end Context

/-! ### Runs -/

namespace GenerationOutput

open Context

variable {table : SymbolTable} {config : Config} {g : GenerationOutput}

/-- What a run binds: the factories that answer Interface objects, then the wrapped functions. -/
theorem map_slotsOf (h : generate table config = .ok g) :
    (slotsOf g.classes g.functions).map (fun b => (some b.1, some b.2)) =
      (g.factories.filter fun r => r.returns = .interface).map
          (fun r => (r.slot, some r.symbol)) ++
        g.wrapped.map fun w => (w.slot, w.symbol) := by
  rw [slotsOf, List.map_append]
  congr 1
  · refine map_filterMap_eq_map_filter fun r hr => ?_
    obtain ⟨output, houtput, hr⟩ := List.mem_flatMap.1 hr
    obtain ⟨c, -, counter, plan, hplan, rfl⟩ := exists_plan_of_mem_classes h houtput
    rw [← slot_isSome_of_mem_records hplan hr]
    cases r.slot <;> rfl
  · refine map_filterMap_eq_map_filter fun w hw => ?_
    obtain ⟨f, -, hwrapper⟩ := wrapperOf_of_mem_functions h hw
    have hslot := hwrapper.slot.1
    rw [FunctionWrapper.isPassthrough]
    cases hs : w.slot <;> cases hy : w.symbol <;> simp_all

/-- The factories that answer Interface objects have the slots of the Delegates, in order. -/
theorem map_slot_factories (h : generate table config = .ok g) :
    (g.factories.filter fun r => r.returns = .interface).map FactoryRecord.slot =
      g.classes.flatMap fun output => output.delegate.factorySlots.map fun slot =>
        some (output.names.delegate.long ++ "::" ++ slot) := by
  rw [factories, List.filter_flatMap, List.map_flatMap]
  refine List.flatMap_congr fun output houtput => ?_
  obtain ⟨c, -, counter, plan, hplan, rfl⟩ := exists_plan_of_mem_classes h houtput
  have hslots := congrArg (List.map Prod.fst) (map_interface_records hplan counter)
  rw [List.map_map, List.map_map] at hslots
  refine hslots.trans ?_
  show _ = List.map _ (plan.slots.map Prod.fst)
  rw [List.map_map]
  rfl

/-- The source of the library has the factories of a class that has any. -/
theorem infix_librarySource_of_factory (g : GenerationOutput) (header : String)
    {output : ClassOutput} {r : FactoryRecord} (houtput : output ∈ g.classes)
    (hr : r ∈ output.factories.records) :
    output.factories.code.items <:+: (g.librarySource header).items := by
  have hsome : (!output.factories.isEmpty) = true := by
    rw [FactorySet.isEmpty, List.isEmpty_eq_false_iff_exists_mem.2 ⟨r, hr⟩]
    rfl
  have hpiece : Code.blank ++ output.factories.code ∈
      (g.classes.filter fun c => !c.factories.isEmpty).map fun c =>
        Code.blank ++ c.factories.code :=
    List.mem_map_of_mem (List.mem_filter.2 ⟨houtput, hsome⟩)
  exact (Code.infix_items_concat hpiece).trans (List.infix_append _ _ _)

/-- The source of the library has the wrappers that are exported. -/
theorem infix_librarySource_of_wrapped (g : GenerationOutput) (header : String)
    {w : FunctionWrapper} (hw : w ∈ g.wrapped) :
    w.libraryCode.items <:+: (g.librarySource header).items := by
  have hpiece : Code.blank ++ w.libraryCode ∈ g.wrapped.map fun f => Code.blank ++ f.libraryCode :=
    List.mem_map_of_mem hw
  exact (Code.infix_items_concat hpiece).trans (List.suffix_append _ _).isInfix

/-- Every symbol that is looked up is defined in the source of the library. -/
theorem definesSymbol_librarySource (h : generate table config = .ok g) (header : String)
    {binding : String × String} (hbinding : binding ∈ slotsOf g.classes g.functions) :
    (g.librarySource header).DefinesSymbol binding.2 := by
  rcases List.mem_append.1 hbinding with hfactory | hfunction
  · obtain ⟨r, hr, hsome⟩ := List.mem_filterMap.1 hfactory
    obtain ⟨slot, -, rfl⟩ := Option.map_eq_some_iff.1 hsome
    obtain ⟨output, houtput, hr⟩ := List.mem_flatMap.1 hr
    obtain ⟨c, -, counter, plan, hplan, rfl⟩ := exists_plan_of_mem_classes h houtput
    exact (definesSymbol_of_mem_records hplan hr).mono
      (infix_librarySource_of_factory g header houtput hr)
  · obtain ⟨w, hw, hsome⟩ := List.mem_filterMap.1 hfunction
    obtain ⟨f, -, hwrapper⟩ := wrapperOf_of_mem_functions h hw
    cases hslot : w.slot with
    | none => simp [hslot] at hsome
    | some slot =>
        cases hsymbol : w.symbol with
        | none => simp [hslot, hsymbol] at hsome
        | some symbol =>
            simp only [hslot, hsymbol, Option.some.injEq] at hsome
            have hwrapped : w ∈ g.wrapped :=
              List.mem_filter.2 ⟨hw, by simp [FunctionWrapper.isPassthrough, hsymbol]⟩
            exact hsome ▸ (hwrapper.slot.2 symbol hsymbol).mono
              (infix_librarySource_of_wrapped g header hwrapped)

/-- The assignment that binds a slot. -/
def assignment (slot symbol : String) : String :=
  slot ++ " = reinterpret_cast<decltype(" ++ slot ++ ")>(lookup(\"" ++ symbol ++ "\"));"

/-- **Slots, factories and the function that binds them agree.**  In every run that succeeds each
class has as many slots as its plan has constructors, each with a factory and with a constructor of
the Delegate.  The function that binds the run assigns to the slot of each factory that answers an
Interface object, and then to that of each function that is not passed through, once and in order,
and to no others.  Every symbol that it looks up is defined in the source of the library. -/
theorem slots_bound (h : generate table config = .ok g) :
    (∀ output ∈ g.classes, ∃ c plan counter, (ofRun table config).planClass c = .ok plan ∧
      output = (ofRun table config).outputOf counter c plan ∧
      output.SlotsAgree (ofRun table config) plan) ∧
    ∃ bindings : List (String × String),
      g.bindFunction.items =
        [.line "template <typename Lookup>",
          .function ("inline void " ++ config.affixes.suffixed "bind_symbols" ++ "(Lookup lookup)")
            (bindings.map fun (slot, symbol) => assignment slot symbol)] ∧
      bindings.map (fun b => some b.1) =
        (g.classes.flatMap fun output => output.delegate.factorySlots.map fun slot =>
          some (output.names.delegate.long ++ "::" ++ slot)) ++
        g.wrapped.map FunctionWrapper.slot ∧
      bindings.map (fun b => (some b.1, some b.2)) =
        (g.factories.filter fun r => r.returns = .interface).map
            (fun r => (r.slot, some r.symbol)) ++
          g.wrapped.map (fun w => (w.slot, w.symbol)) ∧
      ∀ b ∈ bindings, ∀ header, (g.librarySource header).DefinesSymbol b.2 := by
  refine ⟨fun output houtput => ?_, slotsOf g.classes g.functions, ?_, ?_, map_slotsOf h,
    fun b hb header => definesSymbol_librarySource h header hb⟩
  · obtain ⟨c, -, counter, plan, hplan, rfl⟩ := exists_plan_of_mem_classes h houtput
    exact ⟨c, plan, counter, hplan, rfl, ClassOutput.slotsAgree_outputOf counter hplan⟩
  · obtain ⟨-, classes, counter, wrapping, -, -, rfl⟩ := generate_eq_ok_iff.1 h
    rw [← affixes_ofRun table config]
    rfl
  · have hslots := congrArg (List.map Prod.fst) (map_slotsOf h)
    rw [List.map_map, List.map_append, List.map_map, List.map_map] at hslots
    rw [← map_slot_factories h]
    exact hslots

theorem pointTable_wellFormed : pointTable.WellFormed where
  members := by simp [pointTable, SymbolTable.classes, SymbolTable.lookup, Record.asClass?,
    Record.id]
  typed := by decide
  bases := by simp [pointTable, Record.types, SymbolTable.HasBase, SymbolTable.lookup, Record.id,
    TypeRef.of, Record.isType]

/-- The class of the run has one constructor. -/
theorem slots_bound_point : ∃ g, generate pointTable pointConfig = .ok g ∧
    g.classes.map (fun output => output.delegate.factorySlots) = [["__factory0"]] ∧
    ∃ bindings : List (String × String),
      bindings.map (fun b => some b.1) =
        some "Wrapper_Point::__factory0" :: g.wrapped.map FunctionWrapper.slot ∧
      ∀ b ∈ bindings, ∀ header, (g.librarySource header).DefinesSymbol b.2 := by
  let point : ClassRecord := { id := ⟨"_1"⟩, name := "Point", members := [⟨"_2"⟩] }
  have horder : runOrder pointTable pointConfig = [point] := by cbv
  have hplans : ((ofRun pointTable pointConfig).planClass point).map (fun plan =>
      (plan.slots.map Prod.fst, plan.names.delegate.long)) =
        .ok (["__factory0"], "Wrapper_Point") := by cbv
  obtain ⟨g, hg⟩ :=
    succeeds_generate pointTable_wellFormed (show pointConfig.validate = .ok () by cbv)
  obtain ⟨-, bindings, -, hslots, -, hdefined⟩ := slots_bound hg
  have hpairs := forall₂_classes hg
  rw [horder, List.forall₂_cons_left_iff] at hpairs
  obtain ⟨output, others, ⟨counter, plan, hplan, rfl⟩, hothers, hclasses⟩ := hpairs
  obtain rfl := List.forall₂_nil_left_iff.1 hothers
  rw [hplan] at hplans
  obtain ⟨hnames, hlong⟩ := Prod.mk.inj (Except.ok.inj hplans)
  have hfactorySlots : ((ofRun pointTable pointConfig).outputOf counter point
      plan).delegate.factorySlots = ["__factory0"] := hnames
  refine ⟨g, hg, ?_, bindings, ?_, hdefined⟩
  · rw [hclasses, List.map_singleton, hfactorySlots]
  · rw [hslots, hclasses, List.flatMap_singleton, hfactorySlots]
    exact congrArg (fun long => some (long ++ "::" ++ "__factory0") :: _) hlong

end GenerationOutput

end LoadBridge
