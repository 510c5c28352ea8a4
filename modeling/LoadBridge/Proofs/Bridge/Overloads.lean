import LoadBridge.Proofs.Bridge.Declarations

/-!
# Bridge — Declarations that repeat

A plan lists every arity of every callable by itself and gives arities of several callables one
name, so declarations made from it can repeat.

* Where functions have free names, **no declaration repeats but those of two planned arities**
  (`nodup_interfaceDeclared_iff`, `nodup_delegateFunctions_iff`); a constructor can repeat one that
  every Delegate has, too (`nodup_delegateConstructors_iff`).
* It is not enough that the callables of the class differ (`declared_twice`).  It is enough that
  they differ in all their arities, as each side spells them (`OverloadsApart`).
-/

namespace LoadBridge

namespace Context

variable {ctx : Context} {c : ClassRecord} {plan : ClassPlan} {members : List OwnedMember}
  {p q : PlannedCallable}

/-! ### What repeats -/

/-- All functions that are offered have free names. -/
def FreelyNamed (ctx : Context) (members : List OwnedMember) : Prop :=
  ∀ item ∈ members, item.2.isOfferedFunction = true →
    item.2.IsFreelyNamed ctx.affixes (fieldNames members)

instance (members : List OwnedMember) : Decidable (ctx.FreelyNamed members) :=
  inferInstanceAs (Decidable (∀ item ∈ members, item.2.isOfferedFunction = true →
    item.2.IsFreelyNamed ctx.affixes (fieldNames members)))

theorem FreelyNamed.method (hfree : ctx.FreelyNamed members) (h : ctx.planClass c = .ok plan)
    (hmembers : ctx.collectMembers c = .ok members) (hp : p ∈ plan.methods) :
    p.member.IsFreelyNamed ctx.affixes (fieldNames members) := by
  obtain ⟨item, hitem, hmember, -, hoffered, -⟩ := exists_item_of_mem_methods h hmembers hp
  exact hmember ▸ hfree item hitem hoffered

/-- **In the Interface only methods repeat.** -/
theorem nodup_interfaceDeclared_iff (h : ctx.planClass c = .ok plan)
    (hmembers : ctx.collectMembers c = .ok members) (hfields : (fieldNames members).Nodup)
    (hfree : ctx.FreelyNamed members) : (ctx.interfaceDeclared plan).Nodup ↔
      plan.methods.Pairwise fun p q => ctx.inInterface p ≠ ctx.inInterface q := by
  have hrest := nodup_fixedEntries h (nodup_names_fields h hmembers hfields)
  have hdeclared : ctx.interfaceDeclared plan = plan.methods.map ctx.inInterface ++
      (plan.fixedEntries.map (ctx.declaredEntry plan) ++ [declaredHook]) := by
    rw [interfaceDeclared, ClassPlan.entryPoints_eq, List.map_append, List.map_map,
      List.append_assoc]
    rfl
  rw [hdeclared, List.nodup_append, ← List.pairwise_map]
  refine ⟨And.left, fun hmethods => ⟨hmethods, hrest, ?_⟩⟩
  rintro _ hx d hd rfl
  obtain ⟨p, hp, rfl⟩ := List.mem_map.1 hx
  have hnamed := hfree.method h hmembers hp
  have hname := interfaceName_cases (of_mem_methods h hp)
  rcases List.mem_append.1 hd with hd | hd
  · -- an accessor or a hook: its name is suffixed, and is not made of what a function's is made of
    obtain ⟨e, he, heq⟩ := List.mem_map.1 hd
    have hsuffixed : p.interfaceName = ctx.affixes.suffixed e.stem :=
      (congrArg Declared.name heq).symm.trans (name_of_mem_fixedEntries h he)
    have hstem : e.stem ∈ fixedStems (fieldNames members) :=
      fixedStems_subset (names_fields_subset h hmembers)
        (plan.sublist_stems.subset (List.mem_map_of_mem he))
    rcases hname with hname | hname
    · refine hnamed.unsuffixed ?_
      rw [← hname, hsuffixed]
      exact ctx.affixes.isSuffix_suffixed _
    · rw [hname, NameAffixes.suffixed_inj] at hsuffixed
      exact hnamed.stem (hsuffixed ▸ hstem)
  · -- the hook that makes the companion
    have hcreation : p.interfaceName = "init_wrapper" :=
      congrArg Declared.name (List.mem_singleton.1 hd)
    refine hnamed.creation ?_
    rcases hname with hname | hname <;> simp [← hcreation, hname]

/-- **Among the member functions of the Delegate only methods repeat.** -/
theorem nodup_delegateFunctions_iff (h : ctx.planClass c = .ok plan)
    (hmembers : ctx.collectMembers c = .ok members) (hfree : ctx.FreelyNamed members) :
    (ctx.delegateFunctions plan).Nodup ↔
      plan.methods.Pairwise fun p q => ctx.inDelegate p ≠ ctx.inDelegate q := by
  rw [delegateFunctions, List.nodup_append, ← List.pairwise_map]
  refine ⟨And.left, fun hmethods => ⟨hmethods, by simp, ?_⟩⟩
  rintro _ hx d hd rfl
  obtain ⟨p, hp, rfl⟩ := List.mem_map.1 hx
  refine (hfree.method h hmembers hp).life ?_
  rcases List.mem_pair.1 hd with hd | hd <;>
    simp [show p.member.writtenName = _ from congrArg Declared.name hd]

/-- **Among the constructors of the Delegate** repeat those of the class, each other or one that
every Delegate has. -/
theorem nodup_delegateConstructors_iff (ctx : Context) (plan : ClassPlan) :
    (ctx.delegateConstructors plan).Nodup ↔
      (plan.constructors.Pairwise fun p q => ctx.delegateTypes p.args ≠ ctx.delegateTypes q.args) ∧
      ∀ p ∈ plan.constructors,
        ctx.delegateTypes p.args ∉ [ctx.adoptingParams plan, ctx.copyParams plan] := by
  have hinj (params params' : List String) :
      constructorOf plan params = constructorOf plan params' ↔ params = params' := by
    simp [constructorOf]
  have hfixed : [constructorOf plan (ctx.adoptingParams plan),
      constructorOf plan (ctx.copyParams plan)].Nodup := by
    simp [hinj, adoptingParams, copyParams]
  have hown :
      (plan.constructors.map fun p => constructorOf plan (ctx.delegateTypes p.args)).Nodup ↔
      plan.constructors.Pairwise fun p q =>
        ctx.delegateTypes p.args ≠ ctx.delegateTypes q.args := by
    rw [List.Nodup, List.pairwise_map]
    simp only [ne_eq, hinj]
  rw [delegateConstructors, List.nodup_append, hown]
  refine and_congr_right fun _ => ⟨fun hall p hp hmem => ?_, fun hapart => ⟨hfixed, ?_⟩⟩
  · exact hall.2 _ (List.mem_map_of_mem hp) _ (by simpa [hinj] using hmem) rfl
  · rintro _ hx d hd rfl
    obtain ⟨p, hp, rfl⟩ := List.mem_map.1 hx
    exact hapart p hp (by simpa [hinj] using hd)

/-! ### Overloads -/

/-- Callables that differ in all their arities, as `types` spells their arguments. -/
def ApartIn (types : List Argument → List String) (m n : MemberRecord) : Prop :=
  ∀ x ∈ arities m.args, ∀ y ∈ arities n.args, types x.args ≠ types y.args

instance (types : List Argument → List String) (m n : MemberRecord) :
    Decidable (ApartIn types m n) :=
  inferInstanceAs (Decidable (∀ x ∈ arities m.args, ∀ y ∈ arities n.args,
    types x.args ≠ types y.args))

/-- The callables that a class offers differ in all their arities: functions that can share a name
on a side as it spells them, and constructors from each other and from those that every Delegate
has. -/
structure OverloadsApart (ctx : Context) (plan : ClassPlan) (members : List OwnedMember) :
    Prop where
  interface : members.Pairwise fun a b => a.2.isOfferedFunction = true →
    b.2.isOfferedFunction = true → a.2.SharesName b.2 → a.2.isConst = b.2.isConst →
      ApartIn ctx.interfaceTypes a.2 b.2
  delegate : members.Pairwise fun a b => a.2.isOfferedFunction = true →
    b.2.isOfferedFunction = true → a.2.writtenName = b.2.writtenName →
      a.2.isConst = b.2.isConst → ApartIn ctx.delegateTypes a.2 b.2
  constructors : members.Pairwise fun a b => isFactoryConstructor plan.record a = true →
    isFactoryConstructor plan.record b = true → ApartIn ctx.delegateTypes a.2 b.2
  fixed : ∀ item ∈ members, isFactoryConstructor plan.record item = true →
    ∀ x ∈ arities item.2.args,
      ctx.delegateTypes x.args ∉ [ctx.adoptingParams plan, ctx.copyParams plan]

/-- Functions that are declared under one name in the Interface can share a name. -/
theorem sharesName_of_interfaceName_eq {fields : List String} (hp : p.IsMethodOf ctx c)
    (hq : q.IsMethodOf ctx c) (hpfree : p.member.IsFreelyNamed ctx.affixes fields)
    (hqfree : q.member.IsFreelyNamed ctx.affixes fields)
    (h : p.interfaceName = q.interfaceName) : p.member.SharesName q.member := by
  rcases interfaceName_cases hp with hpname | hpname <;>
    rcases interfaceName_cases hq with hqname | hqname <;> rw [hpname, hqname] at h
  · exact .inl h
  · exact absurd (h ▸ ctx.affixes.isSuffix_suffixed _) hpfree.unsuffixed
  · exact absurd (h ▸ ctx.affixes.isSuffix_suffixed _) hqfree.unsuffixed
  · exact .inr (NameAffixes.suffixed_inj.1 h)

/-- Declarations of methods are apart where those of any two arities of two members are. -/
theorem pairwise_declared {declare : PlannedCallable → Declared} (h : ctx.planClass c = .ok plan)
    (hmembers : ctx.collectMembers c = .ok members)
    (hparams : ∀ p, (declare p).params.length = p.args.length)
    (htwo : members.Pairwise fun a b => a.2.isOfferedFunction = true →
      b.2.isOfferedFunction = true → ∀ p q : PlannedCallable, p.IsMethodOf ctx c →
      q.IsMethodOf ctx c → p.member = a.2 → q.member = b.2 → declare p ≠ declare q) :
    plan.methods.Pairwise fun p q => declare p ≠ declare q := by
  refine pairwise_methods h hmembers (fun p q hlength heq => hlength ?_) htwo
  rw [← hparams p, heq, hparams]

theorem OverloadsApart.pairwise_inInterface (hoverloads : ctx.OverloadsApart plan members)
    (h : ctx.planClass c = .ok plan) (hmembers : ctx.collectMembers c = .ok members)
    (hfree : ctx.FreelyNamed members) :
    plan.methods.Pairwise fun p q => ctx.inInterface p ≠ ctx.inInterface q := by
  have hlength (p : PlannedCallable) : (ctx.inInterface p).params.length = p.args.length :=
    List.length_map _
  refine pairwise_declared h hmembers hlength (hoverloads.interface.imp_of_mem ?_)
  intro a b ha hb hab hoa hob p q hp hq hpa hqb heq
  have hpfree := hpa ▸ hfree a ha hoa
  have hqfree := hqb ▸ hfree b hb hob
  have hshares := sharesName_of_interfaceName_eq hp hq hpfree hqfree (congrArg Declared.name heq)
  have hconst : p.member.isConst = q.member.isConst := congrArg Declared.isConst heq
  have hparams : ctx.interfaceTypes p.args = ctx.interfaceTypes q.args :=
    congrArg Declared.params heq
  rw [hpa, hqb] at hshares hconst
  exact hab hoa hob hshares hconst _ (hpa ▸ hp.arity) _ (hqb ▸ hq.arity) hparams

theorem OverloadsApart.pairwise_inDelegate (hoverloads : ctx.OverloadsApart plan members)
    (h : ctx.planClass c = .ok plan) (hmembers : ctx.collectMembers c = .ok members) :
    plan.methods.Pairwise fun p q => ctx.inDelegate p ≠ ctx.inDelegate q := by
  have hlength (p : PlannedCallable) : (ctx.inDelegate p).params.length = p.args.length :=
    List.length_map _
  refine pairwise_declared h hmembers hlength (hoverloads.delegate.imp fun {a b} hab => ?_)
  intro hoa hob p q hp hq hpa hqb heq
  have hname : p.member.writtenName = q.member.writtenName := congrArg Declared.name heq
  have hconst : p.member.isConst = q.member.isConst := congrArg Declared.isConst heq
  have hparams : ctx.delegateTypes p.args = ctx.delegateTypes q.args :=
    congrArg Declared.params heq
  rw [hpa, hqb] at hname hconst
  exact hab hoa hob hname hconst _ (hpa ▸ hp.arity) _ (hqb ▸ hq.arity) hparams

theorem OverloadsApart.pairwise_delegateTypes (hoverloads : ctx.OverloadsApart plan members)
    (h : ctx.planClass c = .ok plan) (hmembers : ctx.collectMembers c = .ok members) :
    plan.constructors.Pairwise fun p q =>
      ctx.delegateTypes p.args ≠ ctx.delegateTypes q.args := by
  obtain rfl := record_of_planClass h
  refine pairwise_constructors h hmembers ?_ (hoverloads.constructors.imp fun {a b} hab => ?_)
  · intro p q hlength heq
    exact hlength (by simpa [delegateTypes] using congrArg List.length heq)
  · intro ha hb p q hp hq hpa hqb
    exact hab ha hb _ (hpa ▸ hp.arity) _ (hqb ▸ hq.arity)

theorem OverloadsApart.not_mem_fixed (hoverloads : ctx.OverloadsApart plan members)
    (h : ctx.planClass c = .ok plan) (hmembers : ctx.collectMembers c = .ok members)
    (hp : p ∈ plan.constructors) :
    ctx.delegateTypes p.args ∉ [ctx.adoptingParams plan, ctx.copyParams plan] := by
  obtain rfl := record_of_planClass h
  have harity := (of_mem_constructors h hp).1.arity
  obtain ⟨entry, hentry, hconstructor⟩ := List.mem_filterMap.1 hp
  obtain ⟨item, hitem, hfrom⟩ := exists_item_of_mem_items h hmembers hentry
  cases entry <;> cases hconstructor
  exact hoverloads.fixed item hitem hfrom.2 _ (hfrom.1 ▸ harity)

/-- **Declarations repeat only where overloads do.**  Where fields have names of their own and
functions have free names, a declaration that repeats in the Interface or in the Delegate comes from
two planned arities of methods, or from a planned arity of a constructor.  None repeats where the
callables of the class differ in all their arities. -/
theorem declared_once (h : ctx.planClass c = .ok plan)
    (hmembers : ctx.collectMembers c = .ok members) (hfields : (fieldNames members).Nodup)
    (hfree : ctx.FreelyNamed members) :
    ((ctx.interfaceDeclared plan).Nodup ↔
      plan.methods.Pairwise fun p q => ctx.inInterface p ≠ ctx.inInterface q) ∧
    ((ctx.delegateFunctions plan).Nodup ↔
      plan.methods.Pairwise fun p q => ctx.inDelegate p ≠ ctx.inDelegate q) ∧
    ((ctx.delegateConstructors plan).Nodup ↔
      (plan.constructors.Pairwise fun p q => ctx.delegateTypes p.args ≠ ctx.delegateTypes q.args) ∧
      ∀ p ∈ plan.constructors,
        ctx.delegateTypes p.args ∉ [ctx.adoptingParams plan, ctx.copyParams plan]) ∧
    (ctx.OverloadsApart plan members → (ctx.interfaceDeclared plan).Nodup ∧
      (ctx.delegateFunctions plan).Nodup ∧ (ctx.delegateConstructors plan).Nodup) := by
  have hinterface := nodup_interfaceDeclared_iff h hmembers hfields hfree
  have hfunctions := nodup_delegateFunctions_iff h hmembers hfree
  have hconstructors := nodup_delegateConstructors_iff ctx plan
  refine ⟨hinterface, hfunctions, hconstructors, fun hoverloads => ⟨?_, ?_, ?_⟩⟩
  · exact hinterface.2 (hoverloads.pairwise_inInterface h hmembers hfree)
  · exact hfunctions.2 (hoverloads.pairwise_inDelegate h hmembers)
  · exact hconstructors.2 ⟨hoverloads.pairwise_delegateTypes h hmembers,
      fun p hp => hoverloads.not_mem_fixed h hmembers hp⟩

/-! ### A class with overloads -/

def gridRecord : ClassRecord where
  id := ⟨"_1"⟩
  name := "Grid"
  members := [⟨"_2"⟩, ⟨"_3"⟩, ⟨"_4"⟩, ⟨"_5"⟩, ⟨"_6"⟩, ⟨"_7"⟩]

/-- Two constructors and two functions `at`, the second ones from `other`; an operator and a field.
The last arguments of the first constructor and of both functions have defaults. -/
def gridMembers (other : TypeRef) : List MemberRecord :=
  let int := TypeRef.named "int"
  let grid := TypeRef.of ⟨"_1"⟩ [] "Grid"
  [{ id := ⟨"_2"⟩, name := "Grid", kind := .constructor, context := ⟨"_1"⟩
     args := [{ type := int }, { type := int, hasDefault := true }] },
    { id := ⟨"_3"⟩, name := "Grid", kind := .constructor, context := ⟨"_1"⟩
      args := [{ type := other }] },
    { id := ⟨"_4"⟩, name := "at", kind := .method, context := ⟨"_1"⟩, type := some int
      args := [{ type := int }, { type := int, hasDefault := true }] },
    { id := ⟨"_5"⟩, name := "at", kind := .method, context := ⟨"_1"⟩, type := some int
      args := [{ type := other }, { type := .named "double", hasDefault := true }] },
    { id := ⟨"_6"⟩, name := "+", kind := .operator, context := ⟨"_1"⟩, type := some grid
      args := [{ type := grid.constant.reference }] },
    { id := ⟨"_7"⟩, name := "width", kind := .field, context := ⟨"_1"⟩, type := some int }]

/-- The members of the class with their owner. -/
def gridItems (other : TypeRef) : List OwnedMember :=
  (gridMembers other).map fun m => (gridRecord, m)

def gridTable (other : TypeRef) : SymbolTable where
  records := .ofClass gridRecord :: (gridMembers other).map .ofMember
  distinct := by simp [gridMembers, gridRecord, Record.id]

/-- The class is loaded. -/
def gridContext (other : TypeRef) : Context :=
  (new (gridTable other) {}).register [⟨[], "Grid"⟩]

theorem declared_once_grid : ∃ plan,
    (gridContext (.named "double")).planClass gridRecord = .ok plan ∧
    ((gridContext (.named "double")).interfaceDeclared plan).length = 7 ∧
    ((gridContext (.named "double")).interfaceDeclared plan).Nodup ∧
    ((gridContext (.named "double")).delegateFunctions plan).Nodup ∧
    ((gridContext (.named "double")).delegateConstructors plan).Nodup := by
  let ctx := gridContext (.named "double")
  have hplan : (ctx.planClass gridRecord).map (fun plan =>
      ((ctx.interfaceDeclared plan).length, ctx.adoptingParams plan, ctx.copyParams plan)) =
      .ok (7, ["Abstract_Grid*", "bool"], ["const Wrapper_Grid&"]) :=
    toOption_eq_some.1 (by decide +kernel)
  have hmembers : ctx.collectMembers gridRecord = .ok (gridItems (.named "double")) :=
    toOption_eq_some.1 (by decide +kernel)
  obtain ⟨plan, hplan, hparts⟩ := map_eq_ok.1 hplan
  obtain ⟨hlength, hparts⟩ := Prod.mk.inj hparts
  obtain ⟨hadopting, hcopy⟩ := Prod.mk.inj hparts
  have hrecord := record_of_planClass hplan
  have hoverloads : ctx.OverloadsApart plan (gridItems (.named "double")) := by
    constructor
    case interface => decide +kernel
    case delegate => decide +kernel
    case constructors =>
      rw [hrecord]
      decide +kernel
    case fixed =>
      rw [hrecord, hadopting, hcopy]
      decide +kernel
  obtain ⟨-, -, -, hnodup⟩ := declared_once hplan hmembers (by decide +kernel) (by decide +kernel)
  exact ⟨plan, hplan, hlength, hnodup hoverloads⟩

/-- **Declarations can repeat though the callables of a class differ**: in the Interface, among the
member functions of the Delegate and among its constructors.  Both functions have the shorter arity
`at(int)`, and one constructor is the shorter arity of the other. -/
theorem declared_twice : ∃ plan,
    (gridContext (.named "int")).planClass gridRecord = .ok plan ∧
    (gridContext (.named "int")).collectMembers gridRecord = .ok (gridItems (.named "int")) ∧
    ((gridMembers (.named "int")).map fun m =>
      (m.writtenName, m.args.map Argument.type, m.isConst)).Nodup ∧
    (fieldNames (gridItems (.named "int"))).Nodup ∧
    (gridContext (.named "int")).FreelyNamed (gridItems (.named "int")) ∧
    (gridContext (.named "int")).affixes.codeSuffix ≠ "" ∧
    ¬ ((gridContext (.named "int")).interfaceDeclared plan).Nodup ∧
    ¬ ((gridContext (.named "int")).delegateFunctions plan).Nodup ∧
    ¬ ((gridContext (.named "int")).delegateConstructors plan).Nodup := by
  let ctx := gridContext (.named "int")
  have hplan : (ctx.planClass gridRecord).map (fun plan =>
      (decide (ctx.interfaceDeclared plan).Nodup, decide (ctx.delegateFunctions plan).Nodup,
        decide (ctx.delegateConstructors plan).Nodup)) = .ok (false, false, false) :=
    toOption_eq_some.1 (by decide +kernel)
  obtain ⟨plan, hplan, hrepeat⟩ := map_eq_ok.1 hplan
  obtain ⟨hinterface, hrepeat⟩ := Prod.mk.inj hrepeat
  obtain ⟨hfunctions, hconstructors⟩ := Prod.mk.inj hrepeat
  exact ⟨plan, hplan, toOption_eq_some.1 (by decide +kernel), by decide +kernel,
    by decide +kernel, by decide +kernel, by decide +kernel, of_decide_eq_false hinterface,
    of_decide_eq_false hfunctions, of_decide_eq_false hconstructors⟩

end Context

end LoadBridge
