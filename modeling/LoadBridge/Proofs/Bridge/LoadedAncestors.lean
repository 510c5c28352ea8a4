import LoadBridge.Proofs.Bridge.Delegate
import LoadBridge.Proofs.Bridge.Emission
import LoadBridge.Proofs.Bridge.Layout
import LoadBridge.Proofs.Bridge.StandardTypes

/-!
# Bridge — The loaded ancestors of a class

The walk over loaded parents visits each class that is reached through loaded ones, once, on cycles
too (`Context.mem_ancestorRecords`), and what is generated for a class makes one call for each of
them (`Context.handsOn_outputOf`).  So the loaded ancestors are the loaded parents and theirs
(`Context.visitsAncestors`).

What a plan reports of a parent is decided by its name without the `::` in front, while the walk
goes by the whole name (`Context.reportsLoaded_iff`).  A name has the same key either way unless
blanks and another `::` follow; where they do, a loaded ancestor may be a parent that is reported as
not loaded (`Context.loaded_parent_unreported`).
-/

namespace LoadBridge

open Code (Item)

/-- A declaration of a class has this in its body. -/
def Code.HasMember (code : Code) (item : Item) : Prop :=
  ∃ head body, .block head body ";" ∈ code.items ∧ item ∈ body.items

/-- Both declarations of an Interface have this in their body. -/
def InterfaceDecl.HasMember (d : InterfaceDecl) (item : Item) : Prop :=
  d.code.HasMember item ∧ d.hostCode.HasMember item

namespace Context

variable {ctx : Context} {c a parent : ClassRecord} {plan : ClassPlan}

/-! ### What is visited -/

/-- A direct parent of a class that is a class with generated names. -/
def IsLoadedBase (ctx : Context) (c parent : ClassRecord) : Prop :=
  ctx.table.IsBase c parent ∧ ctx.isLoadedClass parent = true

theorem mirrors_loadedBasesOf (ctx : Context) :
    ctx.table.Mirrors (fun x y => y ∈ ctx.loadedBasesOf x) ctx.IsLoadedBase :=
  ctx.table.mirrors_basesOf ctx.isLoadedClass

theorem IsLoadedBase.mem_classes (h : ctx.IsLoadedBase c parent) : parent ∈ ctx.table.classes :=
  ctx.mirrors_loadedBasesOf.mem_classes h

/-- The loaded ancestors of a class, furthest first. -/
def ancestorRecords (ctx : Context) (c : ClassRecord) : List ClassRecord :=
  (ctx.loadedAncestorIds c).filterMap ctx.table.class?

theorem mem_classIds_of_mem_loadedBasesOf {x y : RecordId} (hy : y ∈ ctx.loadedBasesOf x) :
    y ∈ ctx.table.classIds :=
  SymbolTable.mem_classIds_of_mem_filter hy

/-- The walk starts from the loaded parents of the class. -/
theorem loadedAncestorIds_eq (hc : c ∈ ctx.table.classes) : ctx.loadedAncestorIds c =
    (Graph.preorder ctx.loadedBasesOf (ctx.loadedBasesOf c.id) ctx.table.classIds).reverse := by
  rw [loadedAncestorIds, ← SymbolTable.basesOf_id hc]
  rfl

/-- **The loaded ancestors are the classes that are reached through loaded ones**, on cycles too. -/
theorem mem_ancestorRecords (hc : c ∈ ctx.table.classes) :
    a ∈ ctx.ancestorRecords c ↔ Relation.TransGen ctx.IsLoadedBase c a := by
  refine ctx.mirrors_loadedBasesOf.mem_filterMap_class?_iff hc fun id => ?_
  rw [loadedAncestorIds_eq hc, List.mem_reverse,
    Graph.mem_preorder_iff (fun _ => mem_classIds_of_mem_loadedBasesOf)
      fun _ _ => mem_classIds_of_mem_loadedBasesOf, Relation.TransGen.head'_iff]

theorem map_id_ancestorRecords (hc : c ∈ ctx.table.classes) :
    (ctx.ancestorRecords c).map ClassRecord.id = ctx.loadedAncestorIds c := by
  refine SymbolTable.map_id_filterMap_class? fun id hid => ?_
  rw [loadedAncestorIds_eq hc, List.mem_reverse] at hid
  exact Graph.mem_fresh_of_mem_preorder hid

/-- No ancestor is visited twice. -/
theorem nodup_ancestorRecords (hc : c ∈ ctx.table.classes) : (ctx.ancestorRecords c).Nodup := by
  refine .of_map ClassRecord.id ?_
  rw [map_id_ancestorRecords hc, loadedAncestorIds, List.nodup_reverse]
  exact Graph.nodup_preorder ..

/-- A loaded ancestor has generated names. -/
theorem isLoadedClass_of_mem_ancestorRecords (hc : c ∈ ctx.table.classes)
    (ha : a ∈ ctx.ancestorRecords c) : ctx.isLoadedClass a = true := by
  obtain ⟨_, -, hlast⟩ := Relation.TransGen.tail'_iff.1 ((mem_ancestorRecords hc).1 ha)
  exact hlast.2

/-- The names of the loaded ancestors are those of the classes visited, one by one. -/
theorem forall₂_loadedAncestors (hc : c ∈ ctx.table.classes) :
    List.Forall₂ (fun a names => ctx.names.get? a.qualifiedName = some names)
      (ctx.ancestorRecords c) (ctx.loadedAncestors c) :=
  pairing_filterMap fun _ ha => isLoadedClass_of_mem_ancestorRecords hc ha

/-- The loaded ancestors are the loaded parents and their loaded ancestors. -/
theorem mem_ancestorRecords_iff_parent (hc : c ∈ ctx.table.classes) :
    a ∈ ctx.ancestorRecords c ↔
      ∃ parent, ctx.IsLoadedBase c parent ∧ (a = parent ∨ a ∈ ctx.ancestorRecords parent) := by
  rw [mem_ancestorRecords hc, Relation.TransGen.head'_iff]
  refine exists_congr fun parent => and_congr_right fun hparent => ?_
  rw [Relation.reflTransGen_iff_eq_or_transGen, mem_ancestorRecords hparent.mem_classes]

/-! ### What a plan reports -/

/-- A plan reports this direct parent as loaded. -/
def ReportsLoaded (ctx : Context) (c parent : ClassRecord) : Prop :=
  ∃ base ∈ c.bases, ctx.table.lookup base.id = some (.ofClass parent) ∧
    ∃ names, (ctx.parentOf base.id).2 = .loaded names

theorem parentStatus_loaded_iff {name : String} : (∃ names, ctx.parentStatus name = .loaded names) ↔
    ctx.names.isLoaded name = true ∧ ctx.names.isLoaded (Name.relative name) = true := by
  rw [NameTable.isLoaded, ← classifyName_eq_loaded_iff, parentStatus]
  constructor
  · rintro ⟨names, h⟩
    split at h
    · next hloaded =>
      split at h
      · next hnames => exact ⟨hnames ▸ rfl, hloaded⟩
      · cases h
    · cases h
    · cases h
  · rintro ⟨hnames, hloaded⟩
    obtain ⟨names, hnames⟩ := Option.isSome_iff_exists.1 hnames
    exact ⟨names, by rw [hloaded, hnames]⟩

/-- **A parent is reported as loaded** where it has generated names and they are found by its name
without the `::` in front, too. -/
theorem reportsLoaded_iff : ctx.ReportsLoaded c parent ↔
    ctx.IsLoadedBase c parent ∧
      ctx.names.isLoaded (Name.relative parent.qualifiedName) = true := by
  have hstatus {base : ParentRecord} (h : ctx.table.lookup base.id = some (.ofClass parent)) :
      (ctx.parentOf base.id).2 = ctx.parentStatus parent.qualifiedName := by
    rw [parentOf, h]
  constructor
  · rintro ⟨base, hbase, hfound, hloaded⟩
    rw [hstatus hfound, parentStatus_loaded_iff] at hloaded
    exact ⟨⟨⟨base, hbase, hfound⟩, hloaded.1⟩, hloaded.2⟩
  · rintro ⟨⟨⟨base, hbase, hfound⟩, hloaded⟩, hrelative⟩
    refine ⟨base, hbase, hfound, ?_⟩
    rw [hstatus hfound, parentStatus_loaded_iff]
    exact ⟨hloaded, hrelative⟩

/-- A name that is found without the `::` in front, too, is reported. -/
theorem IsLoadedBase.reportsLoaded (h : ctx.IsLoadedBase c parent)
    (hkey : Name.key (Name.relative parent.qualifiedName) = Name.key parent.qualifiedName) :
    ctx.ReportsLoaded c parent := by
  refine reportsLoaded_iff.2 ⟨h, ?_⟩
  rw [NameTable.isLoaded, NameTable.get?_congr _ hkey]
  exact h.2

/-! ### What is generated -/

/-- What is generated for a class makes one call for each of these ancestors, in order: where the
companion is set, which is defined after the Delegate, where it is noted who owns the companion,
where an Interface is copied, and where a Delegate takes an Interface object. -/
structure HandsOn (ctx : Context) (plan : ClassPlan) (output : ClassOutput)
    (ancestors : List GeneratedNames) : Prop where
  companion : ancestors ≠ [] →
    .function ("inline void " ++ plan.names.interface.name ++ "::set_wptr(" ++
        plan.names.delegate.name ++ "* wptr_in)")
      ("wptr = wptr_in;" :: ancestors.map fun names =>
        ctx.interfaceName names .generated ++ "::set_wptr(wptr_in);") ∈
      output.delegate.definitions.items
  owner : output.interface.HasMember
    (.line ("void set_delete_wrapper(bool del_wrp_in) \x7b " ++ " ".intercalate
      ("delete_wrapper = del_wrp_in;" :: ancestors.map fun names =>
        ctx.interfaceName names .generated ++ "::set_delete_wrapper(del_wrp_in);") ++ " \x7d"))
  copied : ancestors ≠ [] → output.interface.HasMember
    (.function ((Name.splitTemplate plan.names.interface.name).1 ++ "(const " ++
        plan.names.interface.name ++ "& in)" ++ " : " ++
        ", ".intercalate (ancestors.map fun names => ctx.interfaceName names .generated ++ "(in)"))
      (ctx.protocolOf plan).clearing)
  adopted :
    .function ("inline " ++ plan.names.delegate.name ++ "::" ++ plan.delegateConstructor ++ "(" ++
        plan.names.interface.name ++ "* in, bool owns_target) : " ++ ", ".intercalate
          ((ctx.affixes.delegateRoot ++ "(in, owns_target)") ::
            ancestors.map (fun names => ctx.delegateName names .generated ++ "(in, owns_target)") ++
            plan.fields.map ctx.fieldInitializer))
      delegateLinkBody ∈ output.delegate.definitions.items

/-- What the protocol declares in both builds stands in both declarations. -/
theorem hasMember_of_mem_members {item : Item}
    (h : ∀ flavor, item ∈ ((ctx.protocolOf plan).members flavor).items) :
    (ctx.interfaceOf plan).HasMember item := by
  have hbody (flavor : Flavor) : item ∈ (ctx.interfaceBody plan flavor).items := by
    rw [items_interfaceBody]
    exact List.mem_append_right _ (h flavor)
  constructor
  · refine ⟨ctx.interfaceHead plan, ctx.interfaceBody plan .library, ?_, hbody .library⟩
    rw [items_code]
    exact List.mem_append_right _ List.mem_cons_self
  · refine ⟨ctx.interfaceHead plan, ctx.interfaceBody plan .host, ?_, hbody .host⟩
    rw [items_hostCode]
    exact List.mem_append_right _ List.mem_cons_self

/-- **What is generated makes one call for each loaded ancestor.** -/
theorem handsOn_outputOf (ctx : Context) (counter : Nat) (c : ClassRecord) (plan : ClassPlan) :
    ctx.HandsOn plan (ctx.outputOf counter c plan) plan.loadedAncestors := by
  let protocol := ctx.protocolOf plan
  have hancestors : plan.loadedAncestors ≠ [] → protocol.ancestors.isEmpty = false := by
    intro h
    simpa [protocol, protocolOf] using h
  constructor
  case companion =>
    intro hne
    have hsetter : protocol.definitions.items =
        [.function ("inline void " ++ protocol.interface ++ "::set_wptr(" ++ protocol.delegate ++
            "* wptr_in)")
          ("wptr = wptr_in;" :: protocol.ancestors.map (· ++ "::set_wptr(wptr_in);"))] := by
      rw [InterfaceProtocol.definitions, hancestors hne]
      rfl
    rw [outputOf, delegateOf, items_delegateDefinitions, hsetter]
    simp [protocol, protocolOf, Function.comp_def]
  case owner =>
    refine hasMember_of_mem_members fun flavor => ?_
    rw [InterfaceProtocol.items_members, InterfaceProtocol.items_companionMembers]
    simp [protocolOf, Function.comp_def]
  case copied =>
    intro hne
    refine hasMember_of_mem_members fun flavor => ?_
    rw [InterfaceProtocol.items_members, InterfaceProtocol.constructors, hancestors hne]
    simp [protocolOf, Function.comp_def, InterfaceProtocol.constructorName]
  case adopted =>
    rw [outputOf, delegateOf, items_delegateDefinitions]
    refine List.mem_append_right _ ?_
    simp [lifeItems, adoptingItem, EntryPoint.caller]

/-! ### Visited, reported and reached -/

/-- Names that tell the ancestors apart come up once. -/
theorem nodup_loadedAncestors (hc : c ∈ ctx.table.classes)
    (hnames : ∀ a ∈ ctx.ancestorRecords c, ∀ b ∈ ctx.ancestorRecords c,
      ctx.names.get? a.qualifiedName = ctx.names.get? b.qualifiedName → a = b) :
    (ctx.loadedAncestors c).Nodup := by
  have hapart : (ctx.ancestorRecords c).Pairwise fun a b =>
      ctx.names.get? a.qualifiedName ≠ ctx.names.get? b.qualifiedName :=
    (nodup_ancestorRecords hc).imp_of_mem fun ha hb hne heq => hne (hnames _ ha _ hb heq)
  refine pairwise_of_pairing (forall₂_loadedAncestors hc) hapart fun a b na nb ha hb hne heq => ?_
  exact hne (by rw [ha, hb, heq])

/-- How the loaded ancestors of a class are visited, and what comes of it. -/
structure VisitsAncestors (ctx : Context) (c : ClassRecord) : Prop where
  /-- The classes that are reached through loaded ones are visited, on cycles too, and no other. -/
  reached : ∀ a, a ∈ ctx.ancestorRecords c ↔ Relation.TransGen ctx.IsLoadedBase c a
  /-- No class is visited twice. -/
  once : (ctx.ancestorRecords c).Nodup
  /-- The loaded ancestors are the names of the classes that are visited, one by one. -/
  named : List.Forall₂ (fun a names => ctx.names.get? a.qualifiedName = some names)
    (ctx.ancestorRecords c) (ctx.loadedAncestors c)
  /-- None of them comes up twice, unless two of the classes go by one name. -/
  distinct : (∀ a ∈ ctx.ancestorRecords c, ∀ b ∈ ctx.ancestorRecords c,
      ctx.names.get? a.qualifiedName = ctx.names.get? b.qualifiedName → a = b) →
    (ctx.loadedAncestors c).Nodup
  /-- The classes are the loaded parents and their loaded ancestors. -/
  union : ∀ a, a ∈ ctx.ancestorRecords c ↔
    ∃ parent, ctx.IsLoadedBase c parent ∧ (a = parent ∨ a ∈ ctx.ancestorRecords parent)
  /-- A plan reports the loaded parents whose names are found without the `::` in front, too. -/
  reports : ∀ parent, ctx.ReportsLoaded c parent ↔ ctx.IsLoadedBase c parent ∧
    ctx.names.isLoaded (Name.relative parent.qualifiedName) = true
  /-- Where the `::` in front makes no difference, the classes are the parents that are reported as
  loaded and their loaded ancestors. -/
  reported : (∀ parent, ctx.IsLoadedBase c parent →
      Name.key (Name.relative parent.qualifiedName) = Name.key parent.qualifiedName) →
    ∀ a, a ∈ ctx.ancestorRecords c ↔
      ∃ parent, ctx.ReportsLoaded c parent ∧ (a = parent ∨ a ∈ ctx.ancestorRecords parent)
  /-- What is generated makes one call for each of them. -/
  generated : ∀ counter plan, ctx.planClass c = .ok plan →
    ctx.HandsOn plan (ctx.outputOf counter c plan) (ctx.loadedAncestors c)

/-- **Each loaded ancestor is visited once.**  For every table, cyclic or not, every name table and
every class, the walk visits each class that is reached through loaded ones once, the names of these
classes are the loaded ancestors, and what is generated makes one call for each of them.  They are
the loaded parents and their loaded ancestors: those that a plan reports, where the `::` in front of
a parent's name makes no difference. -/
theorem visitsAncestors (hc : c ∈ ctx.table.classes) : ctx.VisitsAncestors c where
  reached := fun _ => mem_ancestorRecords hc
  once := nodup_ancestorRecords hc
  named := forall₂_loadedAncestors hc
  distinct := nodup_loadedAncestors hc
  union := fun _ => mem_ancestorRecords_iff_parent hc
  reports := fun _ => reportsLoaded_iff
  reported := by
    intro hkeys a
    rw [mem_ancestorRecords_iff_parent hc]
    refine exists_congr fun parent => and_congr_left fun _ => ?_
    exact ⟨fun h => h.reportsLoaded (hkeys parent h), fun h => (reportsLoaded_iff.1 h).1⟩
  generated := by
    intro counter plan hplan
    rw [← (of_planClass hplan).2.2]
    exact ctx.handsOn_outputOf counter c plan

/-- The diamond with all its classes loaded. -/
def diamondContext : Context :=
  (new GenerationOutput.diamondTable GenerationOutput.diamondConfig).register
    [⟨[], "A"⟩, ⟨[], "B"⟩, ⟨[], "C"⟩, ⟨[], "D"⟩]

/-- The class at the bottom of the diamond. -/
def diamondBottom : ClassRecord where
  id := ⟨"_4"⟩
  name := "D"
  bases := [{ id := ⟨"_2"⟩ }, { id := ⟨"_3"⟩ }]

theorem visitsAncestors_diamond : diamondBottom ∈ diamondContext.table.classes ∧
    (diamondContext.ancestorRecords diamondBottom).map ClassRecord.name = ["C", "A", "B"] ∧
    (diamondContext.loadedAncestors diamondBottom).Nodup ∧
    (∀ a, a ∈ diamondContext.ancestorRecords diamondBottom ↔
      ∃ parent, diamondContext.ReportsLoaded diamondBottom parent ∧
        (a = parent ∨ a ∈ diamondContext.ancestorRecords parent)) ∧
    ∃ plan, diamondContext.planClass diamondBottom = .ok plan ∧
      .function "inline void Abstract_D::set_wptr(Wrapper_D* wptr_in)"
        ["wptr = wptr_in;", "Abstract_C::set_wptr(wptr_in);", "Abstract_A::set_wptr(wptr_in);",
          "Abstract_B::set_wptr(wptr_in);"] ∈
        (diamondContext.outputOf 0 diamondBottom plan).delegate.definitions.items := by
  have hc : diamondBottom ∈ diamondContext.table.classes := by decide
  have hvisits : diamondContext.VisitsAncestors diamondBottom := visitsAncestors hc
  have hcalls : ((diamondContext.loadedAncestors diamondBottom).map fun names =>
      diamondContext.interfaceName names .generated ++ "::set_wptr(wptr_in);") =
        ["Abstract_C::set_wptr(wptr_in);", "Abstract_A::set_wptr(wptr_in);",
          "Abstract_B::set_wptr(wptr_in);"] := by cbv
  have hkeys : ∀ a ∈ diamondContext.table.classes,
      Name.key (Name.relative a.qualifiedName) = Name.key a.qualifiedName := by decide
  have hapart : ∀ a ∈ diamondContext.table.classes, ∀ b ∈ diamondContext.table.classes,
      diamondContext.names.get? a.qualifiedName = diamondContext.names.get? b.qualifiedName →
        a = b := by decide
  have hvisited : ∀ a ∈ diamondContext.ancestorRecords diamondBottom,
      a ∈ diamondContext.table.classes := fun a ha =>
    diamondContext.mirrors_loadedBasesOf.mem_classes_of_transGen ((hvisits.reached a).1 ha)
  refine ⟨hc, by cbv, ?_, ?_, ?_⟩
  · exact hvisits.distinct fun a ha b hb => hapart a (hvisited a ha) b (hvisited b hb)
  · exact hvisits.reported fun parent hparent => hkeys parent hparent.mem_classes
  · have hflags : diamondContext.table.flagsOf diamondBottom = .ok {} :=
      toOption_eq_some.1 (by decide)
    have hmembers : diamondContext.collectMembers diamondBottom = .ok [] :=
      toOption_eq_some.1 (by decide)
    have hplan := planClass_eq_ok_iff.2 ⟨_, _, _, [], rfl, hflags, hmembers, rfl, rfl⟩
    have hsome : diamondContext.loadedAncestors diamondBottom ≠ [] := by
      intro hnone
      rw [hnone] at hcalls
      cases hcalls
    have hset := (hvisits.generated 0 _ hplan).companion hsome
    rw [hcalls] at hset
    exact ⟨_, hplan, hset⟩

/-! ### A parent in a blank scope -/

/-- A class in a scope that is a blank. -/
def blankScopedRecord : ClassRecord where
  id := ⟨"_1"⟩
  name := "Shape"
  scope := ["", " "]

/-- Its heir. -/
def blankScopedHeir : ClassRecord where
  id := ⟨"_2"⟩
  name := "Circle"
  bases := [{ id := ⟨"_1"⟩ }]

/-- Both are loaded. -/
def blankScopedContext : Context :=
  (new ⟨[.ofClass blankScopedRecord, .ofClass blankScopedHeir], by decide⟩ {}).register
    [⟨["", " "], "Shape"⟩, ⟨[], "Circle"⟩]

/-- **A loaded ancestor is a parent that is reported as not loaded**, though no class is its own
ancestor.  The name `:: ::Shape` is found; without the `::` in front it is not. -/
theorem loaded_parent_unreported : blankScopedContext.table.BasesAcyclic ∧
    blankScopedHeir ∈ blankScopedContext.table.classes ∧
    blankScopedContext.ancestorRecords blankScopedHeir = [blankScopedRecord] ∧
    (blankScopedContext.parentsOf blankScopedHeir).map (fun p => (p.name, p.status)) =
      [(":: ::Shape", .notLoaded)] ∧
    ¬ ∀ a, a ∈ blankScopedContext.ancestorRecords blankScopedHeir ↔
      ∃ parent, blankScopedContext.ReportsLoaded blankScopedHeir parent ∧
        (a = parent ∨ a ∈ blankScopedContext.ancestorRecords parent) := by
  have hacyclic : blankScopedContext.table.BasesAcyclic := by
    refine SymbolTable.basesAcyclic_of_rank (fun id => if id = ⟨"_2"⟩ then 1 else 0) ?_
    decide
  have hancestors : blankScopedContext.ancestorRecords blankScopedHeir = [blankScopedRecord] := by
    cbv
  have hstatus : (blankScopedContext.parentsOf blankScopedHeir).map (fun p => (p.name, p.status)) =
      [(":: ::Shape", .notLoaded)] := by decide
  refine ⟨hacyclic, by decide, hancestors, hstatus, fun hunion => ?_⟩
  obtain ⟨parent, ⟨base, hbase, -, names, hloaded⟩, -⟩ :=
    (hunion blankScopedRecord).1 (by rw [hancestors]; exact List.mem_cons_self)
  obtain rfl := List.mem_singleton.1 hbase
  have hunloaded : (blankScopedContext.parentOf ⟨"_1"⟩).2 = .notLoaded := by decide
  cases hunloaded.symm.trans hloaded

end Context

end LoadBridge
