import LoadBridge.Proofs.Bridge.Exposure

/-!
# Bridge — Whose members a class exposes

The ancestors whose members a class takes over are those that it reaches through classes that are
not loaded (`Context.mem_unloadedAncestors`).  The access of a base is noted and read nowhere: what
a plan exposes is public where it is declared, and comes from the class or from such an ancestor,
and every such ancestor counts (`Context.exposed_reachable`).  So the members of a private parent
are exposed (`Context.private_base_exposed`).
-/

namespace LoadBridge

namespace SymbolTable

/-- A direct parent of a class, inherited publicly. -/
def IsPublicBase (t : SymbolTable) (c parent : ClassRecord) : Prop :=
  ∃ base ∈ c.bases, t.lookup base.id = some (.ofClass parent) ∧ base.access = .forAll

end SymbolTable

namespace Context

variable {ctx : Context} {c a parent : ClassRecord} {m : MemberRecord} {item : OwnedMember}
  {plan : ClassPlan}

/-! ### Ancestors that are not loaded -/

/-- A direct parent of a class that is a class without generated names. -/
def IsUnloadedBase (ctx : Context) (c parent : ClassRecord) : Prop :=
  (∃ base ∈ c.bases, ctx.table.lookup base.id = some (.ofClass parent)) ∧
    ctx.isLoadedClass parent = false

/-- The walk over identifiers goes to these parents. -/
theorem mirrors_unloadedBasesOf (ctx : Context) :
    ctx.table.Mirrors (fun x y => y ∈ ctx.unloadedBasesOf x) ctx.IsUnloadedBase := by
  have hstep : ctx.IsUnloadedBase = fun c parent =>
      ctx.table.IsBase c parent ∧ (!ctx.isLoadedClass parent) = true := by
    funext c parent
    rw [Bool.not_eq_true']
    rfl
  rw [hstep]
  exact ctx.table.mirrors_basesOf fun c => !ctx.isLoadedClass c

theorem IsUnloadedBase.mem_classes (h : ctx.IsUnloadedBase c parent) :
    parent ∈ ctx.table.classes :=
  ctx.mirrors_unloadedBasesOf.mem_classes h

/-- **The ancestors whose members are taken over** are those that are reached through classes that
are not loaded, whatever the access of the bases. -/
theorem mem_unloadedAncestors (hc : c ∈ ctx.table.classes) :
    a ∈ ctx.unloadedAncestors c ↔ Relation.TransGen ctx.IsUnloadedBase c a := by
  have hfresh : ∀ x, ∀ y ∈ ctx.unloadedBasesOf x, y ∈ ctx.table.classIds := fun _ _ hy =>
    SymbolTable.mem_classIds_of_mem_filter hy
  refine ctx.mirrors_unloadedBasesOf.mem_filterMap_class?_iff hc fun id => ?_
  rw [Graph.mem_spread_iff hfresh]
  simp only [List.mem_singleton, exists_eq_left]

/-! ### What is exposed -/

/-- A member of a class is declared by the class or by an ancestor that is reached through classes
that are not loaded. -/
theorem of_mem_collectMembers {members : List OwnedMember} (hc : c ∈ ctx.table.classes)
    (hmembers : ctx.collectMembers c = .ok members) (hitem : item ∈ members) :
    ctx.table.Declares item.1 item.2 ∧
      Relation.ReflTransGen ctx.IsUnloadedBase c item.1 := by
  obtain ⟨own, inherited, hown, hinherited, rfl⟩ := collectMembers_eq_ok_iff.1 hmembers
  rcases List.mem_append.1 hitem with hitem | hitem
  · obtain ⟨m, hm, rfl⟩ := List.mem_map.1 hitem
    exact ⟨(SymbolTable.declares_iff hown).2 hm, .refl⟩
  · have hfold := foldIn_of_mem_inheritedMembers hinherited hitem
    have howner := SymbolTable.owner_of_mem_foldIn hfold hitem
    exact ⟨(SymbolTable.of_mem_foldIn hfold hitem).1,
      ((mem_unloadedAncestors hc).1 howner).to_reflTransGen⟩

/-- A member that an ancestor can pass on is taken over, or a member of its name is there. -/
theorem exists_mem_collectMembers {members : List OwnedMember} (hc : c ∈ ctx.table.classes)
    (hmembers : ctx.collectMembers c = .ok members)
    (hinherit : ctx.config.load.inheritedMembers = true)
    (ha : Relation.TransGen ctx.IsUnloadedBase c a) (hm : ctx.table.Declares a m)
    (hheir : m.isInheritable = true) : ∃ item ∈ members, item.2.name = m.name := by
  obtain ⟨own, inherited, hown, hinherited, rfl⟩ := collectMembers_eq_ok_iff.1 hmembers
  rw [inheritedMembers, if_pos hinherit] at hinherited
  rcases SymbolTable.seen_or_exists_mem_foldIn hinherited ((mem_unloadedAncestors hc).2 ha) hm
    hheir with hseen | ⟨item, hitem, hsame⟩
  · obtain ⟨other, hother, hsame⟩ := List.mem_map.1 hseen
    exact ⟨(c, other), List.mem_append_left _ (List.mem_map_of_mem hother), hsame⟩
  · exact ⟨item, List.mem_append_right _ hitem, hsame⟩

/-- **What a plan exposes is a public member of the class or of an ancestor that it reaches through
classes that are not loaded.**  The access of bases plays no part: where all these bases are public,
so is the way to the ancestor, and where heirs take members over, each such ancestor passes on its
public methods, operators and fields, unless a member of the name is there. -/
theorem exposed_reachable (hc : c ∈ ctx.table.classes) (h : ctx.planClass c = .ok plan) :
    (∀ item ∈ plan.exposed, ctx.table.Declares item.1 item.2 ∧ item.2.isPublic = true ∧
      Relation.ReflTransGen ctx.IsUnloadedBase c item.1) ∧
    ((∀ a parent, Relation.ReflTransGen ctx.IsUnloadedBase c a → ctx.IsUnloadedBase a parent →
        ctx.table.IsPublicBase a parent) →
      ∀ item ∈ plan.exposed, Relation.ReflTransGen ctx.table.IsPublicBase c item.1) ∧
    (ctx.config.load.inheritedMembers = true → ∃ members, ctx.collectMembers c = .ok members ∧
      ∀ a m, Relation.TransGen ctx.IsUnloadedBase c a → ctx.table.Declares a m →
        m.isInheritable = true → ∃ item ∈ members, item.2.name = m.name) := by
  obtain ⟨_, _, members, _, -, -, hmembers, -, -⟩ := planClass_eq_ok_iff.1 h
  have hreached : ∀ item ∈ plan.exposed, ctx.table.Declares item.1 item.2 ∧
      item.2.isPublic = true ∧ Relation.ReflTransGen ctx.IsUnloadedBase c item.1 := by
    intro item hitem
    obtain ⟨hmem, hpublic, -⟩ := of_mem_exposed h hmembers hitem
    obtain ⟨hdeclares, hreach⟩ := of_mem_collectMembers hc hmembers hmem
    exact ⟨hdeclares, hpublic, hreach⟩
  refine ⟨hreached, fun hpublic item hitem => ?_, fun hinherit => ⟨members, hmembers, ?_⟩⟩
  · have hway : ∀ a, Relation.ReflTransGen ctx.IsUnloadedBase c a →
        Relation.ReflTransGen ctx.table.IsPublicBase c a := by
      intro a ha
      induction ha with
      | refl => exact .refl
      | tail hreach hstep ih => exact ih.tail (hpublic _ _ hreach hstep)
    exact hway item.1 (hreached item hitem).2.2
  · exact fun a m ha hm hheir => exists_mem_collectMembers hc hmembers hinherit ha hm hheir

/-! ### A class with one parent -/

/-- The parent, which is not loaded. -/
def engineRecord : ClassRecord where
  id := ⟨"_1"⟩
  name := "Engine"
  members := [⟨"_3"⟩, ⟨"_4"⟩]

/-- A class that has its parent by this access. -/
def carRecord (access : Access) : ClassRecord where
  id := ⟨"_2"⟩
  name := "Car"
  members := [⟨"_5"⟩]
  bases := [{ id := ⟨"_1"⟩, access }]

def engineMembers : List MemberRecord :=
  [{ id := ⟨"_3"⟩, name := "start", kind := .method, context := ⟨"_1"⟩
     type := some (.named "void") },
    { id := ⟨"_4"⟩, name := "power", kind := .field, context := ⟨"_1"⟩
      type := some (.named "int") }]

def carMembers : List MemberRecord :=
  [{ id := ⟨"_5"⟩, name := "drive", kind := .method, context := ⟨"_2"⟩
     type := some (.named "void") }]

def carTable (access : Access) : SymbolTable where
  records := [.ofClass engineRecord, .ofClass (carRecord access)] ++
    (engineMembers ++ carMembers).map .ofMember
  distinct := by cases access <;> decide

/-- The class is loaded, and heirs take members over. -/
def carContext (access : Access) : Context :=
  (new (carTable access) { load := { inheritedMembers := true } }).register [⟨[], "Car"⟩]

/-- All members of the class, its own and those of its parent. -/
def carItems (access : Access) : List OwnedMember :=
  carMembers.map (fun m => (carRecord access, m)) ++ engineMembers.map fun m => (engineRecord, m)

theorem collectMembers_car (access : Access) :
    (carContext access).collectMembers (carRecord access) = .ok (carItems access) := by
  have hancestors : (carContext access).unloadedAncestors (carRecord access) = [engineRecord] := by
    have hids : (carTable access).classIds = [⟨"_1"⟩, ⟨"_2"⟩] := rfl
    have hcar : (carContext access).unloadedBasesOf ⟨"_2"⟩ = [⟨"_1"⟩] := by
      cases access <;> decide
    have hengine : (carContext access).unloadedBasesOf ⟨"_1"⟩ = [] := by
      cases access <;> decide
    have hwalk : Graph.spread (carContext access).unloadedBasesOf [⟨"_2"⟩] [⟨"_1"⟩, ⟨"_2"⟩] =
        [⟨"_1"⟩] := by
      simp [Graph.spread, Graph.found, Graph.withoutAll, List.eraseDups_cons, hcar, hengine]
    exact congrArg _ hwalk
  refine collectMembers_eq_ok_iff.2 ⟨carMembers, _, ?_, ?_, rfl⟩
  · cases access <;> exact toOption_eq_some.1 (by decide)
  · rw [inheritedMembers, hancestors]
    cases access <;> exact toOption_eq_some.1 (by decide)

/-- The class exposes all of them, whatever the access of its parent. -/
theorem exposed_car (access : Access) : ∃ plan,
    (carContext access).planClass (carRecord access) = .ok plan ∧
      plan.exposed = carItems access := by
  obtain ⟨names, hnames⟩ : ∃ names,
      (carContext access).names.get? (carRecord access).qualifiedName = some names :=
    Option.isSome_iff_exists.1 (by cases access <;> decide)
  have hflags : (carContext access).table.flagsOf (carRecord access) = .ok {} := by
    cases access <;> exact toOption_eq_some.1 (by decide)
  have hitems : ((carItems access).mapM ((carContext access).planMember (carRecord access) {})).map
      (fun items => ClassPlan.exposed { (default : ClassPlan) with items := items.flatten }) =
        .ok (carItems access) := by
    cases access <;> exact toOption_eq_some.1 (by decide)
  obtain ⟨items, hitems, hexposed⟩ := map_eq_ok.1 hitems
  exact ⟨_, planClass_eq_ok_iff.2 ⟨names, {}, _, items, hnames, hflags, collectMembers_car access,
    hitems, rfl⟩, hexposed⟩

theorem exposed_reachable_car : ∃ plan,
    (carContext .forAll).planClass (carRecord .forAll) = .ok plan ∧
      plan.exposed.map (fun item => item.2.name) = ["drive", "start", "power"] ∧
      (∀ item ∈ plan.exposed,
        Relation.ReflTransGen (carTable .forAll).IsPublicBase (carRecord .forAll) item.1) ∧
      ∃ members, (carContext .forAll).collectMembers (carRecord .forAll) = .ok members ∧
        ∃ item ∈ members, item.2.name = "power" := by
  have hclasses : (carTable .forAll).classes = [engineRecord, carRecord .forAll] := rfl
  have hcar : carRecord .forAll ∈ (carTable .forAll).classes := by simp [hclasses]
  have hpublic : ∀ a ∈ (carTable .forAll).classes, ∀ base ∈ a.bases, base.access = .forAll := by
    decide
  have hway : ∀ a parent, Relation.ReflTransGen (carContext .forAll).IsUnloadedBase
      (carRecord .forAll) a → (carContext .forAll).IsUnloadedBase a parent →
        (carTable .forAll).IsPublicBase a parent := by
    rintro a parent hreach ⟨⟨base, hbase, hfound⟩, -⟩
    have ha : a ∈ (carTable .forAll).classes := by
      rcases hreach.cases_tail with rfl | ⟨b, -, hstep⟩
      · exact hcar
      · exact hstep.mem_classes
    exact ⟨base, hbase, hfound, hpublic a ha base hbase⟩
  have hengine : Relation.TransGen (carContext .forAll).IsUnloadedBase (carRecord .forAll)
      engineRecord := by
    refine .single ⟨⟨{ id := ⟨"_1"⟩ }, List.mem_cons_self, ?_⟩, by decide⟩
    decide
  have hpower : (carTable .forAll).Declares engineRecord engineMembers[1] :=
    ⟨⟨"_4"⟩, by simp [engineRecord], by decide⟩
  obtain ⟨plan, hplan, hexposed⟩ := exposed_car .forAll
  obtain ⟨-, hreached, htaken⟩ := exposed_reachable hcar hplan
  obtain ⟨members, hmembers, hall⟩ := htaken rfl
  exact ⟨plan, hplan, by rw [hexposed]; rfl, hreached hway, members, hmembers,
    hall _ _ hengine hpower rfl⟩

/-- **The members of a private parent are exposed.** -/
theorem private_base_exposed :
    (carContext .forSelf).config.load.inheritedMembers = true ∧
      ∃ plan, (carContext .forSelf).planClass (carRecord .forSelf) = .ok plan ∧
        ∃ item ∈ plan.exposed, item.1 = engineRecord ∧
          ¬ Relation.ReflTransGen (carTable .forSelf).IsPublicBase (carRecord .forSelf) item.1 := by
  obtain ⟨plan, hplan, hexposed⟩ := exposed_car .forSelf
  refine ⟨rfl, plan, hplan, (engineRecord, engineMembers[0]), ?_, rfl, fun hreach => ?_⟩
  · rw [hexposed]
    simp [carItems]
  · rcases hreach.cases_head with hsame | ⟨parent, ⟨base, hbase, -, haccess⟩, -⟩
    · exact absurd (congrArg ClassRecord.name hsame) (by decide)
    -- its only base is private
    · obtain rfl := List.mem_singleton.1 hbase
      cases haccess

end Context

end LoadBridge
