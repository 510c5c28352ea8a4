import LoadBridge.Proofs.Bridge.Copying
import LoadBridge.Proofs.Bridge.Slots

/-!
# Bridge — Objects of abstract classes

A class is abstract when it leaves a name pure (`SymbolTable.LeavesPure`): it, or a parent, declares
a pure virtual member of that name, and no class on the way down to it declares another one.

A plan judges a class by the members that the class declares itself.  So no object is made of a
class that declares a pure virtual member, nor of an abstract one that redeclares what its parents
leave pure (`Context.abstract_not_made`).  Of a class that is abstract through its parents alone,
objects are made and copied (`Context.abstract_made`).
-/

namespace LoadBridge

namespace SymbolTable

variable {t : SymbolTable} {c : ClassRecord} {name : String}

/-- The class itself declares a pure virtual member of this name. -/
def DeclaresPureNamed (t : SymbolTable) (c : ClassRecord) (name : String) : Prop :=
  ∃ m, t.Declares c m ∧ m.name = name ∧ m.isPureVirtual = true

/-- The class itself declares a member of this name that is not pure virtual. -/
def Overrides (t : SymbolTable) (c : ClassRecord) (name : String) : Prop :=
  ∃ m, t.Declares c m ∧ m.name = name ∧ m.isPureVirtual = false

/-- **The names that a class leaves pure**: those of its pure virtual members and those that its
parents leave pure, except where it declares another member of the name.  A parent that is no class
of the table leaves nothing. -/
inductive LeavesPure (t : SymbolTable) : ClassRecord → String → Prop
  | own {c : ClassRecord} {name : String} (hpure : t.DeclaresPureNamed c name)
      (hopen : ¬ t.Overrides c name) : LeavesPure t c name
  | inherited {c parent : ClassRecord} {base : ParentRecord} {name : String}
      (hbase : base ∈ c.bases) (hfound : t.lookup base.id = some (.ofClass parent))
      (hparent : LeavesPure t parent name) (hopen : ¬ t.Overrides c name) : LeavesPure t c name

/-- What a class leaves pure, told by its parents. -/
theorem leavesPure_iff : t.LeavesPure c name ↔
    (t.DeclaresPureNamed c name ∨ ∃ base ∈ c.bases, ∃ parent,
      t.lookup base.id = some (.ofClass parent) ∧ t.LeavesPure parent name) ∧
    ¬ t.Overrides c name := by
  constructor
  · intro h
    cases h with
    | own hpure hopen => exact ⟨.inl hpure, hopen⟩
    | inherited hbase hfound hparent hopen =>
        exact ⟨.inr ⟨_, hbase, _, hfound, hparent⟩, hopen⟩
  · rintro ⟨hpure | ⟨base, hbase, parent, hfound, hparent⟩, hopen⟩
    · exact .own hpure hopen
    · exact .inherited hbase hfound hparent hopen

/-- A class leaves a name pure where all that it declares under the name is pure virtual. -/
theorem leavesPure_of_membersOf {members : List MemberRecord}
    (hmembers : t.membersOf c = .ok members)
    (hpure : ∃ m ∈ members, m.name = name ∧ m.isPureVirtual = true)
    (honly : ∀ m ∈ members, m.name = name → m.isPureVirtual = true) : t.LeavesPure c name := by
  obtain ⟨m, hm, hname, hm'⟩ := hpure
  refine .own ⟨m, (declares_iff hmembers).2 hm, hname, hm'⟩ ?_
  rintro ⟨other, hother, hsame, hbody⟩
  rw [honly other ((declares_iff hmembers).1 hother) hsame] at hbody
  cases hbody

/-- The class redeclares every name that its parents leave pure, as pure virtual or not. -/
def RedeclaresPure (t : SymbolTable) (c : ClassRecord) : Prop :=
  ∀ base ∈ c.bases, ∀ parent, t.lookup base.id = some (.ofClass parent) →
    ∀ name, t.LeavesPure parent name → t.DeclaresPureNamed c name ∨ t.Overrides c name

/-- An abstract class that redeclares what its parents leave pure has a pure virtual member of its
own. -/
theorem LeavesPure.declaresPure (h : t.LeavesPure c name) (hredeclares : t.RedeclaresPure c) :
    t.DeclaresPure c := by
  have hnamed : t.DeclaresPureNamed c name := by
    obtain ⟨hpure | ⟨base, hbase, parent, hfound, hparent⟩, hopen⟩ := leavesPure_iff.1 h
    · exact hpure
    · exact (hredeclares base hbase parent hfound name hparent).resolve_right hopen
  obtain ⟨m, hm, -, hpure⟩ := hnamed
  exact ⟨m, hm, hpure⟩

end SymbolTable

namespace Context

variable {ctx : Context} {c : ClassRecord} {plan : ClassPlan}

/-- **No object is made** of the class of a plan: the plan has no constructors, the class has no
factories, and its Interface neither copies nor assigns. -/
structure MakesNone (ctx : Context) (plan : ClassPlan) : Prop where
  constructors : plan.constructors = []
  factories : ∀ counter, ctx.factoriesOf counter plan = {}
  copy : (ctx.interfaceOf plan).pointerCopy = false
  assign : (ctx.interfaceOf plan).pointerAssign = false

/-- A plan without constructors has no factories. -/
theorem factoriesOf_eq_empty (hnone : plan.constructors = []) (counter : Nat) :
    ctx.factoriesOf counter plan = {} := by
  have hlacking : plan.lackingFactories.isSome = true := by
    rw [ClassPlan.lackingFactories, hnone]
    cases plan.hasPublicConstructor <;> cases plan.flags.hasPureVirtual <;> rfl
  rw [factoriesOf, if_pos hlacking]

/-- A class that declares a pure virtual member has no constructors in its plan. -/
theorem constructors_eq_nil_of_declaresPure (h : ctx.planClass c = .ok plan)
    (hpure : ctx.table.DeclaresPure c) : plan.constructors = [] := by
  refine List.eq_nil_iff_forall_not_mem.2 fun p hp => ?_
  obtain ⟨-, -, hconcrete⟩ := of_mem_constructors h hp
  have hflag := (SymbolTable.of_flagsOf (flagsOf_of_planClass h)).1.2 hpure
  rw [hflag] at hconcrete
  cases hconcrete

/-- When objects are made: unless the class itself declares a pure virtual member, every constructor
that is planned, every copy constructor and every assignment operator counts. -/
theorem makesNone_iff (h : ctx.planClass c = .ok plan) : ctx.MakesNone plan ↔
    ctx.table.DeclaresPure c ∨ (plan.constructors = [] ∧ ¬ ctx.table.DeclaresCopy c ∧
      ¬ ctx.table.DeclaresAssignment c) := by
  have hcopy := pointerCopy_iff h
  have hassign := pointerAssign_iff h
  constructor
  · rintro ⟨hconstructors, -, hnocopy, hnoassign⟩
    rw [← Bool.not_eq_true, hcopy] at hnocopy
    rw [← Bool.not_eq_true, hassign] at hnoassign
    tauto
  · intro hnone
    have hconstructors : plan.constructors = [] :=
      hnone.elim (constructors_eq_nil_of_declaresPure h) fun hrest => hrest.1
    refine ⟨hconstructors, factoriesOf_eq_empty hconstructors, ?_, ?_⟩
    · rw [← Bool.not_eq_true, hcopy]
      tauto
    · rw [← Bool.not_eq_true, hassign]
      tauto

/-- **Abstract classes of which no object is made.**  No object is made of a class that declares a
pure virtual member itself, and none of a class that leaves a name pure and redeclares all that its
parents leave pure.  What its parents declare has no say: of any other class, an object is made
where a constructor is planned, and copied and assigned where the class declares the members for
it. -/
theorem abstract_not_made (h : ctx.planClass c = .ok plan) :
    (ctx.table.DeclaresPure c → ctx.MakesNone plan) ∧
    (∀ name, ctx.table.LeavesPure c name → ctx.table.RedeclaresPure c → ctx.MakesNone plan) ∧
    (ctx.MakesNone plan ↔ ctx.table.DeclaresPure c ∨ (plan.constructors = [] ∧
      ¬ ctx.table.DeclaresCopy c ∧ ¬ ctx.table.DeclaresAssignment c)) := by
  have hiff := makesNone_iff h
  refine ⟨fun hpure => hiff.2 (.inl hpure), fun name hleaves hredeclares => ?_, hiff⟩
  exact hiff.2 (.inl (hleaves.declaresPure hredeclares))

/-! ### A class and its heirs -/

/-- A class with a pure virtual method. -/
def figureRecord : ClassRecord where
  id := ⟨"_1"⟩
  name := "Figure"
  members := [⟨"_4"⟩, ⟨"_5"⟩]

/-- An heir that has only what is needed to make, copy and assign objects. -/
def circleRecord : ClassRecord where
  id := ⟨"_2"⟩
  name := "Circle"
  members := [⟨"_6"⟩, ⟨"_7"⟩, ⟨"_8"⟩]
  bases := [{ id := ⟨"_1"⟩ }]

/-- An heir that redeclares the method, which stays pure virtual. -/
def polygonRecord : ClassRecord where
  id := ⟨"_3"⟩
  name := "Polygon"
  members := [⟨"_9"⟩, ⟨"_10"⟩]
  bases := [{ id := ⟨"_1"⟩ }]

def figureMembers : List MemberRecord :=
  [{ id := ⟨"_4"⟩, name := "Figure", kind := .constructor, context := ⟨"_1"⟩ },
    { id := ⟨"_5"⟩, name := "area", kind := .method, context := ⟨"_1"⟩
      type := some (.named "double"), isVirtual := true, isPureVirtual := true }]

def circleMembers : List MemberRecord :=
  let circle := (TypeRef.of ⟨"_2"⟩ [] "Circle").reference
  [{ id := ⟨"_6"⟩, name := "Circle", kind := .constructor, context := ⟨"_2"⟩ },
    { id := ⟨"_7"⟩, name := "Circle", kind := .constructor, context := ⟨"_2"⟩
      args := [{ type := circle.constant }] },
    { id := ⟨"_8"⟩, name := "=", kind := .operator, context := ⟨"_2"⟩, type := some circle
      args := [{ type := circle.constant }] }]

def polygonMembers : List MemberRecord :=
  [{ id := ⟨"_9"⟩, name := "Polygon", kind := .constructor, context := ⟨"_3"⟩ },
    { id := ⟨"_10"⟩, name := "area", kind := .method, context := ⟨"_3"⟩
      type := some (.named "double"), isVirtual := true, isPureVirtual := true }]

def figureTable : SymbolTable where
  records := [.ofClass figureRecord, .ofClass circleRecord, .ofClass polygonRecord] ++
    (figureMembers ++ circleMembers ++ polygonMembers).map .ofMember
  distinct := by decide

/-- Loads all three. -/
def figureConfig : Config where
  load := { classes := ["Figure", "Circle", "Polygon"] }

theorem figureTable_wellFormed : figureTable.WellFormed where
  members := by simp [figureTable, figureRecord, circleRecord, polygonRecord, figureMembers,
    circleMembers, polygonMembers, SymbolTable.classes, SymbolTable.lookup, Record.asClass?,
    Record.id]
  typed := by decide
  bases := by simp [figureTable, figureRecord, circleRecord, polygonRecord, figureMembers,
    circleMembers, polygonMembers, Record.types, SymbolTable.HasBase, SymbolTable.lookup, Record.id,
    TypeRef.of, TypeRef.named, TypeRef.constant, TypeRef.reference, Record.isType]

theorem loadSet_figure :
    (new figureTable figureConfig).loadSet = [figureRecord, circleRecord, polygonRecord] := by
  have hrequested : (new figureTable figureConfig).requestedIds = [⟨"_1"⟩, ⟨"_2"⟩, ⟨"_3"⟩] := by
    decide
  rw [loadSet, loadSetIds_eq_requestedIds rfl (hrequested ▸ by decide), hrequested]
  rfl

theorem ofRun_figure : ofRun figureTable figureConfig =
    (new figureTable figureConfig).register
      [⟨[], "Figure"⟩, ⟨[], "Circle"⟩, ⟨[], "Polygon"⟩] := by
  rw [ofRun, loadSet_figure]
  rfl

theorem leavesPure_figure_iff {name : String} :
    figureTable.LeavesPure figureRecord name ↔ name = "area" := by
  have hmembers : figureTable.membersOf figureRecord = .ok figureMembers :=
    toOption_eq_some.1 (by decide)
  constructor
  · intro h
    obtain ⟨⟨m, hm, rfl, hpure⟩ | ⟨base, hbase, -⟩, -⟩ := SymbolTable.leavesPure_iff.1 h
    · have honly : ∀ m ∈ figureMembers, m.isPureVirtual = true → m.name = "area" := by decide
      exact honly m ((SymbolTable.declares_iff hmembers).1 hm) hpure
    · cases hbase
  · rintro rfl
    exact SymbolTable.leavesPure_of_membersOf hmembers (by decide) (by decide)

/-- The heir that redeclares the method is abstract, and no object of it is made. -/
theorem abstract_not_made_polygon : ∃ plan,
    (ofRun figureTable figureConfig).planClass polygonRecord = .ok plan ∧
      plan.hasPublicConstructor = true ∧ figureTable.LeavesPure polygonRecord "area" ∧
      (ofRun figureTable figureConfig).MakesNone plan := by
  have hmembers : figureTable.membersOf polygonRecord = .ok polygonMembers :=
    toOption_eq_some.1 (by decide)
  have hplan : ((ofRun figureTable figureConfig).planClass polygonRecord).map
      ClassPlan.hasPublicConstructor = .ok true := by
    rw [ofRun_figure]
    exact toOption_eq_some.1 (by decide)
  obtain ⟨plan, hplan, hpublic⟩ := map_eq_ok.1 hplan
  have hleaves : figureTable.LeavesPure polygonRecord "area" :=
    SymbolTable.leavesPure_of_membersOf hmembers (by decide) (by decide)
  have hredeclares : figureTable.RedeclaresPure polygonRecord := by
    intro base hbase parent hfound name hparent
    obtain rfl := List.mem_singleton.1 hbase
    have hfigure : figureTable.lookup ⟨"_1"⟩ = some (.ofClass figureRecord) := by decide
    obtain rfl := Record.ofClass.inj (Option.some.inj (hfigure.symm.trans hfound))
    rw [leavesPure_figure_iff.1 hparent]
    exact .inl ⟨polygonMembers[1], (SymbolTable.declares_iff hmembers).2 (by simp), rfl, rfl⟩
  obtain ⟨-, hredeclared, -⟩ := abstract_not_made hplan
  exact ⟨plan, hplan, hpublic, hleaves, hredeclared "area" hleaves hredeclares⟩

/-- **An object of an abstract class is made, copied and assigned.**  The heir that does not
redeclare the method leaves it pure. -/
theorem abstract_made : figureTable.BasesAcyclic ∧ figureTable.LeavesPure circleRecord "area" ∧
    ∃ g, generate figureTable figureConfig = .ok g ∧ ∃ output ∈ g.classes, ∃ plan counter,
      (ofRun figureTable figureConfig).planClass circleRecord = .ok plan ∧
      output = (ofRun figureTable figureConfig).outputOf counter circleRecord plan ∧
      plan.constructors.length = 1 ∧ output.factories.records.length = 1 ∧
      output.interface.pointerCopy = true ∧ output.interface.pointerAssign = true := by
  have hacyclic : figureTable.BasesAcyclic :=
    SymbolTable.basesAcyclic_of_rank (fun id => if id = ⟨"_1"⟩ then 0 else 1) (by decide)
  have hmembers : figureTable.membersOf circleRecord = .ok circleMembers :=
    toOption_eq_some.1 (by decide)
  have hleaves : figureTable.LeavesPure circleRecord "area" := by
    refine .inherited List.mem_cons_self (show figureTable.lookup _ = _ by decide)
      (leavesPure_figure_iff.2 rfl) ?_
    rintro ⟨m, hm, hname, -⟩
    have hnone : ∀ m ∈ circleMembers, m.name ≠ "area" := by decide
    exact hnone m ((SymbolTable.declares_iff hmembers).1 hm) hname
  have hkeys : figureTable.KeysDistinct := by
    rw [SymbolTable.KeysDistinct]
    decide
  have hparts : ((ofRun figureTable figureConfig).planClass circleRecord).map (fun plan =>
      (plan.constructors.length, ((ofRun figureTable figureConfig).factoryOrders plan).length,
        plan.flags.copyable, plan.flags.assignable)) = .ok (1, 1, true, true) := by
    rw [ofRun_figure]
    exact toOption_eq_some.1 (by decide)
  obtain ⟨g, hg⟩ := succeeds_generate figureTable_wellFormed
    (show figureConfig.validate = .ok () by cbv)
  obtain ⟨output, houtput, counter, plan, hplan, rfl⟩ :=
    GenerationOutput.exists_output_of_mem_loadSet hkeys hg (c := circleRecord)
      (by simp [loadSet_figure])
  rw [hplan] at hparts
  simp only [Except.map, Except.ok.injEq, Prod.mk.injEq] at hparts
  obtain ⟨hconstructors, horders, hcopy, hassign⟩ := hparts
  refine ⟨hacyclic, hleaves, g, hg, _, houtput, plan, counter, hplan, rfl, hconstructors, ?_, hcopy,
    hassign⟩
  rw [outputOf_factories, factoriesOf_eq hplan, List.length_map, List.length_zipIdx, horders]

end Context

end LoadBridge
