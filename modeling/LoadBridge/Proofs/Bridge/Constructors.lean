import LoadBridge.Proofs.Bridge.Copying
import LoadBridge.Proofs.Bridge.Defaults
import LoadBridge.Proofs.Bridge.Exposure

/-!
# Bridge — What becomes of constructors

A class that declares nothing pure virtual has each of its public constructors planned or left out
with a notice, arity by arity, unless it copies; and it has the hook that copies only with a public
constructor that does (`ClassPlan.AccountsFor`, `ConstructorsAccounted`).  Which constructors copy
is told by the base of the only argument (`isCopyConstructor`), whatever stands around that base.
So a constructor that is handed a pointer to its class passes for one that copies: it has no entry
in the plan (`planMember_of_isCopyConstructor`), and the hook is there for it
(`constructor_dropped`).  Where no public constructor is handed such a pointer, those that are apart
take an object of their class (`constructors_accounted`).
-/

namespace LoadBridge

/-- What is handed over is an address: that of a pointer, or of the first element of an array. -/
def Argument.isAddress (a : Argument) : Bool := a.type.isPointer || a.type.isArray

/-- A constructor whose only argument is an object of the class itself, by value or by reference. -/
def copiesObject (c : ClassRecord) (m : MemberRecord) : Bool :=
  isCopyConstructor c m && !m.args.any Argument.isAddress

/-- The arity of the constructor `m` is planned, or left out with a notice. -/
def ClassPlan.AccountsFor (plan : ClassPlan) (c : ClassRecord) (m : MemberRecord) (arity : Arity) :
    Prop :=
  (∃ p ∈ plan.constructors, p.member = m ∧ p.call = arity) ∨ ∃ reason,
    ⟨.memberFunctionIgnored, describeCall (memberPath c m) arity.args, reason⟩ ∈ plan.notices

/-- The public constructors of `c` are accounted for, those apart that copy. -/
structure ConstructorsAccounted (ctx : Context) (c : ClassRecord) (plan : ClassPlan)
    (copies : MemberRecord → Bool) : Prop where
  others : ∀ m, ctx.table.Declares c m → m.kind = .constructor → m.isPublic = true →
    copies m = false → ∀ arity ∈ arities m.args, plan.AccountsFor c m arity
  /-- The hook that copies goes back to a constructor that does. -/
  hook : (ctx.interfaceOf plan).pointerCopy = true →
    ∃ m, ctx.table.Declares c m ∧ m.isPublic = true ∧ copies m = true

namespace Context

variable {ctx : Context} {c : ClassRecord} {m : MemberRecord} {plan : ClassPlan}

/-- A constructor that passes for one that copies has no entry at all. -/
theorem planMember_of_isCopyConstructor {flags : ClassFlags}
    (h : isCopyConstructor c m = true) : ctx.planMember c flags (c, m) = .ok [] := by
  have hkind : m.kind = .constructor := eq_of_beq (Bool.and_eq_true_iff.1 h).1
  simp [planMember, hkind, isFactoryConstructor, h]

/-- What a plan makes of a member that the class declares is in the plan. -/
theorem exists_entries_of_declares (h : ctx.planClass c = .ok plan)
    (hm : ctx.table.Declares c m) :
    ∃ entries, ctx.planMember c plan.flags (c, m) = .ok entries ∧ entries ⊆ plan.items := by
  obtain ⟨_, _, members, _, -, -, hmembers, -, -⟩ := planClass_eq_ok_iff.1 h
  obtain ⟨own, inherited, hown, -, hsplit⟩ := collectMembers_eq_ok_iff.1 hmembers
  have hitem : (c, m) ∈ members := by
    rw [hsplit]
    exact List.mem_append_left _
      (List.mem_map_of_mem ((SymbolTable.declares_iff hown).1 hm))
  obtain ⟨items, hitems, hplan⟩ := exists_items h hmembers
  obtain ⟨entries, hentries, hmade⟩ := exists_partner hitems hitem
  refine ⟨entries, hmade, fun entry hentry => ?_⟩
  rw [hplan]
  exact List.mem_flatten.2 ⟨entries, hentries, hentry⟩

/-- **A public constructor that does not pass for one that copies is accounted for.** -/
theorem accountsFor_of_declares (h : ctx.planClass c = .ok plan)
    (hpure : ¬ ctx.table.DeclaresPure c) (hm : ctx.table.Declares c m)
    (hkind : m.kind = .constructor) (hpublic : m.isPublic = true)
    (hcopy : isCopyConstructor c m = false) {arity : Arity} (harity : arity ∈ arities m.args) :
    plan.AccountsFor c m arity := by
  have hvirtual : plan.flags.hasPureVirtual = false := by
    rw [← Bool.not_eq_true, (SymbolTable.of_flagsOf (flagsOf_of_planClass h)).1]
    exact hpure
  have hfactory : (isFactoryConstructor c (c, m) && !plan.flags.hasPureVirtual) = true := by
    simp [isFactoryConstructor, hkind, hpublic, hcopy, hvirtual]
  obtain ⟨entries, hentries, hitems⟩ := exists_entries_of_declares h hm
  rw [planMember_eq, if_pos hfactory] at hentries
  obtain ⟨entry, hentry, hmade⟩ := exists_partner (forall₂_planArities hentries) harity
  rcases hmade with rfl | ⟨reason, rfl⟩
  · exact .inl ⟨_, List.mem_filterMap.2 ⟨_, hitems hentry, rfl⟩, rfl, rfl⟩
  · exact .inr ⟨reason, List.mem_append_right _ (List.mem_filterMap.2 ⟨_, hitems hentry, rfl⟩)⟩

/-- A constructor in a plan does not pass for one that copies. -/
theorem isCopyConstructor_of_mem_constructors (h : ctx.planClass c = .ok plan)
    {p : PlannedCallable} (hp : p ∈ plan.constructors) : isCopyConstructor c p.member = false := by
  obtain ⟨_, _, members, _, -, -, hmembers, -, -⟩ := planClass_eq_ok_iff.1 h
  obtain ⟨entry, hentry, hconstructor⟩ := List.mem_filterMap.1 hp
  obtain ⟨item, -, hfrom⟩ := exists_item_of_mem_items h hmembers hentry
  cases entry <;> cases hconstructor
  obtain ⟨hmember, hfactory⟩ := hfrom
  simp only [isFactoryConstructor, Bool.and_eq_true, Bool.not_eq_true'] at hfactory
  exact hmember ▸ hfactory.2

/-- **Constructors are accounted for**, those apart whose only argument has the class as base. -/
theorem accounted_of_base (h : ctx.planClass c = .ok plan) (hpure : ¬ ctx.table.DeclaresPure c) :
    ConstructorsAccounted ctx c plan (isCopyConstructor c) where
  others _ hm hkind hpublic hcopy _ harity :=
    accountsFor_of_declares h hpure hm hkind hpublic hcopy harity
  hook hcopy := ((pointerCopy_iff h).1 hcopy).1

/-- **Every public constructor is planned or left out with a notice**, in a class that declares
nothing pure virtual.  Those are apart whose only argument has the class itself as its base: nothing
is made of them, and one of them is there exactly where the hook that copies is.  Where none of them
is handed an address, no constructor is apart but one that takes an object of the class, and the
hook goes back to one that does. -/
theorem constructors_accounted (h : ctx.planClass c = .ok plan)
    (hpure : ¬ ctx.table.DeclaresPure c) :
    ConstructorsAccounted ctx c plan (isCopyConstructor c) ∧
    (∀ m, isCopyConstructor c m = true → ctx.planMember c plan.flags (c, m) = .ok [] ∧
      ∀ p ∈ plan.constructors, p.member ≠ m) ∧
    ((ctx.interfaceOf plan).pointerCopy = true ↔
      ∃ m, ctx.table.Declares c m ∧ m.isPublic = true ∧ isCopyConstructor c m = true) ∧
    ((∀ m, ctx.table.Declares c m → m.isPublic = true → isCopyConstructor c m = true →
        m.args.any Argument.isAddress = false) →
      ConstructorsAccounted ctx c plan (copiesObject c)) := by
  have hbase := accounted_of_base h hpure
  refine ⟨hbase, fun m hcopy => ⟨planMember_of_isCopyConstructor hcopy, ?_⟩, ?_, fun hobjects => ?_⟩
  · rintro p hp rfl
    exact Bool.false_ne_true ((isCopyConstructor_of_mem_constructors h hp).symm.trans hcopy)
  · rw [pointerCopy_iff h, and_iff_left hpure]
    rfl
  have hsame : ∀ m, ctx.table.Declares c m → m.isPublic = true →
      isCopyConstructor c m = copiesObject c m := by
    intro m hm hpublic
    cases hcopy : isCopyConstructor c m with
    | false => rw [copiesObject, hcopy, Bool.false_and]
    | true => rw [copiesObject, hcopy, hobjects m hm hpublic hcopy, Bool.not_false, Bool.and_self]
  constructor
  case others =>
    intro m hm hkind hpublic hother
    exact hbase.others m hm hkind hpublic ((hsame m hm hpublic).trans hother)
  case hook =>
    intro hcopyable
    obtain ⟨m, hm, hpublic, hcopy⟩ := hbase.hook hcopyable
    exact ⟨m, hm, hpublic, (hsame m hm hpublic).symm.trans hcopy⟩

/-! ### A class that copies, and one that is only handed a pointer to itself -/

/-- Is made of numbers, copies, and is not accepted with a pointer to a pointer. -/
def twigMembers : List MemberRecord :=
  let int := TypeRef.named "int"
  let twig := TypeRef.of ⟨"_1"⟩ [] "Twig"
  let constructor (id : String) (args : List Argument) : MemberRecord :=
    { id := ⟨id⟩, name := "Twig", kind := .constructor, context := ⟨"_1"⟩, args }
  [constructor "_3" [{ type := int }, { type := int, hasDefault := true }],
    constructor "_4" [{ type := twig.constant.reference }],
    constructor "_5" [{ type := { int with pointerDepth := 2 } }]]

def twigRecord : ClassRecord where
  id := ⟨"_1"⟩
  name := "Twig"
  members := [⟨"_3"⟩, ⟨"_4"⟩, ⟨"_5"⟩]

/-- Is handed a pointer to what it belongs to, another object of the class. -/
def branchConstructor : MemberRecord where
  id := ⟨"_6"⟩
  name := "Branch"
  kind := .constructor
  context := ⟨"_2"⟩
  args := [{ type := { TypeRef.of ⟨"_2"⟩ [] "Branch" with pointerDepth := 1 } }]

def branchRecord : ClassRecord where
  id := ⟨"_2"⟩
  name := "Branch"
  members := [⟨"_6"⟩]

def branchTable : SymbolTable where
  records := [.ofClass twigRecord, .ofClass branchRecord] ++ twigMembers.map .ofMember ++
    [.ofMember branchConstructor]
  distinct := by decide

def branchContext : Context := (new branchTable {}).register [⟨[], "Twig"⟩, ⟨[], "Branch"⟩]

theorem constructors_accounted_twig : ∃ plan, branchContext.planClass twigRecord = .ok plan ∧
    ¬ branchTable.DeclaresPure twigRecord ∧
    plan.constructors.map (fun p => p.args.length) = [2, 1] ∧
    plan.notices.map Notice.subject = ["Twig::Twig(int**)"] ∧
    (branchContext.interfaceOf plan).pointerCopy = true ∧
    ConstructorsAccounted branchContext twigRecord plan (copiesObject twigRecord) := by
  have hplan : (branchContext.planClass twigRecord).map (fun plan =>
      (plan.constructors.map (fun p => p.args.length), plan.notices.map Notice.subject,
        plan.flags.copyable)) = .ok ([2, 1], ["Twig::Twig(int**)"], true) :=
    toOption_eq_some.1 (by decide +kernel)
  obtain ⟨plan, hplan, hparts⟩ := map_eq_ok.1 hplan
  obtain ⟨hconstructors, hparts⟩ := Prod.mk.inj hparts
  obtain ⟨hnotices, hcopyable⟩ := Prod.mk.inj hparts
  have hmembers : branchTable.membersOf twigRecord = .ok twigMembers :=
    toOption_eq_some.1 (by decide +kernel)
  have hpure : ¬ branchTable.DeclaresPure twigRecord := by
    rintro ⟨m, hm, hvirtual⟩
    have hnone : ∀ m ∈ twigMembers, m.isPureVirtual = false := by decide
    have hplain := hnone m ((SymbolTable.declares_iff hmembers).1 hm)
    exact Bool.false_ne_true (hplain.symm.trans hvirtual)
  refine ⟨plan, hplan, hpure, hconstructors, hnotices, hcopyable, ?_⟩
  refine (constructors_accounted hplan hpure).2.2.2 fun m hm _ => ?_
  have hobjects : ∀ m ∈ twigMembers, isCopyConstructor twigRecord m = true →
      m.args.any Argument.isAddress = false := by decide
  exact hobjects m ((SymbolTable.declares_iff hmembers).1 hm)

/-- **A constructor is dropped without a word.**  A class whose only constructor is handed a pointer
to the class has no constructor in its plan and no notice of it, passes for one without public
constructors, and has the hook that copies without a constructor that does. -/
theorem constructor_dropped : ∃ plan, branchContext.planClass branchRecord = .ok plan ∧
    ¬ branchTable.DeclaresPure branchRecord ∧
    branchTable.Declares branchRecord branchConstructor ∧
    branchConstructor.isPublic = true ∧ copiesObject branchRecord branchConstructor = false ∧
    plan.hasPublicConstructor = false ∧
    (∀ arity ∈ arities branchConstructor.args,
      ¬ plan.AccountsFor branchRecord branchConstructor arity) ∧
    (branchContext.interfaceOf plan).pointerCopy = true ∧
    (∀ m, branchTable.Declares branchRecord m → copiesObject branchRecord m = false) ∧
    ¬ ConstructorsAccounted branchContext branchRecord plan (copiesObject branchRecord) := by
  have hplan : (branchContext.planClass branchRecord).map (fun plan =>
      (plan.constructors, plan.notices, plan.hasPublicConstructor, plan.flags.copyable)) =
      .ok ([], [], false, true) := toOption_eq_some.1 (by decide +kernel)
  obtain ⟨plan, hplan, hparts⟩ := map_eq_ok.1 hplan
  obtain ⟨hconstructors, hparts⟩ := Prod.mk.inj hparts
  obtain ⟨hnotices, hparts⟩ := Prod.mk.inj hparts
  obtain ⟨hpublic, hcopyable⟩ := Prod.mk.inj hparts
  have hmembers : branchTable.membersOf branchRecord = .ok [branchConstructor] :=
    toOption_eq_some.1 (by decide +kernel)
  have honly : ∀ m, branchTable.Declares branchRecord m ↔ m = branchConstructor := fun m =>
    (SymbolTable.declares_iff hmembers).trans List.mem_singleton
  have hpure : ¬ branchTable.DeclaresPure branchRecord := by
    rintro ⟨m, hm, hvirtual⟩
    obtain rfl := (honly m).1 hm
    cases hvirtual
  have hnone : ∀ m, branchTable.Declares branchRecord m → copiesObject branchRecord m = false := by
    intro m hm
    obtain rfl := (honly m).1 hm
    decide
  refine ⟨plan, hplan, hpure, (honly _).2 rfl, rfl, by decide, hpublic, ?_, hcopyable, hnone, ?_⟩
  · rintro arity - (⟨p, hp, -⟩ | ⟨reason, hn⟩)
    · rw [hconstructors] at hp
      cases hp
    · rw [hnotices] at hn
      cases hn
  · intro haccounted
    obtain ⟨m, hm, -, hcopy⟩ := haccounted.hook hcopyable
    exact Bool.false_ne_true ((hnone m hm).symm.trans hcopy)

end Context

end LoadBridge
