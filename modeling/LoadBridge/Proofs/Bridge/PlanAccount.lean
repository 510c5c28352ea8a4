import LoadBridge.Proofs.Bridge.Members
import LoadBridge.Proofs.Bridge.Plan
import LoadBridge.Proofs.Notice

/-!
# Bridge — A plan accounts for all that its class offers

Every arity of a callable that is offered becomes a planned one or leaves a notice, and so does
every field (`countP_planMember`).  A direct parent is loaded or leaves a notice.  Counted over the
class, nothing is missing from its plan (`ClassPlan.accounts`).
-/

namespace LoadBridge

/-! ### What is offered -/

namespace MemberRecord

/-- Public, and written in the library. -/
def isOffered (m : MemberRecord) : Bool := m.isPublic && !m.isArtificial

/-- A method or operator that is offered.  The assignment operator is left to the generated one. -/
def isOfferedFunction (m : MemberRecord) : Bool :=
  m.isOffered && (m.kind == .method || (m.kind == .operator && m.name != "="))

def isOfferedField (m : MemberRecord) : Bool := m.isOffered && m.kind == .field

/-- A public constructor of `c` that does not copy. -/
def isOfferedConstructor (c : ClassRecord) (m : MemberRecord) : Bool :=
  m.kind == .constructor && m.isPublic && !isCopyConstructor c m

end MemberRecord

/-- The callables that a class offers, given its own members and those it takes over: methods and
operators of both, and, where no member of its own is pure virtual, constructors of its own. -/
def ClassRecord.offeredCallables (c : ClassRecord) (own : List MemberRecord)
    (inherited : List OwnedMember) : List MemberRecord :=
  (own ++ inherited.map Prod.snd).filter MemberRecord.isOfferedFunction ++
    if own.any MemberRecord.isPureVirtual then []
    else own.filter (MemberRecord.isOfferedConstructor c)

/-- The fields that a class offers. -/
def offeredFields (own : List MemberRecord) (inherited : List OwnedMember) : List MemberRecord :=
  (own ++ inherited.map Prod.snd).filter MemberRecord.isOfferedField

/-- In how many ways a callable can be called. -/
def MemberRecord.arityCount (m : MemberRecord) : Nat := trailingDefaults m.args + 1

/-! ### What becomes of it -/

namespace Planned

/-- What becomes of an arity of a callable. -/
def isOfCallable : Planned → Bool
  | .constructor _ | .method _ => true
  | .field _ => false
  | .ignored n => n.kind == .memberFunctionIgnored

/-- What becomes of a field. -/
def isOfField : Planned → Bool
  | .constructor _ | .method _ => false
  | .field _ => true
  | .ignored n => n.kind == .memberVariableIgnored

/-- The callables that are planned and those that leave a notice are all of them. -/
theorem length_callables (items : List Planned) :
    (items.filterMap method?).length + (items.filterMap constructor?).length +
        (noticesOf .memberFunctionIgnored (items.filterMap notice?)).length =
      items.countP isOfCallable := by
  induction items with
  | nil => rfl
  | cons item rest ih =>
      rw [List.countP_cons, ← ih]
      simp only [noticesOf, List.filterMap_cons]
      cases item with
      | constructor c => simp [method?, constructor?, notice?, isOfCallable]; omega
      | method m => simp [method?, constructor?, notice?, isOfCallable]; omega
      | field f => simp [method?, constructor?, notice?, isOfCallable]
      | ignored n =>
          cases hkind : n.kind == .memberFunctionIgnored <;>
            simp [method?, constructor?, notice?, isOfCallable, hkind, ← Nat.add_assoc]

/-- The fields that are planned and those that leave a notice are all of them. -/
theorem length_fields (items : List Planned) :
    (items.filterMap field?).length +
        (noticesOf .memberVariableIgnored (items.filterMap notice?)).length =
      items.countP isOfField := by
  induction items with
  | nil => rfl
  | cons item rest ih =>
      rw [List.countP_cons, ← ih]
      simp only [noticesOf, List.filterMap_cons]
      cases item with
      | constructor c => simp [field?, notice?, isOfField]
      | method m => simp [field?, notice?, isOfField]
      | field f => simp [field?, notice?, isOfField]; omega
      | ignored n =>
          cases hkind : n.kind == .memberVariableIgnored <;>
            simp [field?, notice?, isOfField, hkind, ← Nat.add_assoc]

/-- So many entries for callables, so many for fields, and no others. -/
structure Tally (items : List Planned) (callables fields : Nat) : Prop where
  callables : items.countP isOfCallable = callables
  fields : items.countP isOfField = fields
  all : ∀ item ∈ items, item.isOfCallable = true ∨ item.isOfField = true

theorem tally_nil : Tally [] 0 0 := ⟨rfl, rfl, fun _ h => nomatch h⟩

theorem not_isOfField_of_isOfCallable {item : Planned} (h : item.isOfCallable = true) :
    item.isOfField = false := by
  cases item with
  | constructor | method => rfl
  | field => cases h
  | ignored n => rw [isOfField, eq_of_beq h]; rfl

/-- Entries for callables only. -/
theorem tally_of_callables {items : List Planned} (h : ∀ item ∈ items, item.isOfCallable = true) :
    Tally items items.length 0 where
  callables := List.countP_eq_length.2 h
  fields := List.countP_eq_zero.2 fun item hitem => by
    rw [not_isOfField_of_isOfCallable (h item hitem)]
    exact Bool.false_ne_true
  all item hitem := .inl (h item hitem)

theorem Tally.kind_of_mem_notices {items : List Planned} {callables fields : Nat}
    (h : Tally items callables fields) {n : Notice} (hn : n ∈ items.filterMap notice?) :
    n.kind = .memberFunctionIgnored ∨ n.kind = .memberVariableIgnored := by
  obtain ⟨item, hitem, hnotice⟩ := List.mem_filterMap.1 hn
  cases item with
  | constructor | method | field => cases hnotice
  | ignored =>
      cases hnotice
      exact (h.all _ hitem).imp eq_of_beq eq_of_beq

end Planned

namespace Context

variable {ctx : Context} {c owner : ClassRecord} {m : MemberRecord} {items : List Planned}

/-! ### One member -/

/-- **Every arity is planned or leaves a notice**, in order. -/
theorem forall₂_planArities {plan : Arity → Planned}
    (h : ctx.planArities owner m plan = .ok items) :
    List.Forall₂ (fun arity planned => planned = plan arity ∨ ∃ reason,
      planned = .ignored
        ⟨.memberFunctionIgnored, describeCall (memberPath owner m) arity.args, reason⟩)
      (arities m.args) items := by
  refine (mapM_eq_ok_iff.1 h).imp fun arity planned hplanned => ?_
  obtain ⟨verdict, -, hplanned⟩ := bind_eq_ok.1 hplanned
  cases verdict with
  | accepted => exact .inl (Except.ok.inj hplanned).symm
  | rejected reason => exact .inr ⟨reason.text, (Except.ok.inj hplanned).symm⟩

theorem tally_planArities {plan : Arity → Planned}
    (hplan : ∀ arity, (plan arity).isOfCallable = true)
    (h : ctx.planArities owner m plan = .ok items) : Planned.Tally items m.arityCount 0 := by
  have hpairs := forall₂_planArities h
  have hlength : items.length = m.arityCount := by
    rw [← hpairs.length_eq, length_arities, MemberRecord.arityCount]
  refine hlength ▸ Planned.tally_of_callables fun planned hplanned => ?_
  obtain ⟨arity, -, rfl | ⟨reason, rfl⟩⟩ := exists_partner_left hpairs hplanned
  · exact hplan arity
  · rfl

theorem tally_planMethod {inherited : Bool} (h : ctx.planMethod owner m inherited = .ok items) :
    Planned.Tally items m.arityCount 0 := by
  obtain ⟨returns, -, h⟩ := bind_eq_ok.1 h
  exact tally_planArities (fun _ => rfl) h

theorem tally_planField (h : ctx.planField owner m = .ok items) : Planned.Tally items 0 1 := by
  obtain ⟨verdict, -, h⟩ := bind_eq_ok.1 h
  cases verdict with
  | rejected reason =>
      cases h
      exact ⟨rfl, rfl, by simp [Planned.isOfField]⟩
  | accepted =>
      obtain ⟨type, -, h⟩ := bind_eq_ok.1 h
      cases h
      exact ⟨rfl, rfl, by simp [Planned.isOfField]⟩

theorem not_isOffered_of_isFactoryConstructor {item : OwnedMember}
    (h : isFactoryConstructor c item = true) :
    item.2.isOfferedFunction = false ∧ item.2.isOfferedField = false := by
  have hkind : item.2.kind = .constructor := by
    simp only [isFactoryConstructor, Bool.and_eq_true, beq_iff_eq] at h
    exact h.1.1.1
  simp [MemberRecord.isOfferedFunction, MemberRecord.isOfferedField, hkind]

theorem not_isOfferedField_of_isOfferedFunction (h : m.isOfferedFunction = true) :
    m.isOfferedField = false := by
  simp only [MemberRecord.isOfferedFunction, Bool.and_eq_true, Bool.or_eq_true, beq_iff_eq] at h
  rcases h.2 with hkind | ⟨hkind, -⟩ <;> simp [MemberRecord.isOfferedField, hkind]

/-- Only what is offered is planned. -/
theorem planMember_eq (ctx : Context) (c : ClassRecord) (flags : ClassFlags) (item : OwnedMember) :
    ctx.planMember c flags item =
      if isFactoryConstructor c item && !flags.hasPureVirtual then ctx.planConstructor c item.2
      else if item.2.isOfferedFunction then ctx.planMethod item.1 item.2 (item.1.id != c.id)
      else if item.2.isOfferedField then ctx.planField item.1 item.2
      else .ok [] := by
  obtain ⟨owner, m⟩ := item
  cases hkind : m.kind <;>
    simp [planMember, hkind, isFactoryConstructor, MemberRecord.isOfferedFunction,
      MemberRecord.isOfferedField, MemberRecord.isOffered]

/-- **A member that is offered is accounted for**, and no other one. -/
theorem tally_planMember {flags : ClassFlags} {item : OwnedMember}
    (h : ctx.planMember c flags item = .ok items) :
    Planned.Tally items
      ((if item.2.isOfferedFunction then item.2.arityCount else 0) +
        if isFactoryConstructor c item && !flags.hasPureVirtual then item.2.arityCount else 0)
      (if item.2.isOfferedField then 1 else 0) := by
  rw [planMember_eq] at h
  split at h
  · next hconstructor =>
    obtain ⟨hfunction, hfield⟩ := not_isOffered_of_isFactoryConstructor
      (Bool.and_eq_true_iff.1 hconstructor).1
    simpa [hconstructor, hfunction, hfield] using tally_planArities (fun _ => rfl) h
  split at h
  · next hconstructor hfunction =>
    have hfield := not_isOfferedField_of_isOfferedFunction hfunction
    simpa [hconstructor, hfunction, hfield] using tally_planMethod h
  split at h
  · next hconstructor hfunction hfield =>
    simpa [hconstructor, hfunction, hfield] using tally_planField h
  · next hconstructor hfunction hfield =>
    cases h
    simpa [hconstructor, hfunction, hfield] using Planned.tally_nil

/-! ### All members -/

theorem sum_map_if {α : Type} (p : α → Bool) (f : α → Nat) (xs : List α) :
    (xs.map fun x => if p x then f x else 0).sum = ((xs.filter p).map f).sum := by
  simp [List.sum_map_ite]

theorem tally_items {flags : ClassFlags} {members : List OwnedMember}
    {planned : List (List Planned)} (h : members.mapM (ctx.planMember c flags) = .ok planned) :
    Planned.Tally planned.flatten
      ((((members.map Prod.snd).filter MemberRecord.isOfferedFunction).map
          MemberRecord.arityCount).sum +
        ((members.filter fun item => isFactoryConstructor c item && !flags.hasPureVirtual).map
          fun item => item.2.arityCount).sum)
      ((members.map Prod.snd).filter MemberRecord.isOfferedField).length := by
  have hpairs := mapM_eq_ok_iff.1 h
  constructor
  case callables =>
    have hmap : planned.map (List.countP Planned.isOfCallable) = members.map fun item =>
        (if item.2.isOfferedFunction then item.2.arityCount else 0) +
          if isFactoryConstructor c item && !flags.hasPureVirtual then item.2.arityCount else 0 :=
      map_eq_map_of_pairing hpairs fun _ _ h => (tally_planMember h).callables
    rw [List.countP_flatten, hmap, List.sum_map_add, sum_map_if, sum_map_if, List.filter_map,
      List.map_map]
    rfl
  case fields =>
    have hmap : planned.map (List.countP Planned.isOfField) = members.map fun item =>
        if item.2.isOfferedField then 1 else 0 :=
      map_eq_map_of_pairing hpairs fun _ _ h => (tally_planMember h).fields
    rw [List.countP_flatten, hmap, sum_map_if, List.filter_map, List.length_map]
    simp [Function.comp_def]
  case all =>
    intro item hitem
    obtain ⟨items, hitems, hitem⟩ := List.mem_flatten.1 hitem
    obtain ⟨member, -, hplan⟩ := exists_partner_left hpairs hitems
    exact (tally_planMember hplan).all item hitem

/-- The constructors that are planned are the class's own. -/
theorem filter_isFactoryConstructor {own : List MemberRecord} {inherited : List OwnedMember}
    (hinherited : ∀ item ∈ inherited, item.2.isInheritable = true) :
    (own.map (fun m => (c, m)) ++ inherited).filter (isFactoryConstructor c) =
      (own.filter (MemberRecord.isOfferedConstructor c)).map fun m => (c, m) := by
  -- heirs take over no constructor
  have hnone : inherited.filter (isFactoryConstructor c) = [] := by
    refine List.filter_eq_nil_iff.2 fun item hitem hconstructor => ?_
    have hkind := hinherited item hitem
    simp only [isFactoryConstructor, Bool.and_eq_true, beq_iff_eq] at hconstructor
    simp [MemberRecord.isInheritable, hconstructor.1.1.1] at hkind
  rw [List.filter_append, hnone, List.append_nil, List.filter_map]
  congr 2
  funext m
  simp [isFactoryConstructor, MemberRecord.isOfferedConstructor]

end Context

/-! ### Parents -/

namespace ParentInfo

theorem kind_of_mem_notices {child : String} {parents : List ParentInfo} {n : Notice}
    (h : n ∈ parents.filterMap (notice? child)) : n.kind = .parentClassIgnored := by
  obtain ⟨p, -, hp⟩ := List.mem_filterMap.1 h
  obtain ⟨reason, -, rfl⟩ := Option.map_eq_some_iff.1 hp
  rfl

/-- The parents that are not loaded leave one notice each. -/
theorem map_subject_notices (child : String) (parents : List ParentInfo) :
    (parents.filterMap (notice? child)).map Notice.subject =
      (parents.filter fun p => p.loaded?.isNone).map ParentInfo.name := by
  induction parents with
  | nil => rfl
  | cons p rest ih =>
      rw [List.filterMap_cons, List.filter_cons]
      cases hstatus : p.status <;>
        simp [notice?, ignoredBecause, loaded?, hstatus, ih]

end ParentInfo

/-! ### Plans -/

namespace ClassPlan

/-- **A plan accounts for its class**, given the members of the class and those it takes over.
Every direct parent is loaded or leaves one notice; every arity of every callable that is offered
is planned or leaves a notice; and so is or does every field. -/
structure Accounts (ctx : Context) (plan : ClassPlan) (own : List MemberRecord)
    (inherited : List OwnedMember) : Prop where
  parents : plan.parents.map (fun p => (p.name, p.status)) =
    plan.record.bases.map fun base => ctx.parentOf base.id
  ignoredParents : (noticesOf .parentClassIgnored plan.notices).map Notice.subject =
    (plan.parents.filter fun p => p.loaded?.isNone).map ParentInfo.name
  callables : plan.methods.length + plan.constructors.length +
      (noticesOf .memberFunctionIgnored plan.notices).length =
    ((plan.record.offeredCallables own inherited).map MemberRecord.arityCount).sum
  fields : plan.fields.length + (noticesOf .memberVariableIgnored plan.notices).length =
    (offeredFields own inherited).length

variable {ctx : Context} {c : ClassRecord} {plan : ClassPlan}

open Context

/-- The callables that a plan with these members is about. -/
theorem map_arityCount_offeredCallables {own : List MemberRecord} {inherited : List OwnedMember}
    {members : List OwnedMember} {flags : ClassFlags}
    (hmembers : members = own.map (fun m => (c, m)) ++ inherited)
    (hinherited : ∀ item ∈ inherited, item.2.isInheritable = true)
    (hflags : flags.hasPureVirtual = own.any MemberRecord.isPureVirtual) :
    ((c.offeredCallables own inherited).map MemberRecord.arityCount).sum =
      (((members.map Prod.snd).filter MemberRecord.isOfferedFunction).map
          MemberRecord.arityCount).sum +
        ((members.filter fun item => isFactoryConstructor c item && !flags.hasPureVirtual).map
          fun item => item.2.arityCount).sum := by
  have hsnd : members.map Prod.snd = own ++ inherited.map Prod.snd := by
    simp [hmembers, Function.comp_def]
  rw [ClassRecord.offeredCallables, List.map_append, List.sum_append, hsnd, hflags]
  congr 1
  cases own.any MemberRecord.isPureVirtual with
  | true => simp
  | false => simp [hmembers, filter_isFactoryConstructor hinherited, Function.comp_def]

/-- The notices of parents are apart from those of members. -/
theorem noticesOf_parents {callables fields : Nat}
    (h : Planned.Tally plan.items callables fields) :
    noticesOf .parentClassIgnored plan.notices =
      plan.parents.filterMap (ParentInfo.notice? plan.qualifiedName) := by
  have hmembers : noticesOf .parentClassIgnored (plan.items.filterMap Planned.notice?) = [] := by
    refine noticesOf_eq_nil fun n hn => ?_
    rcases h.kind_of_mem_notices hn with hkind | hkind <;> simp [hkind]
  rw [notices, noticesOf_append, hmembers, List.append_nil]
  exact noticesOf_eq_self fun _ => ParentInfo.kind_of_mem_notices

theorem noticesOf_members {kind : NoticeKind} (hkind : kind ≠ .parentClassIgnored)
    (plan : ClassPlan) :
    noticesOf kind plan.notices = noticesOf kind (plan.items.filterMap Planned.notice?) := by
  have hparents : noticesOf kind
      (plan.parents.filterMap (ParentInfo.notice? plan.qualifiedName)) = [] :=
    noticesOf_eq_nil fun n hn => ParentInfo.kind_of_mem_notices hn ▸ hkind.symm
  rw [notices, noticesOf_append, hparents, List.nil_append]

/-- A plan tells of parents and members only. -/
theorem kind_of_mem_notices {callables fields : Nat} (h : Planned.Tally plan.items callables fields)
    {n : Notice} (hn : n ∈ plan.notices) : n.kind = .parentClassIgnored ∨
      n.kind = .memberFunctionIgnored ∨ n.kind = .memberVariableIgnored :=
  (List.mem_append.1 hn).imp ParentInfo.kind_of_mem_notices h.kind_of_mem_notices

theorem exists_tally (h : ctx.planClass c = .ok plan) :
    ∃ callables fields, Planned.Tally plan.items callables fields := by
  obtain ⟨_, _, _, _, -, -, -, hitems, rfl⟩ := planClass_eq_ok_iff.1 h
  exact ⟨_, _, tally_items hitems⟩

/-- **Every plan accounts for its class.** -/
theorem accounts (h : ctx.planClass c = .ok plan) : ∃ own inherited,
    ctx.table.membersOf c = .ok own ∧ ctx.inheritedMembers c own = .ok inherited ∧
      plan.record = c ∧ plan.Accounts ctx own inherited := by
  obtain ⟨names, flags, members, items, -, hflags, hmembers, hitems, rfl⟩ :=
    planClass_eq_ok_iff.1 h
  obtain ⟨own, inherited, hown, hinherited, hsplit⟩ := collectMembers_eq_ok_iff.1 hmembers
  have htally := tally_items hitems
  have hheirs : ∀ item ∈ inherited, item.2.isInheritable = true := fun _ hitem =>
    (of_mem_inheritedMembers hinherited hitem).1
  have hvirtual : flags.hasPureVirtual = own.any MemberRecord.isPureVirtual := by
    rw [SymbolTable.flagsOf, hown] at hflags
    exact (Except.ok.inj hflags) ▸ rfl
  have hsnd : members.map Prod.snd = own ++ inherited.map Prod.snd := by
    simp [hsplit, Function.comp_def]
  refine ⟨own, inherited, hown, hinherited, rfl, ?_⟩
  constructor
  case parents => exact List.map_map
  case ignoredParents =>
    rw [noticesOf_parents htally]
    exact ParentInfo.map_subject_notices _ _
  case callables =>
    rw [noticesOf_members (by decide),
      map_arityCount_offeredCallables hsplit hheirs hvirtual, ← htally.callables]
    exact Planned.length_callables _
  case fields =>
    rw [noticesOf_members (by decide), offeredFields, ← hsnd, ← htally.fields]
    exact Planned.length_fields _

end ClassPlan

end LoadBridge
