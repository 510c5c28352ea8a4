import LoadBridge.Proofs.Bridge.PlanAccount

/-!
# Bridge — What the entries of a plan say

Every entry of a plan is made from a member and carries what was settled for it.

* `of_mem_methods`: a method is an arity of a method or operator, named for whether it needs a
  forwarder.
* `of_mem_constructors`: a constructor is an arity of a constructor of the class itself, which is
  no abstract one and has a public constructor.
* `of_mem_fields`: a field has a shadow when it is a pointer to a loaded class.
* `PlannedCallable.needsForwarder_eq_false_iff`, `args_of_removed_eq_zero`: a method that needs no
  forwarder has all the arguments of its member, and nothing in it is loaded.
-/

namespace LoadBridge

/-- The types in the full signature of a member. -/
def MemberRecord.types (m : MemberRecord) : List TypeRef :=
  m.type.toList ++ m.args.map Argument.type

/-- An arity of a method or operator in a plan for `c`. -/
structure PlannedCallable.IsMethodOf (ctx : Context) (c : ClassRecord) (p : PlannedCallable) :
    Prop where
  kind : p.member.kind = .method ∨ p.member.kind = .operator
  returns : ∃ type, p.member.type = some type
  inherited : p.inherited = (p.owner.id != c.id)
  arity : ⟨p.args, p.removed⟩ ∈ arities p.member.args
  usesLoaded : p.usesLoaded = ctx.usesLoaded p.member.types
  name : p.interfaceName = ctx.interfaceMemberName p.member p.needsForwarder

/-- An arity of a constructor of `c`. -/
structure PlannedCallable.IsConstructorOf (c : ClassRecord) (p : PlannedCallable) : Prop where
  kind : p.member.kind = .constructor
  owner : p.owner = c
  arity : ⟨p.args, p.removed⟩ ∈ arities p.member.args

/-- A field in a plan. -/
structure PlannedField.IsFieldOf (ctx : Context) (f : PlannedField) : Prop where
  type : f.member.type = some f.type
  loaded : f.loaded = ctx.loaded? f.type
  accessor : f.accessor = ctx.affixes.suffixed (f.member.name ++ "_ref")
  shadow : f.shadow =
    if f.loaded.isSome && f.type.isPointer then
      some (ctx.affixes.suffixed (f.member.name ++ "_wrapper"))
    else none

/-- What an entry in a plan for `c` says, when it is made from `item`. -/
def Planned.Describes (ctx : Context) (c : ClassRecord) (flags : ClassFlags) (item : OwnedMember) :
    Planned → Prop
  | .constructor p =>
    p.IsConstructorOf c ∧ isFactoryConstructor c item = true ∧ flags.hasPureVirtual = false
  | .method p => p.IsMethodOf ctx c
  | .field f => f.IsFieldOf ctx
  | .ignored _ => True

theorem MemberRecord.valueType_eq_ok_iff {m : MemberRecord} {type : TypeRef} :
    m.valueType = .ok type ↔ m.type = some type := by
  rw [valueType]
  cases m.type with
  | none => simp
  | some t => rw [Except.ok.injEq, Option.some_inj]

namespace Context

variable {ctx : Context} {c owner : ClassRecord} {m : MemberRecord} {flags : ClassFlags}
  {item : OwnedMember} {items : List Planned} {entry : Planned} {plan : ClassPlan}

/-! ### One member -/

/-- An entry for a callable is one of its arities, or a notice. -/
theorem of_mem_planArities {make : Arity → Planned} (h : ctx.planArities owner m make = .ok items)
    (hentry : entry ∈ items) :
    (∃ arity ∈ arities m.args, entry = make arity) ∨ ∃ notice, entry = .ignored notice := by
  obtain ⟨arity, harity, hmade | ⟨reason, hignored⟩⟩ :=
    exists_partner_left (forall₂_planArities h) hentry
  · exact .inl ⟨arity, harity, hmade⟩
  · exact .inr ⟨_, hignored⟩

theorem describes_of_mem_planConstructor
    (hitem : isFactoryConstructor c item = true) (hvirtual : flags.hasPureVirtual = false)
    (h : ctx.planConstructor c item.2 = .ok items) (hentry : entry ∈ items) :
    entry.Describes ctx c flags item := by
  obtain ⟨arity, harity, rfl⟩ | ⟨notice, rfl⟩ := of_mem_planArities h hentry
  · have hkind : item.2.kind = .constructor := by
      simp only [isFactoryConstructor, Bool.and_eq_true, beq_iff_eq] at hitem
      exact hitem.1.1.1
    exact ⟨⟨hkind, rfl, harity⟩, hitem, hvirtual⟩
  · trivial

theorem describes_of_mem_planMethod (hitem : item.2.isOfferedFunction = true)
    (h : ctx.planMethod item.1 item.2 (item.1.id != c.id) = .ok items) (hentry : entry ∈ items) :
    entry.Describes ctx c flags item := by
  obtain ⟨returns, hreturns, h⟩ := bind_eq_ok.1 h
  have htype := MemberRecord.valueType_eq_ok_iff.1 hreturns
  obtain ⟨arity, harity, rfl⟩ | ⟨notice, rfl⟩ := of_mem_planArities h hentry
  · have hkind : item.2.kind = .method ∨ item.2.kind = .operator := by
      simp only [MemberRecord.isOfferedFunction, Bool.and_eq_true, Bool.or_eq_true,
        beq_iff_eq] at hitem
      exact hitem.2.imp id And.left
    exact
      { kind := hkind
        returns := ⟨returns, htype⟩
        inherited := rfl
        arity := harity
        usesLoaded := by rw [MemberRecord.types, htype]; rfl
        name := rfl }
  · trivial

theorem describes_of_mem_planField (h : ctx.planField item.1 item.2 = .ok items)
    (hentry : entry ∈ items) : entry.Describes ctx c flags item := by
  obtain ⟨verdict, -, h⟩ := bind_eq_ok.1 h
  cases verdict with
  | rejected reason =>
      cases h
      obtain rfl := List.mem_singleton.1 hentry
      trivial
  | accepted =>
      obtain ⟨type, htype, h⟩ := bind_eq_ok.1 h
      cases h
      obtain rfl := List.mem_singleton.1 hentry
      exact ⟨MemberRecord.valueType_eq_ok_iff.1 htype, rfl, rfl, rfl⟩

/-- **An entry says what its member says.** -/
theorem describes_of_mem_planMember (h : ctx.planMember c flags item = .ok items)
    (hentry : entry ∈ items) : entry.Describes ctx c flags item := by
  rw [planMember_eq] at h
  split at h
  · next hconstructor =>
    obtain ⟨hitem, hvirtual⟩ := Bool.and_eq_true_iff.1 hconstructor
    exact describes_of_mem_planConstructor hitem (by simpa using hvirtual) h hentry
  split at h
  · next hfunction => exact describes_of_mem_planMethod hfunction h hentry
  split at h
  · exact describes_of_mem_planField h hentry
  · cases h
    cases hentry

/-! ### All entries -/

theorem describes_of_mem_items (h : ctx.planClass c = .ok plan) (hentry : entry ∈ plan.items) :
    ∃ item, entry.Describes ctx c plan.flags item ∧
      (isFactoryConstructor c item = true → plan.hasPublicConstructor = true) := by
  obtain ⟨names, flags, members, items, -, -, -, hitems, rfl⟩ := planClass_eq_ok_iff.1 h
  obtain ⟨made, hmade, hentry⟩ := List.mem_flatten.1 hentry
  obtain ⟨item, hmember, hplan⟩ := exists_partner_left (mapM_eq_ok_iff.1 hitems) hmade
  refine ⟨item, describes_of_mem_planMember hplan hentry, fun hitem => ?_⟩
  exact List.any_eq_true.2 ⟨item, hmember, hitem⟩

/-- **A method in a plan is an arity of a method or operator.** -/
theorem of_mem_methods {p : PlannedCallable} (h : ctx.planClass c = .ok plan)
    (hp : p ∈ plan.methods) : p.IsMethodOf ctx c := by
  obtain ⟨entry, hentry, hmethod⟩ := List.mem_filterMap.1 hp
  obtain ⟨item, hdescribes, -⟩ := describes_of_mem_items h hentry
  cases entry <;> cases hmethod
  exact hdescribes

/-- **A constructor in a plan is an arity of a constructor of its class.**  The class has a public
constructor and no pure virtual member. -/
theorem of_mem_constructors {p : PlannedCallable} (h : ctx.planClass c = .ok plan)
    (hp : p ∈ plan.constructors) : p.IsConstructorOf c ∧ plan.hasPublicConstructor = true ∧
      plan.flags.hasPureVirtual = false := by
  obtain ⟨entry, hentry, hconstructor⟩ := List.mem_filterMap.1 hp
  obtain ⟨item, hdescribes, hpublic⟩ := describes_of_mem_items h hentry
  cases entry <;> cases hconstructor
  obtain ⟨hmade, hitem, hvirtual⟩ := hdescribes
  exact ⟨hmade, hpublic hitem, hvirtual⟩

/-- **A field in a plan is a field**, with a shadow when it is a pointer to a loaded class. -/
theorem of_mem_fields {f : PlannedField} (h : ctx.planClass c = .ok plan)
    (hf : f ∈ plan.fields) : f.IsFieldOf ctx := by
  obtain ⟨entry, hentry, hfield⟩ := List.mem_filterMap.1 hf
  obtain ⟨item, hdescribes, -⟩ := describes_of_mem_items h hentry
  cases entry <;> cases hfield
  exact hdescribes

end Context

/-! ### Methods that need no forwarder -/

namespace PlannedCallable

variable {ctx : Context} {c : ClassRecord} {p : PlannedCallable} {type : TypeRef}

/-- Without a forwarder nothing is loaded, left out or taken over. -/
theorem needsForwarder_eq_false_iff :
    p.needsForwarder = false ↔ p.usesLoaded = false ∧ p.removed = 0 ∧ p.inherited = false := by
  simp [needsForwarder, and_assoc]

/-- The first arity is that with all arguments. -/
theorem args_of_removed_eq_zero {args : List Argument}
    (harity : ⟨p.args, p.removed⟩ ∈ arities args) (h : p.removed = 0) : p.args = args := by
  obtain ⟨removed, -, heq⟩ := List.mem_map.1 harity
  obtain ⟨hargs, rfl⟩ := Arity.mk.inj heq
  rw [← hargs, h, Nat.sub_zero, List.take_length]

end PlannedCallable

end LoadBridge
