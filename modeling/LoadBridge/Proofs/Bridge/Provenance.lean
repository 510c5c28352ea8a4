import LoadBridge.Proofs.Bridge.Entries
import LoadBridge.Proofs.Symbol.Arity

/-!
# Bridge — Where entries come from

Every entry of a plan is planned from one member of its class, own or taken over.

* `exists_item_of_mem_methods`: a method comes from a member that is offered, and is no operator
  without an identifier.
* `mem_own_of_not_inherited`: a method that is not taken over comes from a member of the class
  itself.
* `pairwise_methods`, `pairwise_constructors`, `nodup_names_fields`: entries of one sort are apart
  where those of one member are, and those of any two members.
-/

namespace LoadBridge

/-- The member that an entry of a plan for `c` comes from. -/
def Planned.IsFrom (c : ClassRecord) (item : OwnedMember) : Planned → Prop
  | .constructor p => p.member = item.2 ∧ isFactoryConstructor c item = true
  | .method p => p.member = item.2 ∧ p.owner = item.1 ∧ item.2.isOfferedFunction = true ∧
    item.2.isUnnamedOperator = false
  | .field f => f.member = item.2 ∧ item.2.isOfferedField = true
  | .ignored _ => True

/-- The callable that is planned, if one is. -/
def Planned.callable? : Planned → Option PlannedCallable
  | .constructor p | .method p => some p
  | _ => none

/-- Entries of one member are callables of different lengths, or there is but one field. -/
structure Planned.Apart (x y : Planned) : Prop where
  callables : ∀ p q, x.callable? = some p → y.callable? = some q → p.args.length ≠ q.args.length
  fields : x.field? = none ∨ y.field? = none

namespace Context

variable {ctx : Context} {c owner : ClassRecord} {m : MemberRecord} {flags : ClassFlags}
  {item : OwnedMember} {members : List OwnedMember} {entries : List Planned} {plan : ClassPlan}

/-- An operator without an identifier is not accepted. -/
theorem named_of_checkMemberFunction {args : List Argument}
    (h : ctx.checkMemberFunction owner m args = .ok .accepted) : m.isUnnamedOperator = false := by
  rw [checkMemberFunction] at h
  by_contra hunnamed
  rw [Bool.not_eq_false] at hunnamed
  simp only [hunnamed, if_true] at h
  split at h
  · cases h
  · split at h <;> cases h

/-- What a callable's entries come from, and how they are apart. -/
theorem of_planArities {make : Arity → Planned}
    (hmake : ∀ arity, ∃ p, (make arity).callable? = some p ∧ p.args = arity.args)
    (hfrom : m.isUnnamedOperator = false → ∀ arity, (make arity).IsFrom c item)
    (h : ctx.planArities owner m make = .ok entries) :
    (∀ entry ∈ entries, entry.IsFrom c item) ∧ entries.Pairwise Planned.Apart := by
  have hentries : List.Forall₂ (fun arity entry =>
      (m.isUnnamedOperator = false ∧ entry = make arity) ∨ ∃ notice, entry = .ignored notice)
      (arities m.args) entries := by
    refine (mapM_eq_ok_iff.1 h).imp fun arity entry hentry => ?_
    obtain ⟨verdict, hverdict, hentry⟩ := bind_eq_ok.1 hentry
    cases verdict with
    | accepted =>
        exact .inl ⟨named_of_checkMemberFunction hverdict, (Except.ok.inj hentry).symm⟩
    | rejected reason => exact .inr ⟨_, (Except.ok.inj hentry).symm⟩
  constructor
  · intro entry hentry
    obtain ⟨arity, -, ⟨hnamed, rfl⟩ | ⟨notice, rfl⟩⟩ := exists_partner_left hentries hentry
    · exact hfrom hnamed arity
    · trivial
  · refine pairwise_of_pairing hentries (pairwise_length_arities m.args) ?_
    rintro x y entry entry' (⟨-, rfl⟩ | ⟨_, rfl⟩) (⟨-, rfl⟩ | ⟨_, rfl⟩) hshorter
    · obtain ⟨p, hp, hpargs⟩ := hmake x
      obtain ⟨q, hq, hqargs⟩ := hmake y
      refine ⟨fun p' q' hp' hq' => ?_, .inl ?_⟩
      · rw [hp] at hp'
        rw [hq] at hq'
        cases hp'
        cases hq'
        rw [hpargs, hqargs]
        exact hshorter.ne'
      · cases hmade : make x <;> simp_all [Planned.callable?, Planned.field?]
    · exact ⟨by simp [Planned.callable?], .inr rfl⟩
    · exact ⟨by simp [Planned.callable?], .inl rfl⟩
    · exact ⟨by simp [Planned.callable?], .inl rfl⟩

/-- **What a member's entries come from, and how they are apart.** -/
theorem of_planMember (h : ctx.planMember c flags item = .ok entries) :
    (∀ entry ∈ entries, entry.IsFrom c item) ∧ entries.Pairwise Planned.Apart := by
  rw [planMember_eq] at h
  split at h
  · next hconstructor =>
    have hitem := (Bool.and_eq_true_iff.1 hconstructor).1
    refine of_planArities ?_ ?_ h
    · exact fun _ => ⟨_, rfl, rfl⟩
    · exact fun _ _ => ⟨rfl, hitem⟩
  split at h
  · next hfunction =>
    obtain ⟨_, -, h⟩ := bind_eq_ok.1 h
    refine of_planArities ?_ ?_ h
    · exact fun _ => ⟨_, rfl, rfl⟩
    · exact fun hnamed _ => ⟨rfl, rfl, hfunction, hnamed⟩
  split at h
  · next hfield =>
    obtain ⟨verdict, -, h⟩ := bind_eq_ok.1 h
    cases verdict with
    | rejected reason =>
        cases h
        exact ⟨by simp [Planned.IsFrom], List.pairwise_singleton ..⟩
    | accepted =>
        obtain ⟨type, -, h⟩ := bind_eq_ok.1 h
        cases h
        exact ⟨by simp [Planned.IsFrom, hfield], List.pairwise_singleton ..⟩
  · cases h
    exact ⟨by simp, .nil⟩

/-! ### All entries -/

variable {p : PlannedCallable} {own : List MemberRecord}

theorem exists_items (h : ctx.planClass c = .ok plan)
    (hmembers : ctx.collectMembers c = .ok members) :
    ∃ items, List.Forall₂ (fun item entries => ctx.planMember c plan.flags item = .ok entries)
      members items ∧ plan.items = items.flatten := by
  obtain ⟨names, flags, members', items, -, -, hmembers', hitems, rfl⟩ := planClass_eq_ok_iff.1 h
  obtain rfl := Except.ok.inj (hmembers.symm.trans hmembers')
  exact ⟨items, mapM_eq_ok_iff.1 hitems, rfl⟩

theorem exists_item_of_mem_items (h : ctx.planClass c = .ok plan)
    (hmembers : ctx.collectMembers c = .ok members) {entry : Planned}
    (hentry : entry ∈ plan.items) : ∃ item ∈ members, entry.IsFrom c item := by
  obtain ⟨items, hitems, hplan⟩ := exists_items h hmembers
  rw [hplan] at hentry
  obtain ⟨entries, hentries, hentry⟩ := List.mem_flatten.1 hentry
  obtain ⟨item, hitem, hmade⟩ := exists_partner_left hitems hentries
  exact ⟨item, hitem, (of_planMember hmade).1 entry hentry⟩

/-- **A method comes from a member that is offered.** -/
theorem exists_item_of_mem_methods (h : ctx.planClass c = .ok plan)
    (hmembers : ctx.collectMembers c = .ok members) (hp : p ∈ plan.methods) :
    ∃ item ∈ members, p.member = item.2 ∧ p.owner = item.1 ∧ item.2.isOfferedFunction = true ∧
      item.2.isUnnamedOperator = false := by
  obtain ⟨entry, hentry, hmethod⟩ := List.mem_filterMap.1 hp
  obtain ⟨item, hitem, hfrom⟩ := exists_item_of_mem_items h hmembers hentry
  cases entry <;> cases hmethod
  exact ⟨item, hitem, hfrom⟩

/-- **A method that is not taken over comes from a member of its class.** -/
theorem mem_own_of_not_inherited (h : ctx.planClass c = .ok plan) (hc : c ∈ ctx.table.classes)
    (hown : ctx.table.membersOf c = .ok own) (hp : p ∈ plan.methods)
    (hinherited : p.inherited = false) : p.member ∈ own := by
  obtain ⟨_, _, members, _, hnames, -, hmembers, -, -⟩ := planClass_eq_ok_iff.1 h
  obtain ⟨item, hitem, hmember, howner, -, -⟩ := exists_item_of_mem_methods h hmembers hp
  obtain ⟨own', taken, hown', htaken, rfl⟩ := collectMembers_eq_ok_iff.1 hmembers
  obtain rfl := Except.ok.inj (hown.symm.trans hown')
  rcases List.mem_append.1 hitem with hitem | hitem
  · obtain ⟨m, hm, rfl⟩ := List.mem_map.1 hitem
    exact hmember ▸ hm
  · -- its owner would be the class, which is loaded, and be not loaded
    obtain ⟨hclass, hunloaded⟩ := owner_of_mem_inheritedMembers htaken hitem
    have hid : item.1.id = c.id := by
      rw [(of_mem_methods h hp).inherited, bne_eq_false_iff_eq, howner] at hinherited
      exact hinherited
    obtain rfl := SymbolTable.eq_of_id_eq hclass hc hid
    rw [isLoadedClass, NameTable.isLoaded, hnames] at hunloaded
    cases hunloaded

/-- **Entries are apart** where those of one member are, and those of any two members. -/
theorem pairwise_planned {T : Planned → Planned → Prop} (h : ctx.planClass c = .ok plan)
    (hmembers : ctx.collectMembers c = .ok members)
    (hone : ∀ item ∈ members, ∀ x y, x.IsFrom c item → y.IsFrom c item → x.Apart y → T x y)
    (htwo : members.Pairwise fun a b => ∀ x y, x.IsFrom c a → y.IsFrom c b → T x y) :
    plan.items.Pairwise T := by
  obtain ⟨items, hitems, hplan⟩ := exists_items h hmembers
  rw [hplan, List.pairwise_flatten]
  constructor
  · intro entries hentries
    obtain ⟨item, hitem, hmade⟩ := exists_partner_left hitems hentries
    obtain ⟨hfrom, hapart⟩ := of_planMember hmade
    exact hapart.imp_of_mem fun hx hy hxy => hone item hitem _ _ (hfrom _ hx) (hfrom _ hy) hxy
  · refine pairwise_of_pairing hitems htwo fun a b xs ys hxs hys hab x hx y hy => ?_
    exact hab x y ((of_planMember hxs).1 x hx) ((of_planMember hys).1 y hy)

/-! ### Two entries of one sort -/

/-- The callables of one sort are apart where two arities of one member are, and the arities of any
two. -/
theorem pairwise_callables {T : PlannedCallable → PlannedCallable → Prop}
    (sort : Planned → Option PlannedCallable)
    (hsort : ∀ x p, sort x = some p → x.callable? = some p)
    (h : ctx.planClass c = .ok plan) (hmembers : ctx.collectMembers c = .ok members)
    (hone : ∀ p q : PlannedCallable, p.args.length ≠ q.args.length → T p q)
    (htwo : members.Pairwise fun a b => ∀ x y p q, x.IsFrom c a → y.IsFrom c b →
      sort x = some p → sort y = some q → T p q) :
    (plan.items.filterMap sort).Pairwise T := by
  refine List.pairwise_filterMap.2 (pairwise_planned h hmembers ?_ (htwo.imp fun {a b} hab => ?_))
  · intro item _ x y _ _ hapart p hp q hq
    exact hone p q (hapart.callables p q (hsort x p hp) (hsort y q hq))
  · intro x y hx hy p hp q hq
    exact hab x y p q hx hy hp hq

/-- **Methods are apart** where two arities of one member are, and the arities of any two. -/
theorem pairwise_methods {T : PlannedCallable → PlannedCallable → Prop}
    (h : ctx.planClass c = .ok plan) (hmembers : ctx.collectMembers c = .ok members)
    (hone : ∀ p q : PlannedCallable, p.args.length ≠ q.args.length → T p q)
    (htwo : members.Pairwise fun a b => a.2.isOfferedFunction = true →
      b.2.isOfferedFunction = true → ∀ p q : PlannedCallable, p.IsMethodOf ctx c →
      q.IsMethodOf ctx c → p.member = a.2 → q.member = b.2 → T p q) :
    plan.methods.Pairwise T := by
  have hmethods : plan.methods.Pairwise fun p q =>
      p.IsMethodOf ctx c → q.IsMethodOf ctx c → T p q := by
    refine pairwise_callables Planned.method? ?_ h hmembers ?_ (htwo.imp fun {a b} hab => ?_)
    · intro x p hp
      cases x <;> cases hp
      rfl
    · exact fun p q hlength _ _ => hone p q hlength
    · intro x y p q hx hy hp hq hpm hqm
      cases x <;> cases hp
      cases y <;> cases hq
      exact hab hx.2.2.1 hy.2.2.1 p q hpm hqm hx.1 hy.1
  exact hmethods.imp_of_mem fun hp hq hpq => hpq (of_mem_methods h hp) (of_mem_methods h hq)

/-- **Constructors are apart** where two arities of one member are, and the arities of any two. -/
theorem pairwise_constructors {T : PlannedCallable → PlannedCallable → Prop}
    (h : ctx.planClass c = .ok plan) (hmembers : ctx.collectMembers c = .ok members)
    (hone : ∀ p q : PlannedCallable, p.args.length ≠ q.args.length → T p q)
    (htwo : members.Pairwise fun a b => isFactoryConstructor c a = true →
      isFactoryConstructor c b = true → ∀ p q : PlannedCallable, p.IsConstructorOf c →
      q.IsConstructorOf c → p.member = a.2 → q.member = b.2 → T p q) :
    plan.constructors.Pairwise T := by
  have hconstructors : plan.constructors.Pairwise fun p q =>
      p.IsConstructorOf c → q.IsConstructorOf c → T p q := by
    refine pairwise_callables Planned.constructor? ?_ h hmembers ?_ (htwo.imp fun {a b} hab => ?_)
    · intro x p hp
      cases x <;> cases hp
      rfl
    · exact fun p q hlength _ _ => hone p q hlength
    · intro x y p q hx hy hp hq hpm hqm
      cases x <;> cases hp
      cases y <;> cases hq
      exact hab hx.2 hy.2 p q hpm hqm hx.1 hy.1
  exact hconstructors.imp_of_mem fun hp hq hpq =>
    hpq (of_mem_constructors h hp).1 (of_mem_constructors h hq).1

/-- Fields that are offered under names of their own are planned under names of their own. -/
theorem nodup_names_fields (h : ctx.planClass c = .ok plan)
    (hmembers : ctx.collectMembers c = .ok members)
    (hfields : ((members.filter fun item => item.2.isOfferedField).map fun item =>
      item.2.name).Nodup) : (plan.fields.map fun f => f.member.name).Nodup := by
  have htwo := List.pairwise_filter.1 (List.pairwise_map.1 hfields)
  have hitems : plan.items.Pairwise fun x y => ∀ f, x.field? = some f → ∀ g, y.field? = some g →
      f.member.name ≠ g.member.name := by
    refine pairwise_planned h hmembers ?_ (htwo.imp fun {a b} hab => ?_)
    · intro item _ x y _ _ hapart f hf g hg
      rcases hapart.fields with hnone | hnone
      · cases hnone.symm.trans hf
      · cases hnone.symm.trans hg
    · intro x y hx hy f hf g hg
      cases x <;> cases hf
      cases y <;> cases hg
      rw [hx.1, hy.1]
      exact hab hx.2 hy.2
  exact List.pairwise_map.2 (List.pairwise_filterMap.2 hitems)

end Context

end LoadBridge
