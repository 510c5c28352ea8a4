import LoadBridge.Proofs.Bridge.Provenance

/-!
# Bridge — What a plan exposes

A plan exposes the members that its constructors, methods and fields stand for
(`ClassPlan.exposed`).  **Each is a public member that the class has or takes over, and its path is
not on the ditch list** (`Context.of_mem_exposed`): no entry is made without a verdict on the very
member that it names.
-/

namespace LoadBridge

/-- The member that an entry stands for, with the class that declares it. -/
def Planned.exposed? : Planned → Option OwnedMember
  | .constructor p | .method p => some (p.owner, p.member)
  | .field f => some (f.owner, f.member)
  | .ignored _ => none

namespace ClassPlan

/-- The members that a plan offers, with the classes that declare them. -/
def exposed (p : ClassPlan) : List OwnedMember :=
  (p.constructors ++ p.methods).map (fun callable => (callable.owner, callable.member)) ++
    p.fields.map fun field => (field.owner, field.member)

theorem mem_exposed_iff {p : ClassPlan} {item : OwnedMember} :
    item ∈ p.exposed ↔ ∃ entry ∈ p.items, entry.exposed? = some item := by
  simp only [exposed, constructors, methods, fields, List.mem_append, List.mem_map,
    List.mem_filterMap]
  constructor
  · rintro (⟨callable, hcallable, rfl⟩ | ⟨field, ⟨entry, hentry, h⟩, rfl⟩)
    · rcases hcallable with ⟨entry, hentry, h⟩ | ⟨entry, hentry, h⟩ <;>
        cases entry <;> cases h <;> exact ⟨_, hentry, rfl⟩
    · cases entry <;> cases h
      exact ⟨_, hentry, rfl⟩
  · rintro ⟨entry, hentry, h⟩
    cases entry with
    | constructor callable =>
        exact .inl ⟨callable, .inl ⟨_, hentry, rfl⟩, Option.some.inj h⟩
    | method callable => exact .inl ⟨callable, .inr ⟨_, hentry, rfl⟩, Option.some.inj h⟩
    | field field => exact .inr ⟨field, ⟨_, hentry, rfl⟩, Option.some.inj h⟩
    | ignored => cases h

end ClassPlan

namespace Context

variable {ctx : Context} {c owner : ClassRecord} {m : MemberRecord} {flags : ClassFlags}
  {item source : OwnedMember} {members : List OwnedMember} {entries : List Planned}
  {entry : Planned} {plan : ClassPlan}

/-! ### Verdicts -/

theorem not_isDitched_of_checkMemberFunction {args : List Argument}
    (h : ctx.checkMemberFunction owner m args = .ok .accepted) :
    ctx.isDitched (memberPath owner m) = false := by
  by_contra hditched
  rw [Bool.not_eq_false] at hditched
  rw [checkMemberFunction, if_pos hditched] at h
  cases h

theorem not_isDitched_of_checkMemberVariable
    (h : ctx.checkMemberVariable owner m = .ok .accepted) :
    ctx.isDitched (memberPath owner m) = false := by
  by_contra hditched
  rw [Bool.not_eq_false] at hditched
  rw [checkMemberVariable, if_pos hditched] at h
  cases h

/-- An entry for a callable is an arity of it that is accepted, or a notice. -/
theorem accepted_of_mem_planArities {make : Arity → Planned}
    (h : ctx.planArities owner m make = .ok entries) (hentry : entry ∈ entries) :
    (∃ arity, ctx.checkMemberFunction owner m arity.args = .ok .accepted ∧ entry = make arity) ∨
      ∃ notice, entry = .ignored notice := by
  obtain ⟨arity, -, hmade⟩ := exists_partner_left (mapM_eq_ok_iff.1 h) hentry
  obtain ⟨verdict, hverdict, hmade⟩ := bind_eq_ok.1 hmade
  cases verdict with
  | accepted => exact .inl ⟨arity, hverdict, (Except.ok.inj hmade).symm⟩
  | rejected reason => exact .inr ⟨_, (Except.ok.inj hmade).symm⟩

/-! ### One member -/

/-- The entries of a callable stand for it, and then it is not on the ditch list. -/
theorem of_exposed?_planArities {make : Arity → Planned}
    (hmake : ∀ arity, (make arity).exposed? = some (owner, m))
    (h : ctx.planArities owner m make = .ok entries) (hentry : entry ∈ entries)
    (hsource : entry.exposed? = some source) :
    source = (owner, m) ∧ ctx.isDitched (memberPath owner m) = false := by
  obtain ⟨arity, haccepted, rfl⟩ | ⟨notice, rfl⟩ := accepted_of_mem_planArities h hentry
  · rw [hmake] at hsource
    exact ⟨(Option.some.inj hsource).symm, not_isDitched_of_checkMemberFunction haccepted⟩
  · cases hsource

/-- **An entry stands for the member it is planned from**, which is public, and not on the ditch
list.  A constructor is one of the class itself. -/
theorem of_exposed?_planMember (h : ctx.planMember c flags item = .ok entries)
    (hentry : entry ∈ entries) (hsource : entry.exposed? = some source) :
    (source = item ∨ source = (c, item.2) ∧ item.2.kind = .constructor) ∧
      item.2.isPublic = true ∧ ctx.isDitched (memberPath source.1 source.2) = false := by
  rw [planMember_eq] at h
  split at h
  · next hconstructor =>
    obtain ⟨hitem, -⟩ := Bool.and_eq_true_iff.1 hconstructor
    simp only [isFactoryConstructor, Bool.and_eq_true, beq_iff_eq] at hitem
    obtain ⟨rfl, hditched⟩ := of_exposed?_planArities (fun _ => rfl) h hentry hsource
    exact ⟨.inr ⟨rfl, hitem.1.1.1⟩, hitem.1.2, hditched⟩
  split at h
  · next hfunction =>
    obtain ⟨_, -, h⟩ := bind_eq_ok.1 h
    obtain ⟨rfl, hditched⟩ := of_exposed?_planArities (fun _ => rfl) h hentry hsource
    simp only [MemberRecord.isOfferedFunction, MemberRecord.isOffered, Bool.and_eq_true]
      at hfunction
    exact ⟨.inl rfl, hfunction.1.1, hditched⟩
  split at h
  · next hfield =>
    simp only [MemberRecord.isOfferedField, MemberRecord.isOffered, Bool.and_eq_true] at hfield
    obtain ⟨verdict, hverdict, h⟩ := bind_eq_ok.1 h
    cases verdict with
    | rejected reason =>
        cases h
        obtain rfl := List.mem_singleton.1 hentry
        cases hsource
    | accepted =>
        obtain ⟨type, -, h⟩ := bind_eq_ok.1 h
        cases h
        obtain rfl := List.mem_singleton.1 hentry
        cases hsource
        exact ⟨.inl rfl, hfield.1.1, not_isDitched_of_checkMemberVariable hverdict⟩
  · cases h
    cases hentry

/-! ### All members -/

/-- A constructor among the members of a class is its own: heirs take over none. -/
theorem owner_of_constructor (hmembers : ctx.collectMembers c = .ok members)
    (hitem : item ∈ members) (hkind : item.2.kind = .constructor) : item.1 = c := by
  obtain ⟨own, inherited, -, hinherited, rfl⟩ := collectMembers_eq_ok_iff.1 hmembers
  rcases List.mem_append.1 hitem with hitem | hitem
  · obtain ⟨_, -, rfl⟩ := List.mem_map.1 hitem
    rfl
  · have hheir := (of_mem_inheritedMembers hinherited hitem).1
    simp [MemberRecord.isInheritable, hkind] at hheir

/-- **What a plan exposes** is public, is a member that the class has or takes over, and has a path
that is not on the ditch list. -/
theorem of_mem_exposed (h : ctx.planClass c = .ok plan)
    (hmembers : ctx.collectMembers c = .ok members) (hitem : item ∈ plan.exposed) :
    item ∈ members ∧ item.2.isPublic = true ∧
      ctx.isDitched (memberPath item.1 item.2) = false := by
  obtain ⟨entry, hentry, hsource⟩ := ClassPlan.mem_exposed_iff.1 hitem
  obtain ⟨made, hmade, hplan⟩ := exists_items h hmembers
  rw [hplan] at hentry
  obtain ⟨entries, hentries, hentry⟩ := List.mem_flatten.1 hentry
  obtain ⟨origin, horigin, hfrom⟩ := exists_partner_left hmade hentries
  obtain ⟨rfl | ⟨rfl, hkind⟩, hpublic, hditched⟩ := of_exposed?_planMember hfrom hentry hsource
  · exact ⟨horigin, hpublic, hditched⟩
  · have howner := owner_of_constructor hmembers horigin hkind
    exact ⟨howner ▸ horigin, hpublic, hditched⟩

end Context

end LoadBridge
