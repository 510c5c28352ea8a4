import LoadBridge.Proofs.Bridge.Hierarchy
import LoadBridge.Proofs.Symbol.WellFormed

/-!
# Bridge — The members of a class

The members that a class offers are its own and those it takes over (`collectMembers_eq_ok_iff`).
It takes them over class by class (`foldIn_cons_eq_ok_iff`): what it takes over can be offered by
heirs, under a name that no class before has to pass on (`of_mem_foldIn`), no name is lost
(`seen_or_exists_mem_foldIn`), and all of it belongs to classes that are not loaded
(`owner_of_mem_inheritedMembers`).  The members are records of the table
(`mem_records_of_mem_collectMembers`).
-/

namespace LoadBridge

namespace SymbolTable

variable {t : SymbolTable} {seen : List String} {c a : ClassRecord}
  {rest classes : List ClassRecord} {items : List OwnedMember} {item : OwnedMember}
  {members : List MemberRecord} {m : MemberRecord}

/-- The members that a class passes on, under names that are not `seen`. -/
def passedOn (seen : List String) (members : List MemberRecord) : List MemberRecord :=
  members.filter fun m => m.isInheritable && !seen.contains m.name

theorem mem_passedOn :
    m ∈ passedOn seen members ↔ m ∈ members ∧ m.isInheritable = true ∧ m.name ∉ seen := by
  simp [passedOn]

/-- The class has a member of this name to pass on. -/
def Offers (t : SymbolTable) (c : ClassRecord) (name : String) : Prop :=
  ∃ m, t.Declares c m ∧ m.isInheritable = true ∧ m.name = name

/-- **Members are taken over class by class**: from the first class what it passes on, from the
others what they pass on under other names. -/
theorem foldIn_cons_eq_ok_iff : t.foldIn seen (c :: rest) = .ok items ↔ ∃ members others,
    t.membersOf c = .ok members ∧
    t.foldIn (seen ++ (passedOn seen members).map MemberRecord.name) rest = .ok others ∧
    items = (passedOn seen members).map (fun m => (c, m)) ++ others := by
  rw [foldIn, bind_eq_ok]
  constructor
  · rintro ⟨members, hmembers, h⟩
    obtain ⟨others, hothers, h⟩ := bind_eq_ok.1 h
    exact ⟨members, others, hmembers, hothers, (Except.ok.inj h).symm⟩
  · rintro ⟨members, others, hmembers, hothers, rfl⟩
    exact ⟨members, hmembers, bind_eq_ok.2 ⟨others, hothers, rfl⟩⟩

/-- **What is taken over** is a member that heirs can offer, under a name that is not seen and that
no class before its own has to pass on. -/
theorem of_mem_foldIn (h : t.foldIn seen classes = .ok items) (hitem : item ∈ items) :
    t.Declares item.1 item.2 ∧ item.2.isInheritable = true ∧ item.2.name ∉ seen ∧
      ∃ before after, classes = before ++ item.1 :: after ∧
        ∀ q ∈ before, ¬ t.Offers q item.2.name := by
  induction classes generalizing seen items with
  | nil =>
      cases h
      cases hitem
  | cons c rest ih =>
      obtain ⟨members, others, hmembers, hothers, rfl⟩ := foldIn_cons_eq_ok_iff.1 h
      rcases List.mem_append.1 hitem with hitem | hitem
      · obtain ⟨m, hm, rfl⟩ := List.mem_map.1 hitem
        obtain ⟨hm, hheir, hname⟩ := mem_passedOn.1 hm
        exact ⟨(declares_iff hmembers).2 hm, hheir, hname, [], rest, rfl, nofun⟩
      · obtain ⟨hdeclares, hheir, hname, before, after, rfl, hbefore⟩ := ih hothers hitem
        rw [List.mem_append, not_or] at hname
        refine ⟨hdeclares, hheir, hname.1, c :: before, after, rfl, ?_⟩
        refine List.forall_mem_cons.2 ⟨?_, hbefore⟩
        -- what the first class has to pass on, it has brought in
        rintro ⟨m, hm, hinherit, hsame⟩
        have hbrought : m ∈ passedOn seen members :=
          mem_passedOn.2 ⟨(declares_iff hmembers).1 hm, hinherit, hsame ▸ hname.1⟩
        exact hname.2 (hsame ▸ List.mem_map_of_mem hbrought)

theorem owner_of_mem_foldIn (h : t.foldIn seen classes = .ok items) (hitem : item ∈ items) :
    item.1 ∈ classes := by
  obtain ⟨-, -, -, before, after, rfl, -⟩ := of_mem_foldIn h hitem
  exact List.mem_append_right _ List.mem_cons_self

/-- A member that heirs can offer is taken over, unless its name is taken. -/
theorem seen_or_exists_mem_foldIn (h : t.foldIn seen classes = .ok items) (ha : a ∈ classes)
    (hm : t.Declares a m) (hheir : m.isInheritable = true) :
    m.name ∈ seen ∨ ∃ item ∈ items, item.2.name = m.name := by
  induction classes generalizing seen items with
  | nil => cases ha
  | cons c rest ih =>
      obtain ⟨members, others, hmembers, hothers, rfl⟩ := foldIn_cons_eq_ok_iff.1 h
      rcases List.mem_cons.1 ha with rfl | ha
      · by_cases hseen : m.name ∈ seen
        · exact .inl hseen
        have htaken : m ∈ passedOn seen members :=
          mem_passedOn.2 ⟨(declares_iff hmembers).1 hm, hheir, hseen⟩
        exact .inr ⟨(a, m), List.mem_append_left _ (List.mem_map_of_mem htaken), rfl⟩
      · rcases ih hothers ha with hseen | ⟨item, hitem, hsame⟩
        · rcases List.mem_append.1 hseen with hseen | htaken
          · exact .inl hseen
          -- a class before it has brought the name in
          · obtain ⟨other, hother, hsame⟩ := List.mem_map.1 htaken
            exact .inr ⟨(c, other), List.mem_append_left _ (List.mem_map_of_mem hother), hsame⟩
        · exact .inr ⟨item, List.mem_append_right _ hitem, hsame⟩

theorem WellFormed.succeeds_foldIn (h : t.WellFormed) (hclasses : ∀ c ∈ classes, c ∈ t.classes) :
    Succeeds (t.foldIn seen classes) := by
  induction classes generalizing seen with
  | nil => exact succeeds_ok []
  | cons c rest ih =>
      refine (h.succeeds_membersOf (hclasses c List.mem_cons_self)).bind fun members _ => ?_
      refine (ih fun d hd => hclasses d (List.mem_cons_of_mem c hd)).bind fun others _ => ?_
      exact succeeds_ok _

end SymbolTable

namespace Context

variable {ctx : Context} {c : ClassRecord} {items : List OwnedMember} {item : OwnedMember}

theorem mem_classes_of_mem_unloadedAncestors {a : ClassRecord} (h : a ∈ ctx.unloadedAncestors c) :
    a ∈ ctx.table.classes := by
  obtain ⟨id, -, ha⟩ := List.mem_filterMap.1 h
  exact (SymbolTable.class?_eq_some_iff.1 ha).1

theorem isLoadedClass_of_mem_unloadedAncestors {a : ClassRecord}
    (h : a ∈ ctx.unloadedAncestors c) : ctx.isLoadedClass a = false := by
  obtain ⟨id, hid, ha⟩ := List.mem_filterMap.1 h
  obtain ⟨hmem, rfl⟩ := SymbolTable.class?_eq_some_iff.1 ha
  obtain ⟨_, hnext⟩ := Graph.exists_next_of_mem_spread hid
  obtain ⟨b, hb, heq, hunloaded⟩ :=
    SymbolTable.classSatisfies_iff.1 (List.mem_filter.1 hnext).2
  obtain rfl := SymbolTable.eq_of_id_eq hb hmem heq
  simpa using hunloaded

/-- The members that a class takes over, if the configuration asks for it. -/
def inheritedMembers (ctx : Context) (c : ClassRecord) (own : List MemberRecord) :
    Except SymbolError (List OwnedMember) :=
  if ctx.config.load.inheritedMembers then
    ctx.table.foldIn (own.map MemberRecord.name) (ctx.unloadedAncestors c)
  else .ok []

theorem collectMembers_eq (ctx : Context) (c : ClassRecord) :
    ctx.collectMembers c = ctx.table.membersOf c >>= fun own =>
      ctx.inheritedMembers c own >>= fun inherited =>
        .ok (own.map (fun m => (c, m)) ++ inherited) := by
  rw [collectMembers]
  congr 1
  funext own
  rw [inheritedMembers]
  cases ctx.config.load.inheritedMembers <;> rfl

/-- **The members of a class are its own, then those it takes over.** -/
theorem collectMembers_eq_ok_iff : ctx.collectMembers c = .ok items ↔ ∃ own inherited,
    ctx.table.membersOf c = .ok own ∧ ctx.inheritedMembers c own = .ok inherited ∧
      items = own.map (fun m => (c, m)) ++ inherited := by
  rw [collectMembers_eq, bind_eq_ok]
  constructor
  · rintro ⟨own, hown, h⟩
    obtain ⟨inherited, hinherited, h⟩ := bind_eq_ok.1 h
    exact ⟨own, inherited, hown, hinherited, (Except.ok.inj h).symm⟩
  · rintro ⟨own, inherited, hown, hinherited, rfl⟩
    exact ⟨own, hown, bind_eq_ok.2 ⟨inherited, hinherited, rfl⟩⟩

/-- A class that takes a member over goes through its ancestors. -/
theorem foldIn_of_mem_inheritedMembers {own : List MemberRecord}
    (h : ctx.inheritedMembers c own = .ok items) (hitem : item ∈ items) :
    ctx.table.foldIn (own.map MemberRecord.name) (ctx.unloadedAncestors c) = .ok items := by
  rw [inheritedMembers] at h
  split at h
  · exact h
  · cases h
    cases hitem

theorem of_mem_inheritedMembers {own : List MemberRecord}
    (h : ctx.inheritedMembers c own = .ok items) (hitem : item ∈ items) :
    item.2.isInheritable = true ∧ .ofMember item.2 ∈ ctx.table.records := by
  obtain ⟨⟨_, -, hfound⟩, hheir, -⟩ :=
    SymbolTable.of_mem_foldIn (foldIn_of_mem_inheritedMembers h hitem) hitem
  exact ⟨hheir, (SymbolTable.lookup_eq_some_iff.1 hfound).1⟩

/-- **What a class takes over belongs to a class that is not loaded.** -/
theorem owner_of_mem_inheritedMembers {own : List MemberRecord}
    (h : ctx.inheritedMembers c own = .ok items) (hitem : item ∈ items) :
    item.1 ∈ ctx.table.classes ∧ ctx.isLoadedClass item.1 = false := by
  have howner := SymbolTable.owner_of_mem_foldIn (foldIn_of_mem_inheritedMembers h hitem) hitem
  exact ⟨mem_classes_of_mem_unloadedAncestors howner,
    isLoadedClass_of_mem_unloadedAncestors howner⟩

theorem mem_records_of_mem_collectMembers (h : ctx.collectMembers c = .ok items)
    (hitem : item ∈ items) : .ofMember item.2 ∈ ctx.table.records := by
  obtain ⟨own, inherited, hown, hinherited, rfl⟩ := collectMembers_eq_ok_iff.1 h
  rcases List.mem_append.1 hitem with hitem | hitem
  · obtain ⟨m, hm, rfl⟩ := List.mem_map.1 hitem
    exact SymbolTable.mem_records_of_membersOf hown hm
  · exact (of_mem_inheritedMembers hinherited hitem).2

theorem succeeds_collectMembers (hwf : ctx.table.WellFormed) (hc : c ∈ ctx.table.classes) :
    Succeeds (ctx.collectMembers c) := by
  rw [collectMembers_eq]
  refine (hwf.succeeds_membersOf hc).bind fun own _ => ?_
  have hinherited : Succeeds (ctx.inheritedMembers c own) := by
    rw [inheritedMembers]
    split
    · exact hwf.succeeds_foldIn fun _ ha => mem_classes_of_mem_unloadedAncestors ha
    · exact succeeds_ok []
  exact hinherited.bind fun inherited _ => succeeds_ok _

end Context

end LoadBridge
