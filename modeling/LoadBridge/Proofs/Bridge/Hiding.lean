import LoadBridge.Proofs.Bridge.Accessibility

/-!
# Bridge — What hides a member of an ancestor

The walk over ancestors that are not loaded comes upon each of them through ones that it has visited
before, and a name is taken once a class has brought it in.  So a member is taken over only where a
way leads to its class past classes that have nothing of its name to pass on
(`Context.unhidden_way`): a class that no way goes around hides it with a public method, operator or
field of the name.

Other members hide nothing, and a class that some way goes around may come too late.  So a member of
the root is taken over though it is declared again on the only way to it, in private, and though it
is declared again in public on one of two ways (`Context.hidden_member_taken`).
-/

namespace LoadBridge.Context

variable {ctx : Context} {c a q : ClassRecord} {before after : List ClassRecord}
  {items : List OwnedMember} {item : OwnedMember}

theorem map_id_unloadedAncestors (ctx : Context) (c : ClassRecord) :
    (ctx.unloadedAncestors c).map ClassRecord.id =
      Graph.spread ctx.unloadedBasesOf [c.id] ctx.table.classIds := by
  refine SymbolTable.map_id_filterMap_class? fun id hid => ?_
  obtain ⟨_, hnext⟩ := Graph.exists_next_of_mem_spread hid
  exact SymbolTable.mem_classIds_of_mem_filter hnext

/-- **A chain of ancestors that are visited before it leads to each of them.** -/
theorem transGen_before (hc : c ∈ ctx.table.classes)
    (hsplit : ctx.unloadedAncestors c = before ++ a :: after) :
    Relation.TransGen (fun x y => ctx.IsUnloadedBase x y ∧ (x = c ∨ x ∈ before)) c a := by
  have hclasses : ∀ x ∈ before ++ a :: after, x ∈ ctx.table.classes := by
    intro x hx
    rw [← hsplit] at hx
    exact mem_classes_of_mem_unloadedAncestors hx
  have hfound : Graph.Discovers ctx.unloadedBasesOf (ctx.unloadedBasesOf c.id)
      ((before ++ a :: after).map ClassRecord.id) := by
    have hroots : [c.id].flatMap ctx.unloadedBasesOf = ctx.unloadedBasesOf c.id :=
      List.flatMap_singleton ..
    rw [← hsplit, map_id_unloadedAncestors, ← hroots]
    exact Graph.discovers_spread _ _
  exact ctx.mirrors_unloadedBasesOf.transGen_of_discovers hc hclasses hfound

/-- **A member that is taken over comes by a way on which no class hides it.**  For every table,
cyclic or not, and every class of it, the class itself declares no member of the name, whatever its
access; a chain of classes that are not loaded leads to the class of the member past classes that
have no public method, operator or field of the name; and so a class that no chain goes around has
none. -/
theorem unhidden_way (hc : c ∈ ctx.table.classes) (h : ctx.collectMembers c = .ok items)
    (hitem : item ∈ items) (howner : item.1 ≠ c) :
    (∀ m, ctx.table.Declares c m → m.name ≠ item.2.name) ∧
    Relation.TransGen (fun x y => ctx.IsUnloadedBase x y ∧ ¬ ctx.table.Offers x item.2.name) c
      item.1 ∧
    ∀ q, ¬ Relation.TransGen (fun x y => ctx.IsUnloadedBase x y ∧ x ≠ q) c item.1 →
      ¬ ctx.table.Offers q item.2.name := by
  obtain ⟨own, inherited, hown, hinherited, rfl⟩ := collectMembers_eq_ok_iff.1 h
  have htaken : item ∈ inherited := by
    refine (List.mem_append.1 hitem).resolve_left fun hitem => howner ?_
    obtain ⟨m, -, rfl⟩ := List.mem_map.1 hitem
    rfl
  obtain ⟨-, -, hunseen, before, after, hsplit, hbefore⟩ :=
    SymbolTable.of_mem_foldIn (foldIn_of_mem_inheritedMembers hinherited htaken) htaken
  have hself : ∀ m, ctx.table.Declares c m → m.name ≠ item.2.name := by
    intro m hm hsame
    exact hunseen (hsame ▸ List.mem_map_of_mem ((SymbolTable.declares_iff hown).1 hm))
  have hway : Relation.TransGen
      (fun x y => ctx.IsUnloadedBase x y ∧ ¬ ctx.table.Offers x item.2.name) c item.1 := by
    refine Relation.TransGen.mono ?_ c item.1 (transGen_before hc hsplit)
    rintro x y ⟨hstep, rfl | hx⟩
    · exact ⟨hstep, fun ⟨m, hm, _, hsame⟩ => hself m hm hsame⟩
    · exact ⟨hstep, hbefore x hx⟩
  refine ⟨hself, hway, fun q hguards hoffers => hguards ?_⟩
  refine Relation.TransGen.mono ?_ c item.1 hway
  exact fun x y ⟨hstep, hnone⟩ => ⟨hstep, fun hxq => hnone (hxq ▸ hoffers)⟩

/-! ### A member that is declared twice -/

/-- The class above, with two methods. -/
def topRecord : ClassRecord where
  id := ⟨"_1"⟩
  name := "Top"
  members := [⟨"_4"⟩, ⟨"_5"⟩]

/-- Its heir, with a method. -/
def middleRecord : ClassRecord where
  id := ⟨"_2"⟩
  name := "Middle"
  members := [⟨"_6"⟩]
  bases := [{ id := ⟨"_1"⟩, isVirtual := true }]

/-- An heir of the second class, and before that of the first one if it is `direct`. -/
def bottomRecord (direct : Bool) : ClassRecord where
  id := ⟨"_3"⟩
  name := "Bottom"
  bases := (if direct then [{ id := ⟨"_1"⟩, isVirtual := true }] else []) ++ [{ id := ⟨"_2"⟩ }]

def topMembers : List MemberRecord :=
  [{ id := ⟨"_4"⟩, name := "size", kind := .method, context := ⟨"_1"⟩ },
    { id := ⟨"_5"⟩, name := "clear", kind := .method, context := ⟨"_1"⟩ }]

/-- A method of the same name, with this access. -/
def middleMember (access : Access) : MemberRecord where
  id := ⟨"_6"⟩
  name := "size"
  kind := .method
  context := ⟨"_2"⟩
  access := access

/-- Only the last class is loaded, and heirs take members over. -/
def towerContext (direct : Bool) (access : Access) : Context :=
  (new
    { records :=
        [.ofClass topRecord, .ofClass middleRecord, .ofClass (bottomRecord direct)] ++
          (topMembers ++ [middleMember access]).map .ofMember
      distinct := by cases direct <;> cases access <;> decide }
    { load := { inheritedMembers := true } }).register [⟨[], "Bottom"⟩]

theorem acyclic_tower (direct : Bool) (access : Access) :
    (towerContext direct access).table.BasesAcyclic := by
  refine SymbolTable.basesAcyclic_of_rank
    (fun id => if id = ⟨"_3"⟩ then 2 else if id = ⟨"_2"⟩ then 1 else 0) ?_
  cases direct <;> cases access <;> decide

theorem unhidden_way_tower : bottomRecord false ∈ (towerContext false .forAll).table.classes ∧
    (towerContext false .forAll).collectMembers (bottomRecord false) =
      .ok [(middleRecord, middleMember .forAll), (topRecord, topMembers[1])] ∧
    Relation.TransGen (fun x y => (towerContext false .forAll).IsUnloadedBase x y ∧
      ¬ (towerContext false .forAll).table.Offers x "clear") (bottomRecord false) topRecord ∧
    ¬ (towerContext false .forAll).table.Offers middleRecord "clear" := by
  have hc : bottomRecord false ∈ (towerContext false .forAll).table.classes := by decide
  have hmembers : (towerContext false .forAll).collectMembers (bottomRecord false) =
      .ok [(middleRecord, middleMember .forAll), (topRecord, topMembers[1])] := by cbv
  obtain ⟨-, hway, hguards⟩ := unhidden_way hc hmembers
    (List.mem_cons_of_mem _ List.mem_cons_self) (by decide)
  refine ⟨hc, hmembers, hway, hguards middleRecord fun haround => ?_⟩
  -- its only parent is the middle class
  obtain ⟨y, ⟨hstep, -⟩, hrest⟩ := Relation.TransGen.head'_iff.1 haround
  obtain ⟨hy, hbase⟩ := SymbolTable.isBase_iff.1 hstep.1
  have hparents : ∀ y ∈ (towerContext false .forAll).table.classes,
      y.id ∈ (bottomRecord false).baseIds → y = middleRecord := by decide
  obtain rfl := hparents y hy hbase
  rcases hrest.cases_head with hsame | ⟨z, ⟨-, hother⟩, -⟩
  · exact absurd hsame (by decide)
  · exact hother rfl

/-- The class takes a member over though a class on a way to its owner declares one of the name. -/
def TakesHidden (ctx : Context) (c : ClassRecord) : Prop :=
  ∃ items, ctx.collectMembers c = .ok items ∧ ∃ item ∈ items, item.1 ≠ c ∧
    ∃ q m, Relation.TransGen ctx.IsUnloadedBase c q ∧
      Relation.TransGen ctx.IsUnloadedBase q item.1 ∧ ctx.table.Declares q m ∧
      m.name = item.2.name

/-- Both methods of the first class are taken over, though the second one has one of them. -/
theorem takesHidden_tower {direct : Bool} {access : Access}
    (h : (towerContext direct access).collectMembers (bottomRecord direct) =
      .ok (topMembers.map fun m => (topRecord, m))) :
    (towerContext direct access).TakesHidden (bottomRecord direct) := by
  have hmiddle :
      (towerContext direct access).IsUnloadedBase (bottomRecord direct) middleRecord := by
    refine ⟨SymbolTable.isBase_iff.2 ?_, ?_⟩
    · cases direct <;> cases access <;> decide
    · cases direct <;> cases access <;> decide
  have htop : (towerContext direct access).IsUnloadedBase middleRecord topRecord := by
    refine ⟨SymbolTable.isBase_iff.2 ?_, ?_⟩
    · cases direct <;> cases access <;> decide
    · cases direct <;> cases access <;> decide
  have hdeclares : (towerContext direct access).table.Declares middleRecord (middleMember access) :=
    ⟨⟨"_6"⟩, List.mem_cons_self, by cases direct <;> cases access <;> decide⟩
  refine ⟨_, h, (topRecord, topMembers[0]), by simp [topMembers], ?_, middleRecord,
    middleMember access, .single hmiddle, .single htop, hdeclares, rfl⟩
  cases direct <;> decide

/-- **A hidden member is taken over**, though no class is its own ancestor: on the only way to it
the name is declared in private; on one of two ways it is declared in public. -/
theorem hidden_member_taken :
    ((towerContext false .forSelf).table.BasesAcyclic ∧
      (towerContext false .forSelf).isLoadedClass (bottomRecord false) = true ∧
      (towerContext false .forSelf).TakesHidden (bottomRecord false)) ∧
    (towerContext true .forAll).table.BasesAcyclic ∧
      (towerContext true .forAll).isLoadedClass (bottomRecord true) = true ∧
      (towerContext true .forAll).TakesHidden (bottomRecord true) := by
  refine ⟨⟨acyclic_tower _ _, by decide, takesHidden_tower ?_⟩,
    acyclic_tower _ _, by decide, takesHidden_tower ?_⟩
  · cbv
  · cbv

end LoadBridge.Context
