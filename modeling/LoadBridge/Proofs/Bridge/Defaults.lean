import LoadBridge.Proofs.Bridge.FunctionAccount
import LoadBridge.Proofs.Bridge.Reserved
import LoadBridge.Proofs.Bridge.Wrapper
import LoadBridge.Proofs.Symbol.Arity

/-!
# Bridge — Default arguments

A signature is accepted when each of its types is, so an arity is accepted with every longer one
(`checkSignature_of_longer`), and the arities of a callable that are offered are the last ones
(`OfferedArities`).  A plan lists them member by member, and a run wraps them function by function:
`Context.default_expansion`.
-/

namespace LoadBridge

/-- One way to call a planned callable. -/
def PlannedCallable.call (p : PlannedCallable) : Arity := ⟨p.args, p.removed⟩

/-- `calls` are the arities of `args` that are accepted, and an arity is accepted with every longer
one: nothing is missing between the longest that is accepted and the one without any default. -/
structure OfferedArities (args : List Argument) (accepts : Arity → Bool) (calls : List Arity) :
    Prop where
  accepted : calls = (arities args).filter accepts
  closed : ∀ x ∈ arities args, ∀ y ∈ arities args, x.removed ≤ y.removed → accepts x = true →
    accepts y = true
  expands : ∀ k, EndsInDefaults args k → Expands args k calls

theorem offeredArities_of_longer {args : List Argument} {accepts : Arity → Bool}
    (h : ∀ x y : Arity, y.args <+: x.args → accepts x = true → accepts y = true) :
    OfferedArities args accepts ((arities args).filter accepts) := by
  have hclosed : ∀ x ∈ arities args, ∀ y ∈ arities args, x.removed ≤ y.removed →
      accepts x = true → accepts y = true := fun x hx y hy hle =>
    h x y (isPrefix_of_removed_le hx hy hle)
  exact ⟨rfl, hclosed, fun k hk => expands_filter hk hclosed⟩

namespace Context

variable {ctx : Context} {c owner : ClassRecord} {m : MemberRecord} {f : FunctionRecord}
  {args args' : List Argument}

/-! ### Verdicts -/

/-- Whether a way to call a member is accepted. -/
def acceptsMember (ctx : Context) (owner : ClassRecord) (m : MemberRecord) (arity : Arity) : Bool :=
  match ctx.checkMemberFunction owner m arity.args with
  | .ok .accepted => true
  | _ => false

theorem acceptsMember_iff {arity : Arity} : ctx.acceptsMember owner m arity = true ↔
    ctx.checkMemberFunction owner m arity.args = .ok .accepted := by
  rw [acceptsMember]
  split
  · next h => exact ⟨fun _ => h, fun _ => rfl⟩
  · next h => exact ⟨fun h' => absurd h' Bool.false_ne_true, fun h' => absurd h' h⟩

theorem acceptsCall_iff {arity : Arity} : ctx.acceptsCall f arity = true ↔
    ctx.checkFunction f arity.args = .ok .accepted := by
  rw [acceptsCall]
  split
  · next h => exact ⟨fun _ => h, fun _ => rfl⟩
  · next h => exact ⟨fun h' => absurd h' Bool.false_ne_true, fun h' => absurd h' h⟩

/-- **Types are accepted when each of them is.** -/
theorem checkTypes_eq_accepted_iff {types : List TypeRef} :
    ctx.checkTypes types = .ok .accepted ↔ ∀ t ∈ types, ctx.checkType t = .ok .accepted := by
  induction types with
  | nil => simp [checkTypes]
  | cons t rest ih =>
      rw [checkTypes, bind_eq_ok, List.forall_mem_cons, ← ih]
      constructor
      · rintro ⟨verdict, ht, hrest⟩
        cases verdict with
        | accepted => exact ⟨ht, hrest⟩
        | rejected reason => cases hrest
      · rintro ⟨ht, hrest⟩
        exact ⟨.accepted, ht, hrest⟩

/-- A signature stays accepted when arguments at its end are left out. -/
theorem checkSignature_of_longer {returns : Option TypeRef} (hargs : args' <+: args)
    (h : ctx.checkSignature returns args = .ok .accepted) :
    ctx.checkSignature returns args' = .ok .accepted := by
  rw [checkSignature, checkTypes_eq_accepted_iff] at h ⊢
  have hsub : args'.map Argument.type ⊆ args.map Argument.type :=
    List.map_subset _ hargs.subset
  intro t ht
  rcases List.mem_append.1 ht with ht | ht
  · exact h t (List.mem_append_left _ ht)
  · exact h t (List.mem_append_right _ (hsub ht))

theorem checkMemberFunction_of_longer (hargs : args' <+: args)
    (h : ctx.checkMemberFunction owner m args = .ok .accepted) :
    ctx.checkMemberFunction owner m args' = .ok .accepted := by
  rw [checkMemberFunction] at h ⊢
  -- the other reasons for a rejection do not look at the arguments
  split at h
  · cases h
  split at h
  · cases h
  split at h
  · cases h
  · next hditched hstatic hunnamed =>
    rw [if_neg hditched, if_neg hstatic, if_neg hunnamed]
    obtain ⟨returned, hreturned, h⟩ := bind_eq_ok.1 h
    exact bind_eq_ok.2 ⟨returned, hreturned, checkSignature_of_longer hargs h⟩

theorem checkFunction_of_longer (hargs : args' <+: args)
    (h : ctx.checkFunction f args = .ok .accepted) : ctx.checkFunction f args' = .ok .accepted := by
  rw [checkFunction] at h ⊢
  split at h
  · cases h
  · next hditched =>
    rw [if_neg hditched]
    obtain ⟨returns, hreturns, h⟩ := bind_eq_ok.1 h
    exact bind_eq_ok.2 ⟨returns, hreturns, checkSignature_of_longer hargs h⟩

theorem offeredArities_member (ctx : Context) (owner : ClassRecord) (m : MemberRecord) :
    OfferedArities m.args (ctx.acceptsMember owner m)
      ((arities m.args).filter (ctx.acceptsMember owner m)) :=
  offeredArities_of_longer fun _ _ hargs h =>
    acceptsMember_iff.2 (checkMemberFunction_of_longer hargs (acceptsMember_iff.1 h))

theorem offeredArities_function (ctx : Context) (f : FunctionRecord) :
    OfferedArities f.args (ctx.acceptsCall f) ((arities f.args).filter (ctx.acceptsCall f)) :=
  offeredArities_of_longer fun _ _ hargs h =>
    acceptsCall_iff.2 (checkFunction_of_longer hargs (acceptsCall_iff.1 h))

/-! ### Members -/

/-- The entry of an arity of a method or operator in a plan for `c`. -/
def methodEntry (ctx : Context) (c : ClassRecord) (item : OwnedMember) (arity : Arity) :
    PlannedCallable where
  member := item.2
  owner := item.1
  inherited := item.1.id != c.id
  args := arity.args
  removed := arity.removed
  usesLoaded := ctx.usesLoaded item.2.types
  interfaceName := ctx.interfaceMemberName item.2
    (ctx.usesLoaded item.2.types || arity.isTruncated || item.1.id != c.id)

/-- The entry of an arity of a constructor in a plan for `c`. -/
def constructorEntry (c : ClassRecord) (m : MemberRecord) (arity : Arity) : PlannedCallable where
  member := m
  owner := c
  inherited := false
  args := arity.args
  removed := arity.removed
  usesLoaded := false
  interfaceName := c.shortName

section Sorts

variable {make : Arity → Planned} {entries : List Planned} {sort : Planned → Option PlannedCallable}

/-- The entries that the arities of a member give: those of the arities that are accepted. -/
theorem filterMap_planArities {entry : Arity → PlannedCallable}
    (hmake : ∀ arity, sort (make arity) = some (entry arity))
    (hignored : ∀ notice, sort (.ignored notice) = none)
    (h : ctx.planArities owner m make = .ok entries) :
    entries.filterMap sort = ((arities m.args).filter (ctx.acceptsMember owner m)).map entry := by
  have hpairs : List.Forall₂ (fun arity planned => sort planned =
      if ctx.acceptsMember owner m arity then some (entry arity) else none)
      (arities m.args) entries := by
    refine (mapM_eq_ok_iff.1 h).imp fun arity planned hplanned => ?_
    obtain ⟨verdict, hverdict, hplanned⟩ := bind_eq_ok.1 hplanned
    cases verdict with
    | accepted => rw [← Except.ok.inj hplanned, if_pos (acceptsMember_iff.2 hverdict), hmake]
    | rejected reason =>
        have hno : ¬ ctx.acceptsMember owner m arity = true := fun hyes => by
          cases hverdict.symm.trans (acceptsMember_iff.1 hyes)
        rw [← Except.ok.inj hplanned, if_neg hno, hignored]
  rw [filterMap_eq_filterMap_of_pairing hpairs fun _ _ hsort => hsort]
  induction arities m.args with
  | nil => rfl
  | cons arity rest ih =>
      by_cases hyes : ctx.acceptsMember owner m arity = true
      · simp [hyes, ih]
      · simp [hyes, ih]

/-- The arities of a member give entries of no other sort. -/
theorem filterMap_planArities_of_none (hmake : ∀ arity, sort (make arity) = none)
    (hignored : ∀ notice, sort (.ignored notice) = none)
    (h : ctx.planArities owner m make = .ok entries) : entries.filterMap sort = [] := by
  refine List.filterMap_eq_nil_iff.2 fun planned hplanned => ?_
  obtain ⟨arity, -, rfl⟩ | ⟨notice, rfl⟩ := of_mem_planArities h hplanned
  · exact hmake arity
  · exact hignored notice

/-- A field gives no callable. -/
theorem filterMap_planField (hfield : ∀ f, sort (.field f) = none)
    (hignored : ∀ notice, sort (.ignored notice) = none)
    (h : ctx.planField owner m = .ok entries) : entries.filterMap sort = [] := by
  obtain ⟨verdict, -, h⟩ := bind_eq_ok.1 h
  cases verdict with
  | rejected reason =>
      cases h
      rw [List.filterMap_cons, hignored, List.filterMap_nil]
  | accepted =>
      obtain ⟨type, -, h⟩ := bind_eq_ok.1 h
      cases h
      rw [List.filterMap_cons, hfield, List.filterMap_nil]

end Sorts

variable {flags : ClassFlags} {item : OwnedMember} {entries : List Planned}
  {members : List OwnedMember} {plan : ClassPlan}

/-- The methods that a member gives: those of its accepted arities, if it is offered. -/
theorem methods_planMember (h : ctx.planMember c flags item = .ok entries) :
    entries.filterMap Planned.method? = if item.2.isOfferedFunction then
      ((arities item.2.args).filter (ctx.acceptsMember item.1 item.2)).map (ctx.methodEntry c item)
    else [] := by
  rw [planMember_eq] at h
  split at h
  · next hconstructor =>
    obtain ⟨hfunction, -⟩ := not_isOffered_of_isFactoryConstructor
      (Bool.and_eq_true_iff.1 hconstructor).1
    rw [hfunction, if_neg Bool.false_ne_true]
    exact filterMap_planArities_of_none (fun _ => rfl) (fun _ => rfl) h
  split at h
  · next hfunction =>
    obtain ⟨returns, hreturns, h⟩ := bind_eq_ok.1 h
    have htypes : returns :: item.2.args.map Argument.type = item.2.types := by
      rw [MemberRecord.types, MemberRecord.valueType_eq_ok_iff.1 hreturns]
      rfl
    rw [htypes] at h
    rw [if_pos hfunction]
    exact filterMap_planArities (fun _ => rfl) (fun _ => rfl) h
  · next hfunction =>
    rw [if_neg hfunction]
    split at h
    · exact filterMap_planField (fun _ => rfl) (fun _ => rfl) h
    · cases h
      rfl

/-- The constructors that a member gives: those of its accepted arities, if the class has
factories. -/
theorem constructors_planMember (h : ctx.planMember c flags item = .ok entries) :
    entries.filterMap Planned.constructor? =
      if isFactoryConstructor c item && !flags.hasPureVirtual then
        ((arities item.2.args).filter (ctx.acceptsMember c item.2)).map (constructorEntry c item.2)
      else [] := by
  rw [planMember_eq] at h
  split at h
  · next hconstructor =>
    rw [if_pos hconstructor]
    exact filterMap_planArities (fun _ => rfl) (fun _ => rfl) h
  · next hconstructor =>
    rw [if_neg hconstructor]
    split at h
    · obtain ⟨returns, -, h⟩ := bind_eq_ok.1 h
      exact filterMap_planArities_of_none (fun _ => rfl) (fun _ => rfl) h
    split at h
    · exact filterMap_planField (fun _ => rfl) (fun _ => rfl) h
    · cases h
      rfl

/-! ### Plans -/

/-- What the methods `block` of a plan for `c` are, when they are those of one member. -/
structure MethodEntries (ctx : Context) (c : ClassRecord) (item : OwnedMember)
    (block : List PlannedCallable) : Prop where
  /-- Only a method or operator that is offered has entries. -/
  none : item.2.isOfferedFunction = false → block = []
  offered : item.2.isOfferedFunction = true →
    OfferedArities item.2.args (ctx.acceptsMember item.1 item.2) (block.map PlannedCallable.call)
  member : ∀ p ∈ block, p.member = item.2 ∧ p.owner = item.1
  /-- With all its arguments it keeps its name, if it is a member of `c` itself and nothing in it is
  loaded. -/
  full_name : ∀ p ∈ block, p.removed = 0 → p.interfaceName =
    if ctx.usesLoaded item.2.types = false ∧ item.1.id = c.id then item.2.writtenName
    else ctx.affixes.suffixed item.2.stem
  short_name : ∀ p ∈ block, 0 < p.removed → p.interfaceName = ctx.affixes.suffixed item.2.stem

/-- What the constructors `block` of a plan for `c` are, when they are those of one member. -/
structure ConstructorEntries (ctx : Context) (c : ClassRecord) (flags : ClassFlags)
    (item : OwnedMember) (block : List PlannedCallable) : Prop where
  none : (isFactoryConstructor c item && !flags.hasPureVirtual) = false → block = []
  offered : (isFactoryConstructor c item && !flags.hasPureVirtual) = true →
    OfferedArities item.2.args (ctx.acceptsMember c item.2) (block.map PlannedCallable.call)
  member : ∀ p ∈ block, p.member = item.2 ∧ p.owner = c

theorem methodEntries_planMember (h : ctx.planMember c flags item = .ok entries) :
    ctx.MethodEntries c item (entries.filterMap Planned.method?) := by
  rw [methods_planMember h]
  by_cases hoffered : item.2.isOfferedFunction = true
  · rw [if_pos hoffered]
    constructor
    case none => exact fun hno => absurd hoffered (Bool.not_eq_true _ ▸ hno)
    case offered =>
      intro _
      rw [List.map_map]
      exact (List.map_id _).symm ▸ ctx.offeredArities_member item.1 item.2
    case member =>
      intro p hp
      obtain ⟨arity, -, rfl⟩ := List.mem_map.1 hp
      exact ⟨rfl, rfl⟩
    case full_name =>
      intro p hp hall
      obtain ⟨arity, -, rfl⟩ := List.mem_map.1 hp
      have hall : arity.removed = 0 := hall
      have hall : arity.isTruncated = false := by simp [Arity.isTruncated, hall]
      rw [← interfaceMemberName_suffixed]
      by_cases hown : ctx.usesLoaded item.2.types = false ∧ item.1.id = c.id
      · simp [methodEntry, hown, hall, interfaceMemberName]
      · rw [if_neg hown]
        have hsuffixed : (ctx.usesLoaded item.2.types || item.1.id != c.id) = true := by
          simpa [Classical.or_iff_not_imp_left] using hown
        simp [methodEntry, hall, hsuffixed]
    case short_name =>
      intro p hp hmore
      obtain ⟨arity, -, rfl⟩ := List.mem_map.1 hp
      have hmore : arity.isTruncated = true := decide_eq_true hmore
      rw [← interfaceMemberName_suffixed]
      simp [methodEntry, hmore]
  · rw [if_neg hoffered]
    exact ⟨fun _ => rfl, fun hyes => absurd hyes hoffered, by simp, by simp, by simp⟩

theorem constructorEntries_planMember (h : ctx.planMember c flags item = .ok entries) :
    ctx.ConstructorEntries c flags item (entries.filterMap Planned.constructor?) := by
  rw [constructors_planMember h]
  split
  · next hoffered =>
    refine ⟨fun hno => ?_, fun _ => ?_, fun p hp => ?_⟩
    · cases hoffered.symm.trans hno
    · rw [List.map_map]
      exact (List.map_id _).symm ▸ ctx.offeredArities_member c item.2
    · obtain ⟨arity, -, rfl⟩ := List.mem_map.1 hp
      exact ⟨rfl, rfl⟩
  · next hoffered => exact ⟨fun _ => rfl, fun hyes => absurd hyes hoffered, by simp⟩

/-- **The methods and constructors of a plan**, member by member. -/
theorem exists_entries (h : ctx.planClass c = .ok plan) :
    ∃ members methods constructors, ctx.collectMembers c = .ok members ∧
      plan.methods = methods.flatten ∧
      List.Forall₂ (ctx.MethodEntries c) members methods ∧
      plan.constructors = constructors.flatten ∧
      List.Forall₂ (ctx.ConstructorEntries c plan.flags) members constructors := by
  obtain ⟨_, _, members, _, -, -, hmembers, -, -⟩ := planClass_eq_ok_iff.1 h
  obtain ⟨items, hitems, hplan⟩ := exists_items h hmembers
  refine ⟨members, items.map (·.filterMap Planned.method?),
    items.map (·.filterMap Planned.constructor?), hmembers, ?_, ?_, ?_, ?_⟩
  · rw [ClassPlan.methods, hplan, List.filterMap_flatten]
  · exact List.forall₂_map_right_iff.2 (hitems.imp fun _ _ => methodEntries_planMember)
  · rw [ClassPlan.constructors, hplan, List.filterMap_flatten]
  · exact List.forall₂_map_right_iff.2 (hitems.imp fun _ _ => constructorEntries_planMember)

/-! ### Functions -/

variable {fs gs : List FunctionRecord} {w w₁ w' : Wrapping}

/-- The wrapper of an arity of a function that returns `returns`, under the number `counter` if it
is exported. -/
def wrapperFor (ctx : Context) (f : FunctionRecord) (returns : TypeRef) (arity : Arity)
    (counter : Nat) : FunctionWrapper :=
  if !ctx.usesLoaded f.types && !arity.isTruncated then passthrough f arity
  else ctx.exportedFunction f returns (ctx.usesLoaded f.types) arity counter

/-- The wrapper stands for this arity of `f`. -/
def IsWrapperFor (ctx : Context) (f : FunctionRecord) (arity : Arity) (x : FunctionWrapper) :
    Prop :=
  ∃ returns counter, f.returns = some returns ∧ x = ctx.wrapperFor f returns arity counter

/-- What the wrappers `block` of a run are, when they are those of the function `f`. -/
structure FunctionEntries (ctx : Context) (f : FunctionRecord) (block : List FunctionWrapper) :
    Prop where
  offered : OfferedArities f.args (ctx.acceptsCall f) ((arities f.args).filter (ctx.acceptsCall f))
  /-- Each accepted arity has one wrapper, in order. -/
  wrappers : List.Forall₂ (ctx.IsWrapperFor f) ((arities f.args).filter (ctx.acceptsCall f)) block
  counts : block.map FunctionWrapper.arity =
    ((arities f.args).filter (ctx.acceptsCall f)).map fun arity => arity.args.length

/-- The functions `fs` are wrapped, block by block, if they are attempted. -/
structure WrapsBlocks (ctx : Context) (fs : List FunctionRecord) (w w' : Wrapping) : Prop where
  blocks : ∃ blocks, w'.wrappers = w.wrappers ++ blocks.flatten ∧
    List.Forall₂ ctx.FunctionEntries (ctx.attempted w.done fs) blocks
  done : w'.done = w.done ++
    ((ctx.attempted w.done fs).filter ctx.isWrappable).map FunctionRecord.signature

theorem IsWrapperFor.arity_eq {arity : Arity} {x : FunctionWrapper}
    (h : ctx.IsWrapperFor f arity x) : x.arity = arity.args.length := by
  obtain ⟨returns, counter, -, rfl⟩ := h
  rw [wrapperFor]
  split <;> rfl

theorem functionEntries_of_pairing {block : List FunctionWrapper}
    (h : List.Forall₂ (ctx.IsWrapperFor f) ((arities f.args).filter (ctx.acceptsCall f)) block) :
    ctx.FunctionEntries f block :=
  ⟨ctx.offeredArities_function f, h, map_eq_map_of_pairing h fun _ _ => IsWrapperFor.arity_eq⟩

theorem WrapsBlocks.refl (ctx : Context) (w : Wrapping) : ctx.WrapsBlocks [] w w where
  blocks := ⟨[], by simp, .nil⟩
  done := by simp [attempted]

theorem WrapsBlocks.trans (h : ctx.WrapsBlocks fs w w₁) (h' : ctx.WrapsBlocks gs w₁ w') :
    ctx.WrapsBlocks (fs ++ gs) w w' := by
  have happend := attempted_append ctx w.done fs gs
  rw [← h.done] at happend
  constructor
  case blocks =>
    obtain ⟨first, hfirst, hfs⟩ := h.blocks
    obtain ⟨second, hsecond, hgs⟩ := h'.blocks
    refine ⟨first ++ second, ?_, happend ▸ List.rel_append hfs hgs⟩
    rw [hsecond, hfirst, List.flatten_append, List.append_assoc]
  case done =>
    rw [h'.done, happend, List.filter_append, List.map_append, ← List.append_assoc, ← h.done]

/-- An arity that is accepted gets its wrapper, and no other one does. -/
theorem wrapper_wrapArity {returns : TypeRef} {arity : Arity}
    (h : ctx.wrapArity f returns (ctx.usesLoaded f.types) w arity = .ok w') :
    ∃ counter, w'.wrappers = w.wrappers ++
      if ctx.acceptsCall f arity then [ctx.wrapperFor f returns arity counter] else [] := by
  obtain ⟨verdict, hverdict, h⟩ := bind_eq_ok.1 h
  refine ⟨w.counter, ?_⟩
  cases verdict with
  | rejected reason =>
      obtain rfl := Except.ok.inj h
      have hno : ctx.acceptsCall f arity = false := by rw [acceptsCall, hverdict]
      simp [hno]
  | accepted =>
      rw [if_pos (acceptsCall_iff.2 hverdict), wrapperFor]
      dsimp only at h
      split at h <;> next hpassed =>
        obtain rfl := Except.ok.inj h
        simp [hpassed]

theorem wrappers_foldlM {returns : TypeRef} (hreturns : f.returns = some returns)
    {as : List Arity}
    (h : as.foldlM (ctx.wrapArity f returns (ctx.usesLoaded f.types)) w = .ok w') :
    ∃ block, w'.wrappers = w.wrappers ++ block ∧
      List.Forall₂ (ctx.IsWrapperFor f) (as.filter (ctx.acceptsCall f)) block := by
  induction as generalizing w with
  | nil =>
      cases h
      exact ⟨[], (List.append_nil _).symm, .nil⟩
  | cons arity rest ih =>
      rw [List.foldlM_cons] at h
      obtain ⟨next, hnext, h⟩ := bind_eq_ok.1 h
      obtain ⟨counter, hcounter⟩ := wrapper_wrapArity hnext
      obtain ⟨block, hblock, hpairs⟩ := ih h
      rw [hblock, hcounter]
      by_cases haccepts : ctx.acceptsCall f arity = true
      · refine ⟨_ :: block, by rw [if_pos haccepts, List.append_assoc]; rfl, ?_⟩
        rw [List.filter_cons_of_pos haccepts]
        exact .cons ⟨returns, counter, hreturns, rfl⟩ hpairs
      · refine ⟨block, by rw [if_neg haccepts, List.append_nil], ?_⟩
        rwa [List.filter_cons_of_neg haccepts]

theorem wrapsBlocks_wrapFunction (h : ctx.wrapFunction w f = .ok w') :
    ctx.WrapsBlocks [f] w w' := by
  refine ⟨?_, (wraps_wrapFunction h).done⟩
  rw [wrapFunction] at h
  split at h
  · next hdone =>
    obtain rfl := Except.ok.inj h
    exact ⟨[], by simp, by rw [attempted, if_pos hdone]; exact .nil⟩
  · next hdone =>
    obtain ⟨returns, hreturns, h⟩ := bind_eq_ok.1 h
    obtain ⟨next, hnext, h⟩ := bind_eq_ok.1 h
    have hreturns := returnType_eq_ok_iff.1 hreturns
    have htypes : returns :: f.args.map Argument.type = f.types := by
      rw [FunctionRecord.types, hreturns]
      rfl
    rw [htypes] at hnext
    obtain ⟨block, hblock, hpairs⟩ := wrappers_foldlM hreturns hnext
    have hwrappers : w'.wrappers = next.wrappers := by
      split at h <;> (obtain rfl := Except.ok.inj h; rfl)
    refine ⟨[block], by rw [hwrappers, hblock]; simp, ?_⟩
    rw [attempted, if_neg hdone, attempted]
    exact .cons (functionEntries_of_pairing hpairs) .nil

theorem wrapsBlocks_wrapSelected {s : Selector} (h : ctx.wrapSelected w s = .ok w') :
    ctx.WrapsBlocks (ctx.selected [s]) w w' := by
  have hselected : ctx.selected [s] = ctx.table.functions.filter s.picks := by simp [selected]
  rw [wrapSelected] at h
  rw [hselected]
  split at h
  · next hempty =>
    obtain rfl := Except.ok.inj h
    rw [hempty]
    exact ⟨⟨[], by simp, .nil⟩, by simp [attempted]⟩
  · exact foldlM_composes (R := ctx.WrapsBlocks) (WrapsBlocks.refl ctx)
      (fun _ _ _ _ _ hstep hrest => (wrapsBlocks_wrapFunction hstep).trans hrest) _ w w' h

/-- **The wrappers of a run**, function by function. -/
theorem wrapsBlocks_wrapFunctions {counter : Nat} (h : ctx.wrapFunctions counter = .ok w) :
    ∃ selectors, ctx.config.selectors = .ok selectors ∧
      ctx.WrapsBlocks (ctx.selected selectors) { counter } w := by
  rw [wrapFunctions] at h
  split at h
  · cases h
  · next selectors hselectors =>
    refine ⟨selectors, hselectors, foldlM_composes
      (R := fun ss => ctx.WrapsBlocks (ctx.selected ss)) (WrapsBlocks.refl ctx)
      (fun s rest _ _ _ hstep hrest => ?_) selectors _ w (trust_eq_ok_iff.1 h)⟩
    have hsplit := (wrapsBlocks_wrapSelected hstep).trans hrest
    rwa [selected, selected, ← List.flatMap_append] at hsplit

/-- **Default arguments**, from end to end.  In a plan that succeeds the methods and the
constructors come in blocks, one for each member of the class, and in functions that are wrapped the
wrappers come in blocks, one for each function that is attempted.  The arities in a block are
consecutive and end with the one that leaves out all defaults. -/
theorem default_expansion (ctx : Context) :
    (∀ c plan, ctx.planClass c = .ok plan → ∃ members methods constructors,
      ctx.collectMembers c = .ok members ∧ plan.methods = methods.flatten ∧
      List.Forall₂ (ctx.MethodEntries c) members methods ∧
      plan.constructors = constructors.flatten ∧
      List.Forall₂ (ctx.ConstructorEntries c plan.flags) members constructors) ∧
    ∀ counter w, ctx.wrapFunctions counter = .ok w → ∃ selectors blocks,
      ctx.config.selectors = .ok selectors ∧ w.wrappers = blocks.flatten ∧
      List.Forall₂ ctx.FunctionEntries (ctx.attempted [] (ctx.selected selectors)) blocks := by
  refine ⟨fun _ _ => exists_entries, fun counter w h => ?_⟩
  obtain ⟨selectors, hselectors, hblocks⟩ := wrapsBlocks_wrapFunctions h
  obtain ⟨blocks, hwrappers, hpairs⟩ := hblocks.blocks
  exact ⟨selectors, blocks, hselectors, hwrappers, hpairs⟩

/-! ### Defaults before an argument without one, and a type that is not accepted -/

/-- Takes an argument, a default, one of a type that is not accepted, and another default. -/
def scaleAt : MemberRecord where
  id := ⟨"_3"⟩
  name := "at"
  kind := .method
  context := ⟨"_1"⟩
  type := some (.named "int")
  args :=
    let int := TypeRef.named "int"
    [{ type := int }, { type := int, hasDefault := true },
      { type := { int with pointerDepth := 2 }, hasDefault := true },
      { type := int, hasDefault := true }]

def scaleConstructor : MemberRecord where
  id := ⟨"_2"⟩
  name := "Scale"
  kind := .constructor
  context := ⟨"_1"⟩
  args := [{ type := .named "int", hasDefault := true }]

def scaleRecord : ClassRecord where
  id := ⟨"_1"⟩
  name := "Scale"
  members := [⟨"_2"⟩, ⟨"_3"⟩]

/-- The first argument has a default that cannot be left out. -/
def blendFunction : FunctionRecord where
  id := ⟨"_4"⟩
  name := "blend"
  returns := some (.named "int")
  args :=
    let int := TypeRef.named "int"
    [{ type := int, hasDefault := true }, { type := int }, { type := int, hasDefault := true }]

def scaleTable : SymbolTable where
  records := [.ofClass scaleRecord, .ofMember scaleConstructor, .ofMember scaleAt,
    .ofFunction blendFunction]
  distinct := by decide

def scaleContext : Context :=
  (new scaleTable { load := { functions := ["blend"] } }).register [⟨[], "Scale"⟩]

theorem default_expansion_scale : ∃ plan w methods constructors blocks,
    scaleContext.planClass scaleRecord = .ok plan ∧ scaleContext.wrapFunctions 0 = .ok w ∧
    plan.methods.map (fun p => (p.interfaceName, p.removed)) = [("at_BE", 2), ("at_BE", 3)] ∧
    plan.constructors.map (fun p => p.removed) = [0, 1] ∧
    w.wrappers.map (fun x => (x.isPassthrough, x.arity)) = [(true, 3), (false, 2)] ∧
    plan.methods = methods.flatten ∧
    List.Forall₂ (scaleContext.MethodEntries scaleRecord)
      [(scaleRecord, scaleConstructor), (scaleRecord, scaleAt)] methods ∧
    plan.constructors = constructors.flatten ∧
    List.Forall₂ (scaleContext.ConstructorEntries scaleRecord plan.flags)
      [(scaleRecord, scaleConstructor), (scaleRecord, scaleAt)] constructors ∧
    w.wrappers = blocks.flatten ∧
    List.Forall₂ scaleContext.FunctionEntries [blendFunction] blocks := by
  have hplan : (scaleContext.planClass scaleRecord).map (fun plan =>
      (plan.methods.map fun p => (p.interfaceName, p.removed),
        plan.constructors.map fun p => p.removed)) =
      .ok ([("at_BE", 2), ("at_BE", 3)], [0, 1]) := toOption_eq_some.1 (by decide +kernel)
  obtain ⟨plan, hplan, hentries⟩ := map_eq_ok.1 hplan
  obtain ⟨hmethods, hconstructors⟩ := Prod.mk.inj hentries
  have hw : (scaleContext.wrapFunctions 0).map (fun w =>
      w.wrappers.map fun x => (x.isPassthrough, x.arity)) = .ok [(true, 3), (false, 2)] :=
    toOption_eq_some.1 (by decide +kernel)
  obtain ⟨w, hw, hwrappers⟩ := map_eq_ok.1 hw
  obtain ⟨hplans, hruns⟩ := scaleContext.default_expansion
  obtain ⟨members, methods, constructors, hmembers, hplanned⟩ := hplans scaleRecord plan hplan
  obtain ⟨selectors, blocks, hselectors, hblocks⟩ := hruns 0 w hw
  have hcollected : scaleContext.collectMembers scaleRecord =
      .ok [(scaleRecord, scaleConstructor), (scaleRecord, scaleAt)] :=
    toOption_eq_some.1 (by decide +kernel)
  have hread : scaleContext.config.selectors = .ok [⟨"blend", none⟩] := by cbv
  have hpicked : Selector.picks ⟨"blend", none⟩ blendFunction = true := by cbv
  have hattempted : scaleContext.attempted [] (scaleContext.selected [⟨"blend", none⟩]) =
      [blendFunction] := by
    have hdeclared : scaleContext.table.functions = [blendFunction] := rfl
    simp [attempted, selected, hdeclared, hpicked]
  cases hcollected.symm.trans hmembers
  cases hread.symm.trans hselectors
  rw [hattempted] at hblocks
  exact ⟨plan, w, methods, constructors, blocks, hplan, hw, hmethods, hconstructors, hwrappers,
    hplanned.1, hplanned.2.1, hplanned.2.2.1, hplanned.2.2.2, hblocks.1, hblocks.2⟩

end Context

end LoadBridge
