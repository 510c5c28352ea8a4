import LoadBridge.Bridge.Delegate
import LoadBridge.Proofs.Bridge.Reserved

/-!
# Bridge — Declarations

Two declarations of one class differ in name, in the types of their parameters or in constness
(`Declared`).  These are the declarations that are made from a plan: the pure virtual functions of
the Interface (`Context.interfaceDeclared`), the member functions of the Delegate
(`Context.delegateFunctions`) and its constructors (`Context.delegateConstructors`).

* Methods and constructors are written as they are declared (`interfaceSignature_eq`,
  `methodMember_eq`, `constructorMember_eq`).
* What is no method is declared in the Interface under a name of its own (`nodup_fixedEntries`), and
  a function can keep clear of these names (`MemberRecord.IsFreelyNamed`).
-/

namespace LoadBridge

/-- What tells a declaration of a class from others: its name, the types of its parameters, and
whether it is const. -/
structure Declared where
  name : String
  params : List String
  isConst : Bool
  deriving DecidableEq

/-- A parameter as it is written. -/
def parameterText (type name : String) : String := type ++ " " ++ name

/-- The declaration as it is written, with these names of parameters. -/
def Declared.text (d : Declared) (names : List String) : String :=
  d.name ++ "(" ++ ", ".intercalate (List.zipWith parameterText d.params names) ++ ")" ++
    if d.isConst then " const" else ""

/-- The names of parameters. -/
def argNames (args : List Argument) : List String := args.zipIdx.map fun (a, i) => argName i a

namespace Context

variable (ctx : Context)

/-- The types of arguments as the Interface spells them. -/
def interfaceTypes (args : List Argument) : List String :=
  args.map fun a => ctx.interfaceArgType .generated a.type

/-- The types of arguments as the Delegate spells them. -/
def delegateTypes (args : List Argument) : List String := args.map fun a => ctx.delegateType a.type

/-- A method in the Interface. -/
def inInterface (p : PlannedCallable) : Declared :=
  ⟨p.interfaceName, ctx.interfaceTypes p.args, p.isConst⟩

/-- A method in the Delegate. -/
def inDelegate (p : PlannedCallable) : Declared :=
  ⟨p.writtenName, ctx.delegateTypes p.args, p.isConst⟩

variable (plan : ClassPlan)

/-- A constructor of the Delegate with these types of parameters. -/
def constructorOf (plan : ClassPlan) (params : List String) : Declared :=
  ⟨plan.delegateConstructor, params, false⟩

/-- The parameters of the constructor that takes an Interface object. -/
def adoptingParams : List String := [ctx.interfaceName plan.names .generated ++ "*", "bool"]

/-- The parameters of the copy constructor and of the assignment. -/
def copyParams : List String := ["const " ++ ctx.delegateName plan.names .generated ++ "&"]

/-- An entry point in the Interface. -/
def declaredEntry : EntryPoint → Declared
  | .method m => ctx.inInterface m
  | .accessor f => ⟨f.accessor, [], false⟩
  | .pointerCopy => ⟨ctx.pointerCopyName, [], false⟩
  | .pointerAssign =>
    ⟨ctx.pointerAssignName, [ctx.interfaceName plan.names .generated ++ "*"], false⟩

/-- The hook that makes the companion. -/
def declaredHook : Declared := ⟨"init_wrapper", [], false⟩

/-- The pure virtual functions of the Interface: the entry points and, for the host, the hook that
makes the companion. -/
def interfaceDeclared : List Declared :=
  plan.entryPoints.map (ctx.declaredEntry plan) ++ [declaredHook]

/-- The member functions of the Delegate. -/
def delegateFunctions : List Declared :=
  plan.methods.map ctx.inDelegate ++
    [⟨"operator=", ctx.copyParams plan, false⟩, ⟨"get_BEptr", [], true⟩]

/-- The constructors of the Delegate. -/
def delegateConstructors : List Declared :=
  plan.constructors.map (fun p => constructorOf plan (ctx.delegateTypes p.args)) ++
    [constructorOf plan (ctx.adoptingParams plan), constructorOf plan (ctx.copyParams plan)]

/-! ### As they are written -/

theorem parameterList_eq (args : List Argument) (spell : TypeRef → String) :
    parameterList args spell = ", ".intercalate
      (List.zipWith parameterText (args.map fun a => spell a.type) (argNames args)) := by
  rw [parameterList, argNames]
  congr 1
  refine List.ext_getElem (by simp) fun i hi hi' => ?_
  simp [parameterText]

/-- **The Delegate writes a method as it is declared.** -/
theorem methodMember_eq (p : PlannedCallable) : ctx.methodMember p =
    ctx.delegateReturns p ++ " " ++ (ctx.inDelegate p).text (argNames p.args) ++ ";" := by
  rw [methodMember, delegateParams, parameterList_eq, Declared.text, inDelegate]
  simp only [String.append_assoc]
  rfl

/-- The return type of a method in the Interface. -/
def interfaceReturns (p : PlannedCallable) : String :=
  match p.returns with
  | some type => ctx.interfaceReturnType .generated type
  | none => "void"

/-- **The Interface writes a method as it is declared.** -/
theorem interfaceSignature_eq (p : PlannedCallable) : ctx.interfaceSignature .generated p =
    ctx.interfaceReturns p ++ " " ++ (ctx.inInterface p).text (argNames p.args) := by
  rw [interfaceSignature, parameterList_eq, Declared.text, inInterface]
  simp only [String.append_assoc]
  rfl

/-- **The Delegate writes a constructor as it is declared.** -/
theorem constructorMember_eq (p : PlannedCallable) :
    plan.delegateConstructor ++ "(" ++ ctx.delegateParams p ++ ")" =
      (constructorOf plan (ctx.delegateTypes p.args)).text (argNames p.args) := by
  rw [delegateParams, parameterList_eq, Declared.text, constructorOf]
  simp [delegateTypes]

end Context

/-! ### Free names -/

/-- The names of the fields among these members that are offered. -/
def fieldNames (members : List OwnedMember) : List String :=
  (members.filter fun item => item.2.isOfferedField).map fun item => item.2.name

/-- What the names of entry points that are no methods are made of. -/
def fixedStems (fields : List String) : List String :=
  fields.map (· ++ "_ref") ++ ["pointer_copy", "pointer_assign"]

/-- Two functions can go by one name: the one they are written with, or what that of a forwarder is
made of. -/
def MemberRecord.SharesName (m n : MemberRecord) : Prop :=
  m.writtenName = n.writtenName ∨ m.stem = n.stem

/-- A function beside `fields` that can go by no name of anything else that is generated. -/
structure MemberRecord.IsFreelyNamed (a : NameAffixes) (fields : List String) (m : MemberRecord) :
    Prop where
  unsuffixed : ¬ a.codeSuffix.toList <:+ m.writtenName.toList
  stem : m.stem ∉ fixedStems fields
  creation : "init_wrapper" ∉ [m.writtenName, a.suffixed m.stem]
  life : m.writtenName ∉ ["operator=", "get_BEptr"]

instance (m n : MemberRecord) : Decidable (m.SharesName n) := inferInstanceAs (Decidable (_ ∨ _))

instance (a : NameAffixes) (fields : List String) (m : MemberRecord) :
    Decidable (m.IsFreelyNamed a fields) :=
  decidable_of_iff (¬ a.codeSuffix.toList <:+ m.writtenName.toList ∧ m.stem ∉ fixedStems fields ∧
      "init_wrapper" ∉ [m.writtenName, a.suffixed m.stem] ∧
      m.writtenName ∉ ["operator=", "get_BEptr"])
    ⟨fun ⟨unsuffixed, stem, creation, life⟩ => ⟨unsuffixed, stem, creation, life⟩,
      fun ⟨unsuffixed, stem, creation, life⟩ => ⟨unsuffixed, stem, creation, life⟩⟩

theorem NameAffixes.suffixed_inj {a : NameAffixes} {s t : String} :
    a.suffixed s = a.suffixed t ↔ s = t := by
  rw [suffixed, suffixed, ← String.toList_inj, String.toList_append, String.toList_append,
    List.append_left_inj, String.toList_inj]

theorem nodup_fixedStems {fields : List String} (h : fields.Nodup) : (fixedStems fields).Nodup := by
  have hends (s : String) (name : String) (hs : ¬ "_ref".toList <:+ s.toList) :
      name ++ "_ref" ≠ s := by
    rintro rfl
    exact hs (by rw [String.toList_append]; exact List.suffix_append ..)
  refine List.nodup_append.2 ⟨h.map fun s t hst => ?_, by decide, ?_⟩
  · have htext := congrArg String.toList hst
    rw [String.toList_append, String.toList_append, List.append_left_inj] at htext
    exact String.toList_inj.1 htext
  · rintro _ hx s hs rfl
    obtain ⟨name, -, heq⟩ := List.mem_map.1 hx
    rcases List.mem_pair.1 hs with rfl | rfl
    · exact hends "pointer_copy" name (by decide +kernel) heq
    · exact hends "pointer_assign" name (by decide +kernel) heq

theorem fixedStems_subset {fields others : List String} (h : fields ⊆ others) :
    fixedStems fields ⊆ fixedStems others := by
  intro s hs
  rcases List.mem_append.1 hs with hs | hs
  · exact List.mem_append_left _ (List.map_subset _ h hs)
  · exact List.mem_append_right _ hs

theorem suffixed_ne_creation (a : NameAffixes) {fields : List String} {s : String}
    (hs : s ∈ fixedStems fields) : a.suffixed s ≠ "init_wrapper" := by
  intro heq
  have htext := congrArg String.toList heq
  rw [NameAffixes.suffixed, String.toList_append] at htext
  rcases List.mem_append.1 hs with hs | hs
  · obtain ⟨name, -, rfl⟩ := List.mem_map.1 hs
    rw [String.toList_append] at htext
    exact absurd ⟨_, _, htext⟩
      (by decide +kernel : ¬ "_ref".toList <:+: "init_wrapper".toList)
  · rcases List.mem_pair.1 hs with rfl | rfl
    · exact absurd ⟨_, htext⟩
        (by decide +kernel : ¬ "pointer_copy".toList <+: "init_wrapper".toList)
    · exact absurd ⟨_, htext⟩
        (by decide +kernel : ¬ "pointer_assign".toList <+: "init_wrapper".toList)

/-- The entry points that are no methods. -/
def ClassPlan.fixedEntries (p : ClassPlan) : List EntryPoint :=
  p.fields.map .accessor ++ ((if p.flags.copyable then [.pointerCopy] else []) ++
    (if p.flags.assignable then [.pointerAssign] else []))

theorem ClassPlan.entryPoints_eq (p : ClassPlan) :
    p.entryPoints = p.methods.map .method ++ p.fixedEntries := by
  rw [entryPoints, fixedEntries, List.append_assoc, List.append_assoc]

theorem ClassPlan.sublist_stems (p : ClassPlan) : (p.fixedEntries.map EntryPoint.stem).Sublist
    (fixedStems (p.fields.map fun f => f.member.name)) := by
  rw [fixedEntries, fixedStems, List.map_append, List.map_append, List.map_map, List.map_map]
  refine List.Sublist.append (List.Sublist.refl _) ?_
  cases p.flags.copyable <;> cases p.flags.assignable <;> simp [EntryPoint.stem]

namespace Context

variable {ctx : Context} {c : ClassRecord} {plan : ClassPlan} {members : List OwnedMember}
  {p q : PlannedCallable} {e : EntryPoint}

theorem name_declaredEntry (ctx : Context) (plan : ClassPlan) (e : EntryPoint) :
    (ctx.declaredEntry plan e).name = e.name ctx := by
  cases e <;> rfl

theorem name_of_mem_fixedEntries (h : ctx.planClass c = .ok plan) (he : e ∈ plan.fixedEntries) :
    (ctx.declaredEntry plan e).name = ctx.affixes.suffixed e.stem := by
  have hadded : e ∈ plan.addedEntryPoints := by
    refine List.mem_filter.2 ⟨plan.entryPoints_eq ▸ List.mem_append_right _ he, ?_⟩
    cases e with
    | method m => simp [ClassPlan.fixedEntries] at he
    | accessor | pointerCopy | pointerAssign => rfl
  rw [name_declaredEntry, name_of_mem_addedEntryPoints h hadded]

theorem names_fields_subset (h : ctx.planClass c = .ok plan)
    (hmembers : ctx.collectMembers c = .ok members) :
    (plan.fields.map fun f => f.member.name) ⊆ fieldNames members := by
  intro name hname
  obtain ⟨f, hf, rfl⟩ := List.mem_map.1 hname
  obtain ⟨entry, hentry, hfield⟩ := List.mem_filterMap.1 hf
  obtain ⟨item, hitem, hfrom⟩ := exists_item_of_mem_items h hmembers hentry
  cases entry <;> cases hfield
  rw [hfrom.1]
  exact List.mem_map.2 ⟨item, List.mem_filter.2 ⟨hitem, hfrom.2⟩, rfl⟩

/-- **The entry points that are no methods are declared under names of their own**, and so is the
hook that makes the companion. -/
theorem nodup_fixedEntries (h : ctx.planClass c = .ok plan)
    (hfields : (plan.fields.map fun f => f.member.name).Nodup) :
    (plan.fixedEntries.map (ctx.declaredEntry plan) ++ [declaredHook]).Nodup := by
  have hnames : (plan.fixedEntries.map (ctx.declaredEntry plan)).map Declared.name =
      (plan.fixedEntries.map EntryPoint.stem).map ctx.affixes.suffixed := by
    rw [List.map_map, List.map_map]
    exact List.map_congr_left fun e he => name_of_mem_fixedEntries h he
  refine List.nodup_append.2 ⟨.of_map Declared.name ?_, by simp, ?_⟩
  · rw [hnames]
    exact ((nodup_fixedStems hfields).sublist plan.sublist_stems).map fun _ _ =>
      NameAffixes.suffixed_inj.1
  · intro d hd hook hhook heq
    obtain ⟨e, he, rfl⟩ := List.mem_map.1 hd
    rw [List.mem_singleton] at hhook
    have hstem : e.stem ∈ fixedStems (plan.fields.map fun f => f.member.name) :=
      plan.sublist_stems.subset (List.mem_map_of_mem he)
    refine suffixed_ne_creation ctx.affixes hstem ?_
    rw [← name_of_mem_fixedEntries h he, heq, hhook]
    rfl

/-- What a method goes by in the Interface. -/
theorem interfaceName_cases (hp : p.IsMethodOf ctx c) :
    p.interfaceName = p.member.writtenName ∨
      p.interfaceName = ctx.affixes.suffixed p.member.stem := by
  rw [hp.name]
  cases p.needsForwarder with
  | true => exact .inr (ctx.interfaceMemberName_suffixed _)
  | false => exact .inl rfl

end Context

end LoadBridge
