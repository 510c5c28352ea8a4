import LoadBridge.Proofs.Bridge.Members
import LoadBridge.Proofs.Bridge.Order

/-!
# Bridge — Rejections never end a run

A verdict needs no more of a table than that a type is classified and that a type is there where one
is needed; where the table is well formed, each verdict, each plan and each function succeeds,
whatever it rejects.  So a run fails only where its configuration is not valid
(`generate_total`).  That a class without generated names is planned never happens, whatever the
table: only classes of the load set are planned.
-/

namespace LoadBridge

theorem mem_args_of_mem_arities {args : List Argument} {arity : Arity} (h : arity ∈ arities args) :
    ∀ a ∈ arity.args, a ∈ args := by
  obtain ⟨removed, -, rfl⟩ := List.mem_map.1 h
  exact fun _ ha => List.mem_of_mem_take ha

namespace Context

variable {ctx : Context} {c owner : ClassRecord} {m : MemberRecord} {f : FunctionRecord}
  {args : List Argument}

/-! ### Verdicts -/

theorem succeeds_classify {type : TypeRef} (h : ctx.table.HasBase type) :
    Succeeds (ctx.classify type) := by
  rw [classify]
  split
  · split <;> exact succeeds_ok _
  · next id hid =>
    rw [SymbolTable.HasBase, hid, Option.bind_some] at h
    split
    · exact succeeds_ok _
    · exact succeeds_ok _
    · exact succeeds_ok _
    · exact succeeds_ok _
    -- the record of something that is no type
    · next other hfundamental henumeration hclass hfound =>
      have htype := h _ hfound
      cases other with
      | ofClass r => exact absurd rfl (hclass r)
      | ofFundamental r => exact absurd rfl (hfundamental r)
      | ofEnumeration r => exact absurd rfl (henumeration r)
      | ofMember | ofFunction | ofNamespace => cases htype

theorem succeeds_checkType {type : TypeRef} (h : ctx.table.HasBase type) :
    Succeeds (ctx.checkType type) := by
  rw [checkType]
  split
  · exact succeeds_ok _
  · exact (succeeds_classify h).map _

theorem succeeds_checkTypes {types : List TypeRef} (h : ∀ type ∈ types, ctx.table.HasBase type) :
    Succeeds (ctx.checkTypes types) := by
  induction types with
  | nil => exact succeeds_ok _
  | cons type rest ih =>
      refine (succeeds_checkType (h type List.mem_cons_self)).bind fun verdict _ => ?_
      cases verdict with
      | accepted => exact ih fun other hother => h other (List.mem_cons_of_mem _ hother)
      | rejected => exact succeeds_ok _

theorem succeeds_checkSignature {returns : Option TypeRef}
    (hreturns : ∀ type ∈ returns, ctx.table.HasBase type)
    (hargs : ∀ a ∈ args, ctx.table.HasBase a.type) :
    Succeeds (ctx.checkSignature returns args) := by
  refine succeeds_checkTypes fun type htype => ?_
  rcases List.mem_append.1 htype with htype | htype
  · exact hreturns type (Option.mem_toList.1 htype)
  · obtain ⟨a, ha, rfl⟩ := List.mem_map.1 htype
    exact hargs a ha

/-- The return type of a member is there where one is needed. -/
theorem exists_returned (hwf : ctx.table.WellFormed) (hm : .ofMember m ∈ ctx.table.records) :
    ∃ returns, m.returned = .ok returns ∧ ∀ type ∈ returns, ctx.table.HasBase type := by
  have hneeded : (m.kind = .method ∨ m.kind = .operator ∨ m.kind = .field) →
      ∃ returns, m.valueType.map some = .ok returns ∧
        ∀ type ∈ returns, ctx.table.HasBase type := by
    intro hkind
    obtain ⟨type, htype, hbase⟩ := hwf.valueType hm hkind
    exact ⟨some type, by rw [htype]; rfl, fun _ h => Option.mem_some.1 h ▸ hbase⟩
  rw [MemberRecord.returned]
  split
  · next hkind => exact hneeded (.inl hkind)
  · next hkind => exact hneeded (.inr (.inl hkind))
  · exact ⟨none, rfl, fun _ h => (nomatch h)⟩

theorem succeeds_checkMemberFunction (hwf : ctx.table.WellFormed)
    (hm : .ofMember m ∈ ctx.table.records) (hargs : ∀ a ∈ args, a ∈ m.args) :
    Succeeds (ctx.checkMemberFunction owner m args) := by
  rw [checkMemberFunction]
  split
  · exact succeeds_ok _
  split
  · exact succeeds_ok _
  split
  · exact succeeds_ok _
  obtain ⟨returns, hreturned, hreturns⟩ := exists_returned hwf hm
  rw [hreturned]
  exact succeeds_checkSignature hreturns fun a ha => hwf.memberArgs hm a (hargs a ha)

theorem succeeds_checkMemberVariable (hwf : ctx.table.WellFormed)
    (hm : .ofMember m ∈ ctx.table.records) (hkind : m.kind = .field) :
    Succeeds (ctx.checkMemberVariable owner m) := by
  rw [checkMemberVariable]
  split
  · exact succeeds_ok _
  split
  · exact succeeds_ok _
  obtain ⟨type, htype, hbase⟩ := hwf.valueType hm (.inr (.inr hkind))
  rw [htype]
  exact succeeds_checkType hbase

theorem succeeds_checkFunction (hwf : ctx.table.WellFormed) (hf : f ∈ ctx.table.functions)
    (hargs : ∀ a ∈ args, a ∈ f.args) : Succeeds (ctx.checkFunction f args) := by
  rw [checkFunction]
  split
  · exact succeeds_ok _
  obtain ⟨type, htype, hbase⟩ := hwf.returnType hf
  rw [htype]
  refine succeeds_checkSignature (fun _ h => Option.mem_some.1 h ▸ hbase) fun a ha => ?_
  exact hwf.functionArgs hf a (hargs a ha)

/-! ### Plans -/

theorem succeeds_planArities (hwf : ctx.table.WellFormed) (hm : .ofMember m ∈ ctx.table.records)
    (plan : Arity → Planned) : Succeeds (ctx.planArities owner m plan) := by
  refine succeeds_mapM fun arity harity => ?_
  refine (succeeds_checkMemberFunction hwf hm (mem_args_of_mem_arities harity)).bind fun v _ => ?_
  cases v <;> exact succeeds_ok _

theorem succeeds_planMethod (hwf : ctx.table.WellFormed) (hm : .ofMember m ∈ ctx.table.records)
    (hkind : m.kind = .method ∨ m.kind = .operator) (inherited : Bool) :
    Succeeds (ctx.planMethod owner m inherited) := by
  obtain ⟨type, htype, -⟩ := hwf.valueType hm (hkind.imp_right .inl)
  rw [planMethod, htype]
  exact succeeds_planArities hwf hm _

theorem succeeds_planField (hwf : ctx.table.WellFormed) (hm : .ofMember m ∈ ctx.table.records)
    (hkind : m.kind = .field) : Succeeds (ctx.planField owner m) := by
  refine (succeeds_checkMemberVariable hwf hm hkind).bind fun verdict _ => ?_
  cases verdict with
  | rejected => exact succeeds_ok _
  | accepted =>
      obtain ⟨type, htype, -⟩ := hwf.valueType hm (.inr (.inr hkind))
      exact Succeeds.bind ⟨type, htype⟩ fun _ _ => succeeds_ok _

theorem succeeds_planMember (hwf : ctx.table.WellFormed) {flags : ClassFlags} {item : OwnedMember}
    (hitem : .ofMember item.2 ∈ ctx.table.records) : Succeeds (ctx.planMember c flags item) := by
  obtain ⟨owner, m⟩ := item
  rw [planMember]
  split
  · exact succeeds_ok _
  · split
    · exact succeeds_planArities hwf hitem _
    · exact succeeds_ok _
  · next hkind =>
    split
    · exact succeeds_planMethod hwf hitem (.inl hkind) _
    · exact succeeds_ok _
  · next hkind =>
    split
    · exact succeeds_planMethod hwf hitem (.inr hkind) _
    · exact succeeds_ok _
  · next hkind =>
    split
    · exact succeeds_planField hwf hitem hkind
    · exact succeeds_ok _

/-- **A class of a well-formed table is planned**, whatever its members are. -/
theorem succeeds_planClass (hwf : ctx.table.WellFormed) (hc : c ∈ ctx.table.classes)
    {names : GeneratedNames} (hnames : ctx.names.get? c.qualifiedName = some names) :
    Succeeds (ctx.planClass c) := by
  obtain ⟨flags, hflags⟩ : Succeeds (ctx.table.flagsOf c) := (hwf.succeeds_membersOf hc).map _
  obtain ⟨members, hmembers⟩ := succeeds_collectMembers hwf hc
  obtain ⟨items, hitems⟩ : Succeeds (members.mapM (ctx.planMember c flags)) :=
    succeeds_mapM fun item hitem =>
      succeeds_planMember hwf (mem_records_of_mem_collectMembers hmembers hitem)
  exact ⟨_, planClass_eq_ok_iff.2 ⟨names, flags, members, items, hnames, hflags, hmembers, hitems,
    rfl⟩⟩

/-- Classes that are planned are generated, whatever number comes first. -/
theorem succeeds_generateClasses_of_plans {classes : List ClassRecord}
    (h : ∀ c ∈ classes, Succeeds (ctx.planClass c)) (counter : Nat) :
    Succeeds (ctx.generateClasses counter classes) := by
  induction classes generalizing counter with
  | nil => exact succeeds_ok _
  | cons c rest ih =>
      have houtput : Succeeds (ctx.generateClass counter c) :=
        (h c List.mem_cons_self).bind fun plan _ => succeeds_ok _
      refine houtput.bind fun output _ => ?_
      refine (ih (fun d hd => h d (List.mem_cons_of_mem c hd)) _).bind fun others _ => ?_
      exact succeeds_ok _

theorem succeeds_generateClasses (hwf : ctx.table.WellFormed) {classes : List ClassRecord}
    (h : ∀ c ∈ classes, c ∈ ctx.table.classes ∧
      ∃ names, ctx.names.get? c.qualifiedName = some names) (counter : Nat) :
    Succeeds (ctx.generateClasses counter classes) := by
  refine succeeds_generateClasses_of_plans (fun c hc => ?_) counter
  obtain ⟨hclass, names, hnames⟩ := h c hc
  exact succeeds_planClass hwf hclass hnames

/-- Only classes with generated names are planned. -/
theorem generateClasses_ne_unregistered {classes : List ClassRecord}
    (h : ∀ c ∈ classes, ∃ names, ctx.names.get? c.qualifiedName = some names) (counter : Nat)
    (name : String) : ctx.generateClasses counter classes ≠ .error (.unregistered name) := by
  induction classes generalizing counter with
  | nil => exact fun h => nomatch h
  | cons c rest ih =>
      intro herror
      rcases bind_eq_error.1 herror with herror | ⟨output, -, herror⟩
      · obtain ⟨names, hnames⟩ := h c List.mem_cons_self
        rcases bind_eq_error.1 herror with herror | ⟨plan, -, herror⟩
        · exact planClass_ne_unregistered hnames name herror
        · cases herror
      · rcases bind_eq_error.1 herror with herror | ⟨others, -, herror⟩
        · exact ih (fun d hd => h d (List.mem_cons_of_mem c hd)) _ herror
        · cases herror

/-! ### Functions -/

theorem succeeds_wrapArity (hwf : ctx.table.WellFormed) (hf : f ∈ ctx.table.functions)
    {returns : TypeRef} {usesLoaded : Bool} {w : Wrapping} {arity : Arity}
    (harity : arity ∈ arities f.args) : Succeeds (ctx.wrapArity f returns usesLoaded w arity) := by
  refine (succeeds_checkFunction hwf hf (mem_args_of_mem_arities harity)).bind fun verdict _ => ?_
  cases verdict with
  | rejected => exact succeeds_ok _
  | accepted => dsimp only; split <;> exact succeeds_ok _

theorem succeeds_wrapFunction (hwf : ctx.table.WellFormed) (hf : f ∈ ctx.table.functions)
    (w : Wrapping) : Succeeds (ctx.wrapFunction w f) := by
  rw [wrapFunction]
  split
  · exact succeeds_ok w
  obtain ⟨type, htype, -⟩ := hwf.returnType hf
  rw [htype]
  refine Succeeds.bind (succeeds_ok type) fun returns _ => ?_
  refine (succeeds_foldlM (fun arity harity w => succeeds_wrapArity hwf hf harity) w).bind
    fun next _ => ?_
  split <;> exact succeeds_ok _

theorem succeeds_wrapSelected (hwf : ctx.table.WellFormed) (w : Wrapping) (s : Selector) :
    Succeeds (ctx.wrapSelected w s) := by
  rw [wrapSelected]
  split
  · exact succeeds_ok _
  · refine succeeds_foldlM (fun f hf w => ?_) w
    exact succeeds_wrapFunction hwf (List.mem_filter.1 hf).1 w

theorem succeeds_wrapFunctions (hwf : ctx.table.WellFormed) {selectors : List Selector}
    (h : ctx.config.selectors = .ok selectors) (counter : Nat) :
    Succeeds (ctx.wrapFunctions counter) := by
  rw [wrapFunctions, h]
  obtain ⟨w, hw⟩ : Succeeds (selectors.foldlM ctx.wrapSelected { counter }) :=
    succeeds_foldlM (fun s _ w => succeeds_wrapSelected hwf w s) _
  exact ⟨w, trust_eq_ok_iff.2 hw⟩

/-- Wrapping functions plans no class. -/
theorem wrapFunctions_ne_unregistered (ctx : Context) (counter : Nat) (name : String) :
    ctx.wrapFunctions counter ≠ .error (.unregistered name) := by
  rw [wrapFunctions]
  split
  · exact fun h => nomatch h
  · intro h
    obtain ⟨_, -, h⟩ := trust_eq_error_iff.1 h
    cases h

end Context

/-- A valid configuration has selectors. -/
theorem Config.exists_selectors {config : Config} (h : config.validate = .ok ()) :
    ∃ selectors, config.selectors = .ok selectors := by
  rw [validate] at h
  split at h
  · cases h
  · split at h
    · next selectors hselectors => exact ⟨selectors, hselectors⟩
    · cases h

/-! ### Runs -/

open Context

variable {table : SymbolTable} {config : Config} {c : ClassRecord}

/-- Every class that a run generates has generated names. -/
theorem exists_names_of_mem_runOrder (hc : c ∈ runOrder table config) :
    ∃ names, (ofRun table config).names.get? c.qualifiedName = some names :=
  exists_names (mem_loadSet_of_mem_runOrder hc)

/-- A valid configuration runs against every well-formed table. -/
theorem succeeds_generate (hwf : table.WellFormed) (hvalid : config.validate = .ok ()) :
    Succeeds (generate table config) := by
  have horder : ∀ c ∈ runOrder table config, c ∈ (ofRun table config).table.classes ∧
      ∃ names, (ofRun table config).names.get? c.qualifiedName = some names := fun c hc =>
    ⟨(mem_loadSet.1 (mem_loadSet_of_mem_runOrder hc)).1, exists_names_of_mem_runOrder hc⟩
  obtain ⟨⟨classes, counter⟩, hclasses⟩ := succeeds_generateClasses hwf horder 0
  obtain ⟨selectors, hselectors⟩ := config.exists_selectors hvalid
  obtain ⟨wrapping, hwrapping⟩ : Succeeds ((ofRun table config).wrapFunctions counter) :=
    succeeds_wrapFunctions hwf hselectors counter
  exact ⟨_, generate_eq_ok_iff.2 ⟨hvalid, classes, counter, wrapping, hclasses, hwrapping, rfl⟩⟩

/-- No run plans a class that has no generated names. -/
theorem generate_ne_unregistered (table : SymbolTable) (config : Config) (name : String) :
    generate table config ≠ .error (.unregistered name) := by
  intro h
  rw [generate] at h
  split at h
  · cases h
  rcases bind_eq_error.1 h with h | ⟨⟨classes, counter⟩, -, h⟩
  · exact generateClasses_ne_unregistered (fun _ => exists_names_of_mem_runOrder) 0 name h
  · rcases bind_eq_error.1 h with h | ⟨wrapping, -, h⟩
    · exact wrapFunctions_ne_unregistered _ counter name h
    · cases h

/-- **Rejections never end a run.**  Against a well-formed table every valid configuration has a
result; one that is not valid ends the run with its fault, whatever the table; and no run reaches a
class without generated names. -/
theorem generate_total (table : SymbolTable) (config : Config) :
    (table.WellFormed → config.validate = .ok () → ∃ g, generate table config = .ok g) ∧
    (∀ e, config.validate = .error e → generate table config = .error (.config e)) ∧
    ∀ name, generate table config ≠ .error (.unregistered name) := by
  refine ⟨succeeds_generate, fun e h => ?_, generate_ne_unregistered table config⟩
  rw [generate, h]

/-! ### A run in which everything is rejected -/

/-- Two classes that are each other's parent; one has a parent that is no record and one that is a
function, an operator without a name, and a method and a field of types that are not accepted; the
other is incomplete. -/
def rejectedTable : SymbolTable where
  records :=
    [.ofClass { id := ⟨"_1"⟩, name := "S", members := [⟨"_3"⟩, ⟨"_4"⟩, ⟨"_5"⟩],
                bases := [{ id := ⟨"_2"⟩ }, { id := ⟨"_9"⟩ }, { id := ⟨"_6"⟩ }] },
      .ofClass { id := ⟨"_2"⟩, name := "O", isIncomplete := true, bases := [{ id := ⟨"_1"⟩ }] },
      .ofMember { id := ⟨"_3"⟩, name := "@", kind := .operator, context := ⟨"_1"⟩,
                  type := some (.named "int") },
      .ofMember { id := ⟨"_4"⟩, name := "m", kind := .method, context := ⟨"_1"⟩,
                  type := some (.of ⟨"_8"⟩ [] "T") },
      .ofMember { id := ⟨"_5"⟩, name := "d", kind := .field, context := ⟨"_1"⟩,
                  type := some (.of ⟨"_2"⟩ [] "O") },
      .ofFunction { id := ⟨"_6"⟩, name := "f", returns := some (.named "int") }]
  distinct := by decide

/-- Asks for all of it, and for a class and a function that are not there; the function that is
there is on the ditch list. -/
def rejectedConfig : Config where
  load := { classes := ["S", "O", "N"], functions := ["f", "g"], ditch := ["f"]
            parentClasses := true, inheritedMembers := true }

theorem rejectedTable_wellFormed : rejectedTable.WellFormed where
  members := by simp [rejectedTable, SymbolTable.classes, SymbolTable.lookup, Record.asClass?,
    Record.id]
  typed := by decide
  bases := by simp [rejectedTable, Record.types, SymbolTable.HasBase, SymbolTable.lookup, Record.id,
    TypeRef.of, TypeRef.named, Record.isType]

theorem generate_total_rejected :
    rejectedTable.WellFormed ∧ rejectedConfig.validate = .ok () ∧
      (∃ g, generate rejectedTable rejectedConfig = .ok g) ∧
      generate rejectedTable { rejectedConfig with output := { indent := 0 } } =
        .error (.config (.settings .noIndent)) ∧
      generate rejectedTable rejectedConfig ≠ .error (.unregistered "O") := by
  obtain ⟨hruns, -, hregistered⟩ := generate_total rejectedTable rejectedConfig
  obtain ⟨-, hfails, -⟩ :=
    generate_total rejectedTable { rejectedConfig with output := { indent := 0 } }
  have hvalid : rejectedConfig.validate = .ok () := by cbv
  exact ⟨rejectedTable_wellFormed, hvalid, hruns rejectedTable_wellFormed hvalid,
    hfails _ (by cbv), hregistered "O"⟩

end LoadBridge
