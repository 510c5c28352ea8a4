import LoadBridge.Proofs.Bridge.Closure
import LoadBridge.Proofs.Bridge.Linkable
import LoadBridge.Proofs.Bridge.Provenance
import LoadBridge.Proofs.Text.Braces

/-!
# Bridge — Names without braces

Where no name of the symbol table and no configured text has a brace in it, nothing that is spelled
with them has: types and expressions on the two sides of the boundary, and the names that the plan
of a class settles.
-/

namespace LoadBridge

open Text

/-! ### What code is written with -/

/-- The names in a type. -/
def TypeRef.texts (t : TypeRef) : List String := t.name :: t.scope

/-- The names in an argument. -/
def Argument.texts (a : Argument) : List String := a.name.toList ++ a.type.texts

/-- The names in a record, and the file of its declaration. -/
def Record.texts : Record → List String
  | .ofClass c => c.name :: c.scope ++ (c.location.map SourceLocation.file).toList
  | .ofMember m => m.name :: m.type.toList.flatMap TypeRef.texts ++ m.args.flatMap Argument.texts
  | .ofFunction f =>
    f.name :: f.scope ++ f.returns.toList.flatMap TypeRef.texts ++ f.args.flatMap Argument.texts
  | .ofFundamental f => [f.name]
  | .ofEnumeration e => e.name :: e.scope
  | .ofNamespace n => n.name :: n.scope

/-- The texts of a symbol table that code is written with. -/
def SymbolTable.texts (t : SymbolTable) : List String := t.records.flatMap Record.texts

/-- The texts of a configuration that code is written with. -/
def Config.texts (c : Config) : List String :=
  [c.affixes.interfacePrefix, c.affixes.delegatePrefix, c.affixes.codeSuffix,
    c.naming.factoryPrefix, c.output.backendNamespace]

/-- No name in the type has a brace in it. -/
def TypeRef.Clean (t : TypeRef) : Prop := ∀ s ∈ t.texts, Braceless s

def Argument.Clean (a : Argument) : Prop := ∀ s ∈ a.texts, Braceless s

/-- No name in the record has a brace in it. -/
def Record.Clean (r : Record) : Prop := ∀ s ∈ r.texts, Braceless s

/-- A name in a scope without braces. -/
structure QualifiedName.Clean (n : QualifiedName) : Prop where
  scope : ∀ s ∈ n.scope, Braceless s
  name : Braceless n.name

/-- The names of both companions are without braces. -/
structure GeneratedNames.Clean (names : GeneratedNames) : Prop where
  interface : names.interface.Clean
  delegate : names.delegate.Clean

namespace TypeRef

variable {t : TypeRef} {base declarator : String}

theorem Clean.qualifiedName (h : t.Clean) : Braceless t.qualifiedName :=
  braceless_join (fun s hs => h s (List.mem_cons_of_mem _ hs)) (h _ List.mem_cons_self)

@[simp] theorem braceless_stars (t : TypeRef) : Braceless t.stars :=
  braceless_replicate (by decide) (by decide) _

@[simp] theorem braceless_cv (cv : Qualifiers) : Braceless cv.text := by
  obtain ⟨_ | _, _ | _⟩ := cv <;> decide

@[simp] theorem braceless_renderWith (h : Braceless base) : Braceless (t.renderWith base) := by
  simp +decide [renderWith, indirection, h]

@[simp] theorem braceless_extentsText (t : TypeRef) : Braceless t.extentsText := by
  simp +decide [extentsText]

@[simp] theorem braceless_declare (hbase : Braceless base) (hdeclarator : Braceless declarator) :
    Braceless (t.declare base declarator) := by
  rw [declare]
  split
  · split <;> simp +decide [hbase, hdeclarator, braceless_extentsText]
  · simp +decide [hbase, hdeclarator]

end TypeRef

/-! ### Spelling -/

namespace Context

/-- Nothing that a run writes code with has a brace in it. -/
structure Clean (ctx : Context) : Prop where
  records : ∀ r ∈ ctx.table.records, r.Clean
  names : ∀ q names, ctx.names.get? q = some names → names.Clean
  outer : ∀ s ∈ ctx.names.outer, Braceless s
  interfacePrefix : Braceless ctx.affixes.interfacePrefix
  delegatePrefix : Braceless ctx.affixes.delegatePrefix
  codeSuffix : Braceless ctx.affixes.codeSuffix
  factoryPrefix : Braceless ctx.config.naming.factoryPrefix

variable {ctx : Context} {type : TypeRef} {names : GeneratedNames} {name call : String}

theorem Clean.loaded (h : ctx.Clean) (hloaded : ctx.loaded? type = some names) : names.Clean :=
  h.names _ _ hloaded

/-- The name of a record has no brace in it. -/
theorem braceless_qualifiedName? {r : Record} (h : r.Clean) (hname : r.qualifiedName? = some name) :
    Braceless name := by
  cases r <;> cases hname <;>
    first
    | exact h _ List.mem_cons_self
    | exact braceless_join (fun s hs => h s (by simp [Record.texts, hs]))
        (h _ (by simp [Record.texts]))

theorem braceless_baseName (h : ctx.Clean) (ht : type.Clean) : Braceless (ctx.baseName type) := by
  rw [baseName]
  cases hfound : (ctx.elementOf type).bind Record.qualifiedName? with
  | none => exact ht.qualifiedName
  | some name =>
    obtain ⟨r, hr, hname⟩ := Option.bind_eq_some_iff.1 hfound
    obtain ⟨id, -, hlookup⟩ := Option.bind_eq_some_iff.1 hr
    exact braceless_qualifiedName? (h.records r (SymbolTable.lookup_eq_some_iff.1 hlookup).1) hname

theorem braceless_libraryBase (h : ctx.Clean) (ht : type.Clean) :
    Braceless (ctx.libraryBase type) := by
  have hbase := braceless_baseName h ht
  rw [libraryBase]
  split
  · exact hbase
  split
  · exact hbase
  · exact braceless_absolute hbase

theorem braceless_spell (h : ctx.Clean) {n : QualifiedName} (hn : n.Clean) (side : Side) :
    Braceless (ctx.spell n side) := by
  cases side with
  | generated => exact braceless_join hn.scope hn.name
  | library =>
    refine braceless_absolute (braceless_join (fun s hs => ?_) hn.name)
    exact (List.mem_append.1 hs).elim (h.outer s) (hn.scope s)

theorem braceless_interfaceName (h : ctx.Clean) (hn : names.Clean) (side : Side) :
    Braceless (ctx.interfaceName names side) := braceless_spell h hn.interface side

theorem braceless_delegateName (h : ctx.Clean) (hn : names.Clean) (side : Side) :
    Braceless (ctx.delegateName names side) := braceless_spell h hn.delegate side

theorem braceless_libraryType (h : ctx.Clean) (ht : type.Clean) :
    Braceless (ctx.libraryType type) := TypeRef.braceless_renderWith (braceless_libraryBase h ht)

theorem braceless_interfaceArgType (h : ctx.Clean) (ht : type.Clean) (side : Side) :
    Braceless (ctx.interfaceArgType side type) := by
  rw [interfaceArgType]
  split
  · exact braceless_libraryType h ht
  · next names hloaded =>
    have hname := braceless_interfaceName h (h.loaded hloaded) side
    split <;> exact TypeRef.braceless_renderWith hname

theorem braceless_interfaceReturnType (h : ctx.Clean) (ht : type.Clean) (side : Side) :
    Braceless (ctx.interfaceReturnType side type) := by
  rw [interfaceReturnType]
  split
  · exact braceless_libraryType h ht
  · next names hloaded =>
    have hname := braceless_interfaceName h (h.loaded hloaded) side
    dsimp only
    split <;> exact TypeRef.braceless_renderWith hname

theorem braceless_delegateType (h : ctx.Clean) (ht : type.Clean) :
    Braceless (ctx.delegateType type) := by
  rw [delegateType]
  split
  · exact braceless_libraryType h ht
  · next names hloaded =>
    exact TypeRef.braceless_renderWith (braceless_delegateName h (h.loaded hloaded) .generated)

theorem braceless_delegateReturnType (h : ctx.Clean) (ht : type.Clean) :
    Braceless (ctx.delegateReturnType type) := by
  rw [delegateReturnType]
  split
  · exact braceless_delegateType h ht
  · exact braceless_delegateType h ht

/-! ### Expressions -/

theorem braceless_toLibraryArg (h : ctx.Clean) (ht : type.Clean) (hname : Braceless name) :
    Braceless (ctx.toLibraryArg type name) := by
  rw [toLibraryArg]
  split
  · exact hname
  · simp +decide [braceless_libraryBase h ht, hname]

theorem braceless_toInterfaceReturn (h : ctx.Clean) (ht : type.Clean) (hcall : Braceless call) :
    Braceless (ctx.toInterfaceReturn type call) := by
  simp +decide [toInterfaceReturn, braceless_libraryBase h ht, hcall]

theorem braceless_toInterfaceArg (hname : Braceless name) :
    Braceless (ctx.toInterfaceArg type name) := by
  rw [toInterfaceArg]
  split
  · exact hname
  · simp +decide [hname]

theorem braceless_toDelegateReturn (h : ctx.Clean) (hcall : Braceless call) :
    Braceless (ctx.toDelegateReturn type call) := by
  rw [toDelegateReturn]
  split
  · exact hcall
  · next names hloaded =>
    have hnames := h.loaded hloaded
    simp +decide [braceless_interfaceName h hnames, braceless_delegateName h hnames, hcall]

end Context

/-! ### Arguments -/

theorem Argument.Clean.argName {a : Argument} (h : a.Clean) (i : Nat) :
    Braceless (argName i a) := by
  rw [LoadBridge.argName]
  cases hname : a.name with
  | none => simp +decide
  | some name => exact h name (by simp [Argument.texts, hname])

theorem Argument.Clean.type {a : Argument} (h : a.Clean) : a.type.Clean := fun s hs =>
  h s (List.mem_append_right _ hs)

theorem braceless_parameterList {args : List Argument} {spell : TypeRef → String}
    (h : ∀ a ∈ args, a.Clean) (hspell : ∀ type : TypeRef, type.Clean → Braceless (spell type)) :
    Braceless (parameterList args spell) := by
  refine braceless_intercalate (by decide) fun s hs => ?_
  obtain ⟨⟨a, i⟩, hmem, rfl⟩ := List.mem_map.1 hs
  have ha := h a (List.fst_mem_of_mem_zipIdx hmem)
  simp +decide [hspell _ ha.type, ha.argName]

theorem braceless_callArguments {args : List Argument} {convert : TypeRef → String → String}
    (h : ∀ a ∈ args, a.Clean) (hconvert : ∀ type name, type.Clean → Braceless name →
      Braceless (convert type name)) : Braceless (callArguments args convert) := by
  refine braceless_intercalate (by decide) fun s hs => ?_
  obtain ⟨⟨a, i⟩, hmem, rfl⟩ := List.mem_map.1 hs
  have ha := h a (List.fst_mem_of_mem_zipIdx hmem)
  exact hconvert _ _ ha.type (ha.argName i)

/-! ### Plans -/

/-- A callable of a plan with no brace in its names. -/
structure PlannedCallable.Clean (p : PlannedCallable) : Prop where
  name : Braceless p.member.name
  interfaceName : Braceless p.interfaceName
  owner : Braceless p.owner.qualifiedName
  returns : ∀ type, p.returns = some type → type.Clean
  args : ∀ a ∈ p.args, a.Clean

/-- A field of a plan with no brace in its names. -/
structure PlannedField.Clean (f : PlannedField) : Prop where
  name : Braceless f.member.name
  type : f.type.Clean
  loaded : ∀ names, f.loaded = some names → names.Clean
  accessor : Braceless f.accessor
  shadow : ∀ shadow, f.shadow = some shadow → Braceless shadow

/-- A plan with no brace in its names. -/
structure ClassPlan.Clean (p : ClassPlan) : Prop where
  record : (Record.ofClass p.record).Clean
  names : p.names.Clean
  parents : ∀ names ∈ p.loadedParents, names.Clean
  ancestors : ∀ names ∈ p.loadedAncestors, names.Clean
  constructors : ∀ c ∈ p.constructors, ∀ a ∈ c.args, a.Clean
  methods : ∀ m ∈ p.methods, m.Clean
  fields : ∀ f ∈ p.fields, f.Clean

namespace MemberRecord

variable {m : MemberRecord} {type : TypeRef} {a : Argument}

theorem braceless_name (h : (Record.ofMember m).Clean) : Braceless m.name :=
  h _ (by simp [Record.texts])

theorem clean_type (h : (Record.ofMember m).Clean) (ht : m.type = some type) : type.Clean :=
  fun s hs => h s (by simp [Record.texts, ht, hs])

theorem clean_args (h : (Record.ofMember m).Clean) (ha : a ∈ m.args) : a.Clean := fun s hs => by
  refine h s (List.mem_append_right _ (List.mem_flatMap.2 ⟨a, ha, hs⟩))

theorem braceless_writtenName (h : Braceless m.name) : Braceless m.writtenName := by
  rw [writtenName]
  split
  · exact braceless_append.2 ⟨by decide, h⟩
  · exact h

end MemberRecord

theorem ClassRecord.braceless_qualifiedName {c : ClassRecord} (h : (Record.ofClass c).Clean) :
    Braceless c.qualifiedName := Context.braceless_qualifiedName? h rfl

/-- The identifier of an operator is a word. -/
theorem braceless_identifier? {text identifier : String}
    (h : Operator.identifier? text = some identifier) : Braceless identifier := by
  have hall : ∀ entry ∈ Operator.identifiers, Braceless entry.2 := by decide
  obtain ⟨before, after, hsplit, -⟩ := List.lookup_eq_some_iff.1 h
  exact hall (_, identifier) (hsplit ▸ List.mem_append_right _ List.mem_cons_self)

/-- A shorter arity has arguments of the full one. -/
theorem clean_args_of_mem_arities {args : List Argument} {arity : Arity}
    (h : ∀ a ∈ args, a.Clean) (harity : arity ∈ arities args) : ∀ a ∈ arity.args, a.Clean := by
  obtain ⟨dropped, rfl, -⟩ := exists_dropped_of_mem_arities harity
  exact fun a ha => h a (List.mem_append_left _ ha)

namespace Context

variable {ctx : Context} {c : ClassRecord} {m : MemberRecord} {plan : ClassPlan}
  {items : List OwnedMember} {item : OwnedMember}

theorem braceless_suffixed (h : ctx.Clean) {name : String} (hname : Braceless name) :
    Braceless (ctx.affixes.suffixed name) := braceless_append.2 ⟨hname, h.codeSuffix⟩

theorem braceless_interfaceMemberName (h : ctx.Clean) (hm : Braceless m.name) (suffixed : Bool) :
    Braceless (ctx.interfaceMemberName m suffixed) := by
  rw [interfaceMemberName]
  split
  · split
    · refine braceless_suffixed h (braceless_append.2 ⟨by decide, ?_⟩)
      cases hidentifier : Operator.identifier? m.name with
      | none => decide
      | some identifier => exact braceless_identifier? hidentifier
    · exact braceless_suffixed h hm
  · exact MemberRecord.braceless_writtenName hm

/-- The class that declares a member is in the table. -/
theorem owner_mem_classes (hc : c ∈ ctx.table.classes) (h : ctx.collectMembers c = .ok items)
    (hitem : item ∈ items) : item.1 ∈ ctx.table.classes := by
  obtain ⟨own, inherited, -, hinherited, rfl⟩ := collectMembers_eq_ok_iff.1 h
  rcases List.mem_append.1 hitem with hitem | hitem
  · obtain ⟨m, -, rfl⟩ := List.mem_map.1 hitem
    exact hc
  · exact (owner_of_mem_inheritedMembers hinherited hitem).1

theorem Clean.ofClass (h : ctx.Clean) (hc : c ∈ ctx.table.classes) : (Record.ofClass c).Clean :=
  h.records _ (SymbolTable.mem_classes.1 hc)

theorem clean_of_mem_methods (h : ctx.Clean) (hc : c ∈ ctx.table.classes)
    (hplan : ctx.planClass c = .ok plan) {p : PlannedCallable} (hp : p ∈ plan.methods) :
    p.Clean := by
  obtain ⟨_, _, items, _, -, -, hitems, -, -⟩ := planClass_eq_ok_iff.1 hplan
  obtain ⟨item, hitem, hmember, howner, -, -⟩ := exists_item_of_mem_methods hplan hitems hp
  have hmember : (Record.ofMember p.member).Clean :=
    hmember ▸ h.records _ (mem_records_of_mem_collectMembers hitems hitem)
  have hmethod := of_mem_methods hplan hp
  exact
    { name := MemberRecord.braceless_name hmember
      interfaceName := hmethod.name ▸
        braceless_interfaceMemberName h (MemberRecord.braceless_name hmember) _
      owner := howner ▸
        ClassRecord.braceless_qualifiedName (h.ofClass (owner_mem_classes hc hitems hitem))
      returns := fun type htype => by
        rw [PlannedCallable.returns] at htype
        split at htype
        · exact MemberRecord.clean_type hmember htype
        · exact MemberRecord.clean_type hmember htype
        · cases htype
      args := clean_args_of_mem_arities (fun a => MemberRecord.clean_args hmember) hmethod.arity }

theorem clean_of_mem_fields (h : ctx.Clean) (hplan : ctx.planClass c = .ok plan) {f : PlannedField}
    (hf : f ∈ plan.fields) : f.Clean := by
  obtain ⟨_, _, items, _, -, -, hitems, -, -⟩ := planClass_eq_ok_iff.1 hplan
  obtain ⟨entry, hentry, hfield⟩ := List.mem_filterMap.1 hf
  obtain ⟨item, hitem, hfrom⟩ := exists_item_of_mem_items hplan hitems hentry
  cases entry <;> cases hfield
  have hmember : (Record.ofMember f.member).Clean :=
    hfrom.1 ▸ h.records _ (mem_records_of_mem_collectMembers hitems hitem)
  have hname := MemberRecord.braceless_name hmember
  have hfield := of_mem_fields hplan hf
  exact
    { name := hname
      type := MemberRecord.clean_type hmember hfield.type
      loaded := fun names hnames => h.loaded (hfield.loaded ▸ hnames)
      accessor := hfield.accessor ▸ braceless_suffixed h (braceless_append.2 ⟨hname, by decide⟩)
      shadow := fun shadow hshadow => by
        rw [hfield.shadow] at hshadow
        split at hshadow <;> cases hshadow
        exact braceless_suffixed h (braceless_append.2 ⟨hname, by decide⟩) }

theorem clean_of_mem_constructors (h : ctx.Clean) (hplan : ctx.planClass c = .ok plan)
    {p : PlannedCallable} (hp : p ∈ plan.constructors) : ∀ a ∈ p.args, a.Clean := by
  obtain ⟨_, _, items, _, -, -, hitems, -, -⟩ := planClass_eq_ok_iff.1 hplan
  obtain ⟨entry, hentry, hconstructor⟩ := List.mem_filterMap.1 hp
  obtain ⟨item, hitem, hfrom⟩ := exists_item_of_mem_items hplan hitems hentry
  cases entry <;> cases hconstructor
  have hmember : (Record.ofMember p.member).Clean :=
    hfrom.1 ▸ h.records _ (mem_records_of_mem_collectMembers hitems hitem)
  exact clean_args_of_mem_arities (fun a => MemberRecord.clean_args hmember)
    (of_mem_constructors hplan hp).1.arity

/-- **No name that a plan settles has a brace in it.** -/
theorem clean_of_planClass (h : ctx.Clean) (hc : c ∈ ctx.table.classes)
    (hplan : ctx.planClass c = .ok plan) : plan.Clean := by
  obtain ⟨hnames, hparents, hancestors⟩ := of_planClass hplan
  exact
    { record := record_of_planClass hplan ▸ h.ofClass hc
      names := h.names _ _ hnames
      parents := fun names hmem => by
        obtain ⟨p, hp, hloaded⟩ := List.mem_filterMap.1 hmem
        obtain ⟨_, -, -, -, hfound⟩ :=
          of_mem_parentsOf (hparents ▸ hp) (ParentInfo.loaded?_eq_some_iff.1 hloaded)
        exact h.names _ _ hfound
      ancestors := fun names hmem => by
        obtain ⟨_, -, -, hfound⟩ := of_mem_loadedAncestors (hancestors ▸ hmem)
        exact h.names _ _ hfound
      constructors := fun _ => clean_of_mem_constructors h hplan
      methods := fun _ => clean_of_mem_methods h hc hplan
      fields := fun _ => clean_of_mem_fields h hplan }

/-- **A run has no brace to write code with** where none is in its table and its configuration. -/
theorem clean_ofRun {table : SymbolTable} {config : Config} (ht : ∀ s ∈ table.texts, Braceless s)
    (hconfig : ∀ s ∈ config.texts, Braceless s) : (ofRun table config).Clean := by
  have hrecords : ∀ r ∈ table.records, r.Clean := fun r hr s hs =>
    ht s (List.mem_flatMap.2 ⟨r, hr, hs⟩)
  have haffixes := affixes_ofRun table config
  have hinterface : Braceless config.affixes.interfacePrefix := hconfig _ (by simp [Config.texts])
  have hdelegate : Braceless config.affixes.delegatePrefix := hconfig _ (by simp [Config.texts])
  exact
    { records := hrecords
      names := fun q names hnames => by
        obtain ⟨d, hd, -, rfl⟩ := exists_of_names hnames
        have hd : (Record.ofClass d).Clean :=
          hrecords _ (SymbolTable.mem_classes.1 (mem_loadSet.1 hd).1)
        have hname : Braceless d.name := hd _ (by simp [Record.texts])
        have hscope : ∀ s ∈ d.scope, Braceless s := fun s hs => hd s (by simp [Record.texts, hs])
        exact ⟨⟨hscope, braceless_append.2 ⟨hinterface, hname⟩⟩,
          ⟨hscope, braceless_append.2 ⟨hdelegate, hname⟩⟩⟩
      outer := fun s hs => by
        rw [outer_ofRun] at hs
        exact braceless_of_mem_splitScope (hconfig _ (by simp [Config.texts])) hs
      interfacePrefix := haffixes ▸ hinterface
      delegatePrefix := haffixes ▸ hdelegate
      codeSuffix := haffixes ▸ hconfig _ (by simp [Config.texts])
      factoryPrefix := hconfig _ (by simp [Config.texts, ofRun, register, new]) }

end Context

end LoadBridge
