import LoadBridge.Proofs.Bridge.Defaults
import LoadBridge.Proofs.Bridge.Registration
import LoadBridge.Proofs.Bridge.StandardTypes
import LoadBridge.Proofs.Name.Key

/-!
# Bridge — Which types are loaded

A type is resolved twice.  Whether it may cross the boundary is decided by the kind of its record,
or by its name where it has none (`Context.classify`), and how it crosses by the name of its base
alone (`Context.loaded?`).  The first takes the `::` off the front of a name before it looks it up.
On types that are accepted the two agree (`Context.classify_eq_loaded_iff`) where that makes no
difference to the key, the registered names are those of classes, and no class goes by the name of
something else.
-/

namespace LoadBridge

namespace SymbolTable

variable {t : SymbolTable} {c : ClassRecord} {name : String}

/-- The key of a class tells it from all other records. -/
def KeysTellClasses (t : SymbolTable) : Prop :=
  ∀ c ∈ t.classes, ∀ r ∈ t.records, ∀ name, r.qualifiedName? = some name →
    Name.key name = Name.key c.qualifiedName → r = .ofClass c

/-- No class goes by the name of a built-in type. -/
def KeepsBuiltIns (t : SymbolTable) : Prop :=
  ∀ c ∈ t.classes, ∀ name ∈ fundamentalTypes, Name.key c.qualifiedName ≠ Name.key name

/-- Where no two records have one key, the key of a class tells it from all others. -/
theorem keysTellClasses_of_nodup
    (h : (t.records.filterMap fun r => r.qualifiedName?.map Name.key).Nodup) :
    t.KeysTellClasses := by
  intro c hc r hr name hname hkey
  rw [List.Nodup, List.pairwise_filterMap] at h
  by_contra hne
  have hsymm : Std.Symm fun r s : Record => ∀ a, r.qualifiedName?.map Name.key = some a →
      ∀ b, s.qualifiedName?.map Name.key = some b → a ≠ b :=
    ⟨fun _ _ h a ha b hb => (h b hb a ha).symm⟩
  exact h.forall hr (mem_classes.1 hc) hne _ (by rw [hname]; rfl) _ rfl hkey

/-- A class is found under every spelling of its name. -/
theorem KeysTellClasses.classNamed? (h : t.KeysTellClasses) (hc : c ∈ t.classes)
    (hkey : Name.key name = Name.key c.qualifiedName) : t.classNamed? name = some c := by
  have hfound : (t.lookupName name).isSome = true :=
    List.find?_isSome.2 ⟨.ofClass c, mem_classes.1 hc, beq_iff_eq.2 hkey.symm⟩
  obtain ⟨r, hr⟩ := Option.isSome_iff_exists.1 hfound
  have hhas : hasKey (Name.key name) r = true := List.find?_some hr
  rw [hasKey] at hhas
  split at hhas
  · next other hother =>
    obtain rfl := h c hc r (List.mem_of_find?_eq_some hr) other hother
      ((eq_of_beq hhas).trans hkey)
    rw [SymbolTable.classNamed?, hr]
    rfl
  · cases hhas

end SymbolTable

namespace Context

variable {ctx : Context} {type : TypeRef} {types : List TypeRef} {cls : TypeClass} {q : String}
  {names : GeneratedNames} {c : ClassRecord}

/-! ### Registered names -/

/-- Every registered name is that of a class of the table. -/
def RegistersClasses (ctx : Context) : Prop :=
  ∃ affixes outer targets, ctx.names = (NameTable.new affixes outer).registerAll targets ∧
    ∀ target ∈ targets, ∃ c ∈ ctx.table.classes,
      Name.key target.long = Name.key c.qualifiedName

/-- The names were registered for the class. -/
structure IsNamedBy (ctx : Context) (c : ClassRecord) (names : GeneratedNames) : Prop where
  registered : names ∈ ctx.names.entries
  key_target : Name.key names.target.long = Name.key c.qualifiedName

theorem registersClasses_register {table : SymbolTable} {config : Config}
    {targets : List QualifiedName} (h : ∀ target ∈ targets, ∃ c ∈ table.classes,
      Name.key target.long = Name.key c.qualifiedName) :
    ((new table config).register targets).RegistersClasses :=
  ⟨config.affixes, config.output.backendNamespace, targets, rfl, h⟩

/-- The context of a run registers the classes of its load set. -/
theorem registersClasses_ofRun (table : SymbolTable) (config : Config) :
    (ofRun table config).RegistersClasses := by
  refine registersClasses_register fun target htarget => ?_
  obtain ⟨c, hc, rfl⟩ := List.mem_map.1 htarget
  exact ⟨c, (mem_loadSet.1 hc).1, rfl⟩

/-- What a name finds was registered for a class of that name. -/
theorem RegistersClasses.exists_class (h : ctx.RegistersClasses)
    (hnames : ctx.names.get? q = some names) :
    ∃ c ∈ ctx.table.classes, Name.key c.qualifiedName = Name.key q ∧ ctx.IsNamedBy c names := by
  obtain ⟨affixes, outer, targets, htable, htargets⟩ := h
  rw [htable] at hnames
  obtain ⟨hmem, hkey⟩ := (NameTable.get?_eq_some_iff ..).1 hnames
  have hentry := hmem
  rw [NameTable.entries_registerAll] at hentry
  obtain ⟨target, htarget, rfl⟩ := List.mem_map.1 hentry
  obtain ⟨c, hc, hclass⟩ := htargets target (mem_of_mem_eraseDupsBy htarget)
  exact ⟨c, hc, hclass.symm.trans hkey, htable ▸ hmem, hclass⟩

/-! ### The two resolutions -/

/-- The class that a type refers to: that of its record, or that of its name where it has none. -/
def referent? (ctx : Context) (type : TypeRef) : Option ClassRecord :=
  match type.element with
  | some id => ctx.table.class? id
  | none => ctx.table.classNamed? type.qualifiedName

theorem baseName_of_element_eq_none (h : type.element = none) :
    ctx.baseName type = type.qualifiedName := by
  rw [baseName, elementOf, h]
  rfl

theorem baseName_of_lookup {id : RecordId} {r : Record} (h : type.element = some id)
    (hr : ctx.table.lookup id = some r) (hq : r.qualifiedName? = some q) :
    ctx.baseName type = q := by
  rw [baseName, elementOf, h, Option.bind_some, hr, Option.bind_some, hq, Option.getD_some]

/-- What is accepted was told apart, and the table has its record if it refers to one. -/
theorem exists_classify (h : ctx.checkType type = .ok .accepted) :
    ∃ cls, ctx.classify type = .ok cls ∧ cls ≠ .unresolved := by
  rw [checkType] at h
  split at h
  · cases h
  · obtain ⟨cls, hcls, hverdict⟩ := map_eq_ok.1 h
    refine ⟨cls, hcls, ?_⟩
    rintro rfl
    cases hverdict

section

variable (hnames : ctx.RegistersClasses) (hkeys : ctx.table.KeysTellClasses)
  (hbuiltIns : ctx.table.KeepsBuiltIns) (haccepted : ctx.checkType type = .ok .accepted)

include hnames hkeys hbuiltIns haccepted in
/-- An accepted type that is not told by its name has no generated names: a class would have the key
of a built-in type or of another record. -/
theorem loaded?_eq_none (htold : ¬ctx.IsToldByName type) : ctx.loaded? type = none := by
  by_contra hsome
  obtain ⟨names, hfound⟩ := Option.ne_none_iff_exists'.1 hsome
  obtain ⟨c, hc, hkey, -⟩ := hnames.exists_class hfound
  obtain ⟨cls, hcls, hresolved⟩ := exists_classify haccepted
  rw [classify] at hcls
  cases helement : type.element with
  | none =>
    have hname : type.qualifiedName ∈ fundamentalTypes := by
      simpa [IsToldByName, helement] using htold
    rw [baseName_of_element_eq_none helement] at hkey
    exact hbuiltIns c hc _ hname hkey
  | some id =>
    simp only [IsToldByName, helement] at htold hcls
    -- the record is of another kind and has the key of the class
    have hother : ∀ r name, ctx.table.lookup id = some r → r.qualifiedName? = some name →
        r = .ofClass c := by
      intro r name hr hname
      rw [baseName_of_lookup helement hr hname] at hkey
      exact hkeys c hc r (SymbolTable.lookup_eq_some_iff.1 hr).1 name hname hkey.symm
    split at hcls
    · exact hresolved (Except.ok.inj hcls).symm
    · next hr => cases hother _ _ hr rfl
    · next hr => cases hother _ _ hr rfl
    · next d hd => exact htold ⟨d, hd⟩
    · cases hcls

include hnames hkeys hbuiltIns haccepted in
/-- **The two resolutions agree on what is loaded.** -/
theorem classify_eq_loaded_iff
    (hmarks : ctx.IsToldByName type → Name.MarksTogether (ctx.baseName type)) :
    ctx.classify type = .ok .loaded ↔ (ctx.loaded? type).isSome = true := by
  by_cases htold : ctx.IsToldByName type
  · rw [htold.classify, Except.ok.injEq, classifyName_eq_loaded_iff, NameTable.isLoaded,
      NameTable.get?_congr _ ((Name.key_relative_eq_iff _).2 (hmarks htold)), loaded?]
  · rw [loaded?_eq_none hnames hkeys hbuiltIns haccepted htold]
    obtain ⟨cls, hcls, -⟩ := exists_classify haccepted
    rw [hcls, Except.ok.injEq]
    rcases isToldByName_or hcls with h | rfl | rfl | rfl
    · exact absurd h htold
    all_goals simp

include hnames hkeys hbuiltIns haccepted in
/-- **The names of a type are those of the class that it refers to.** -/
theorem exists_referent (hfound : ctx.loaded? type = some names) :
    ∃ c, ctx.referent? type = some c ∧ ctx.IsNamedBy c names := by
  have htold : ctx.IsToldByName type := by
    by_contra htold
    rw [loaded?_eq_none hnames hkeys hbuiltIns haccepted htold] at hfound
    cases hfound
  obtain ⟨c, hc, hkey, hnamed⟩ := hnames.exists_class hfound
  refine ⟨c, ?_, hnamed⟩
  rw [IsToldByName] at htold
  rw [referent?]
  cases helement : type.element with
  | none =>
    rw [baseName_of_element_eq_none helement] at hkey
    exact hkeys.classNamed? hc hkey.symm
  | some id =>
    simp only [helement] at htold ⊢
    obtain ⟨d, hd⟩ := htold
    rw [baseName_of_lookup helement hd rfl] at hkey
    have hsame := hkeys c hc _ (SymbolTable.lookup_eq_some_iff.1 hd).1 _ rfl hkey.symm
    exact SymbolTable.class?_eq_some_iff_lookup.2 (hd.trans (congrArg some hsame))

end

/-! ### Translation -/

/-- A type that crosses under the generated names `names`. -/
structure IsTranslated (ctx : Context) (type : TypeRef) (names : GeneratedNames) : Prop where
  interfaceArg : ∀ side, ctx.interfaceArgType side type =
    (if type.isByValue then type.reference else type).renderWith (ctx.interfaceName names side)
  interfaceReturn : ∀ side, ctx.interfaceReturnType side type =
    if h : type.isByValue = true then
      (type.pointerTo (TypeRef.room_of_isByValue h)).renderWith (ctx.interfaceName names side)
    else type.renderWith (ctx.interfaceName names side)
  delegate : ctx.delegateType type = type.renderWith (ctx.delegateName names .generated)
  delegateReturn : ctx.delegateReturnType type =
    (if type.isByValue then type.unqualified else type).renderWith
      (ctx.delegateName names .generated)

/-- A type that is spelled alike everywhere, and whose values cross as they are. -/
structure IsUntranslated (ctx : Context) (type : TypeRef) : Prop where
  interfaceArg : ∀ side, ctx.interfaceArgType side type = ctx.libraryType type
  interfaceReturn : ∀ side, ctx.interfaceReturnType side type = ctx.libraryType type
  delegate : ctx.delegateType type = ctx.libraryType type
  delegateReturn : ctx.delegateReturnType type = ctx.libraryType type
  values : ∀ text, ctx.toLibraryArg type text = text ∧ ctx.toInterfaceReturn type text = text ∧
    ctx.toInterfaceArg type text = text ∧ ctx.toDelegateReturn type text = text

theorem isTranslated (h : ctx.loaded? type = some names) : ctx.IsTranslated type names where
  interfaceArg side := by
    rw [interfaceArgType, h]
    simp only
    split <;> rfl
  interfaceReturn side := by rw [interfaceReturnType, h]
  delegate := by rw [delegateType, h]
  delegateReturn := by
    have hunqualified : ctx.loaded? type.unqualified = some names := h
    rw [delegateReturnType, h, Option.isSome_some, Bool.and_true, delegateType, delegateType,
      hunqualified, h]
    simp only
    split <;> rfl

theorem isUntranslated (h : ctx.loaded? type = none) : ctx.IsUntranslated type where
  interfaceArg side := by rw [interfaceArgType, h]
  interfaceReturn side := by rw [interfaceReturnType, h]
  delegate := by rw [delegateType, h]
  delegateReturn := by
    rw [delegateReturnType, h, Option.isSome_none, Bool.and_false, if_neg Bool.false_ne_true,
      delegateType, h]
  values text := by
    simp [toLibraryArg, toInterfaceReturn, toInterfaceArg, toDelegateReturn, h]

/-- **What is accepted as loaded is translated, and nothing else.**  Let the registered names be
those of classes, and let no class have the key of another record or of a built-in type.  Then each
accepted type is classified as loaded exactly where it has generated names, which are those of the
class that it refers to; and an accepted signature is translated at these types, and uses a loaded
class if it has one.  Blanks must not hold the `::` apart that a name starts with, as they are taken
off before the name is classified. -/
theorem loaded_agrees (hnames : ctx.RegistersClasses) (hkeys : ctx.table.KeysTellClasses)
    (hbuiltIns : ctx.table.KeepsBuiltIns)
    (hmarks : ∀ type ∈ types, ctx.IsToldByName type → Name.MarksTogether (ctx.baseName type))
    (haccepted : ctx.checkTypes types = .ok .accepted) :
    (∀ type ∈ types,
      (ctx.classify type = .ok .loaded ↔ (ctx.loaded? type).isSome = true) ∧
      (∀ names, ctx.loaded? type = some names →
        ∃ c, ctx.referent? type = some c ∧ ctx.IsNamedBy c names) ∧
      (ctx.classify type = .ok .loaded → ∃ c names, ctx.referent? type = some c ∧
        ctx.IsNamedBy c names ∧ ctx.IsTranslated type names) ∧
      (ctx.classify type ≠ .ok .loaded → ctx.IsUntranslated type)) ∧
    (ctx.usesLoaded types = true ↔ ∃ type ∈ types, ctx.classify type = .ok .loaded) := by
  have htypes := checkTypes_eq_accepted_iff.1 haccepted
  have hagree : ∀ type ∈ types,
      (ctx.classify type = .ok .loaded ↔ (ctx.loaded? type).isSome = true) := fun type htype =>
    classify_eq_loaded_iff hnames hkeys hbuiltIns (htypes type htype) (hmarks type htype)
  refine ⟨fun type htype => ⟨hagree type htype, ?_, ?_, ?_⟩, ?_⟩
  · intro names hfound
    exact exists_referent hnames hkeys hbuiltIns (htypes type htype) hfound
  · intro hloaded
    obtain ⟨names, hfound⟩ := Option.isSome_iff_exists.1 ((hagree type htype).1 hloaded)
    obtain ⟨c, hc, hnamed⟩ := exists_referent hnames hkeys hbuiltIns (htypes type htype) hfound
    exact ⟨c, names, hc, hnamed, isTranslated hfound⟩
  · intro hloaded
    rw [Ne, hagree type htype, Option.not_isSome_iff_eq_none] at hloaded
    exact isUntranslated hloaded
  · rw [usesLoaded, List.any_eq_true]
    exact exists_congr fun type => and_congr_right fun htype => (hagree type htype).symm

/-! ### A signature, and a name whose marks are held apart -/

/-- A class, an enumeration and a built-in type. -/
def harbourTable : SymbolTable where
  records :=
    [.ofClass { id := ⟨"_1"⟩, name := "Ship", scope := ["harbour"] },
      .ofEnumeration { id := ⟨"_2"⟩, name := "Flag", scope := ["harbour"] },
      .ofFundamental { id := ⟨"_3"⟩, name := "int" }]
  distinct := by decide

/-- The class is registered. -/
def harbourContext : Context := (new harbourTable {}).register [⟨["harbour"], "Ship"⟩]

/-- The class by its record and by its name, and types that are not loaded. -/
def harbourTypes : List TypeRef :=
  [{ name := "Ship", scope := ["harbour"], pointerDepth := 1, element := some ⟨"_1"⟩ },
    { name := " ::harbour :: Ship", isReference := true },
    .of ⟨"_2"⟩ ["harbour"] "Flag", .of ⟨"_3"⟩ [] "int", .named "std::vector<harbour::Ship>"]

/-- The class by a name whose marks a blank holds apart. -/
def apartType : TypeRef := { name := ":: ::harbour::Ship", isReference := true }

theorem harbourContext_registersClasses : harbourContext.RegistersClasses :=
  registersClasses_register (by decide)

theorem harbourTable_keysTellClasses : harbourContext.table.KeysTellClasses :=
  SymbolTable.keysTellClasses_of_nodup (by decide)

theorem harbourTable_keepsBuiltIns : harbourContext.table.KeepsBuiltIns := by
  rw [SymbolTable.KeepsBuiltIns]
  decide

theorem loaded_agrees_harbour :
    harbourContext.checkTypes harbourTypes = .ok .accepted ∧
      (harbourTypes.map harbourContext.classify =
        [.ok .loaded, .ok .loaded, .ok .enumeration, .ok .fundamental, .ok .std]) ∧
      harbourContext.usesLoaded harbourTypes = true ∧
      harbourContext.IsUntranslated (.named "std::vector<harbour::Ship>") := by
  have haccepted : harbourContext.checkTypes harbourTypes = .ok .accepted := by decide
  have hmarks : ∀ type ∈ harbourTypes, harbourContext.IsToldByName type →
      Name.MarksTogether (harbourContext.baseName type) := by
    have hall : ∀ type ∈ harbourTypes, Name.MarksTogether (harbourContext.baseName type) := by
      decide
    exact fun type htype _ => hall type htype
  have hclasses : harbourTypes.map harbourContext.classify =
      [.ok .loaded, .ok .loaded, .ok .enumeration, .ok .fundamental, .ok .std] := by decide
  obtain ⟨htypes, huses⟩ := loaded_agrees harbourContext_registersClasses
    harbourTable_keysTellClasses harbourTable_keepsBuiltIns hmarks haccepted
  refine ⟨haccepted, hclasses, huses.2 ⟨_, List.mem_cons_self, by decide⟩, ?_⟩
  exact (htypes _ (by decide)).2.2.2 (by decide)

/-- A name whose marks a blank holds apart is classified as loaded and not translated. -/
theorem loaded_disagrees : harbourContext.RegistersClasses ∧
    harbourContext.table.KeysTellClasses ∧ harbourContext.table.KeepsBuiltIns ∧
    harbourContext.checkType apartType = .ok .accepted ∧
    harbourContext.classify apartType = .ok .loaded ∧ harbourContext.loaded? apartType = none ∧
    harbourContext.usesLoaded [apartType] = false ∧
    harbourContext.interfaceArgType .library apartType = ":::: ::harbour::Ship&" :=
  ⟨harbourContext_registersClasses, harbourTable_keysTellClasses, harbourTable_keepsBuiltIns,
    by decide, by decide, by decide, by decide, by decide⟩

end Context

end LoadBridge
