import LoadBridge.Proofs.Bridge.Registration
import LoadBridge.Proofs.Bridge.Slots

/-!
# Bridge — Symbols that can be linked

What is exported is a function of C with its own name as its label, so its symbol has to be an
identifier.  A factory replaces what cannot stand in an identifier where template arguments have it,
so its symbol is one when the short name of its class has no such character.  A wrapped function
keeps its name as the library writes it, and its symbol is an identifier only when the name is
(`linkable_iff`): that of an operator is none (`not_linkable_operator`).
-/

namespace LoadBridge

/-- A character that can stand in an identifier of C. -/
def IsWordChar (c : Char) : Prop := c.isAlphanum = true ∨ c = '_'

instance : DecidablePred IsWordChar := fun c =>
  inferInstanceAs (Decidable (c.isAlphanum = true ∨ c = '_'))

/-- Letters, digits and underscores only. -/
def IsWord (s : String) : Prop := ∀ c ∈ s.toList, IsWordChar c

instance : DecidablePred IsWord := fun s => List.decidableBAll _ s.toList

/-- An identifier of C. -/
structure IsIdentifier (s : String) : Prop where
  nonempty : s ≠ ""
  word : IsWord s
  start : ∀ c ∈ s.toList.head?, c.isDigit = false

instance : DecidablePred IsIdentifier := fun s =>
  decidable_of_iff ((s ≠ "" ∧ IsWord s) ∧ s.toList.head?.all (fun c => !c.isDigit) = true)
    ⟨fun ⟨⟨h, h'⟩, h''⟩ => ⟨h, h', by simpa [Option.all_eq_true] using h''⟩,
      fun ⟨h, h', h''⟩ => ⟨⟨h, h'⟩, by simpa [Option.all_eq_true] using h''⟩⟩

variable {a b : String}

theorem isWord_append : IsWord (a ++ b) ↔ IsWord a ∧ IsWord b := by
  simp only [IsWord, String.toList_append, List.forall_mem_append]

theorem isWord_underscore : IsWord "_" := by simp [IsWord, IsWordChar]

theorem isWord_repr (n : Nat) : IsWord n.repr := by
  intro c hc
  rw [Nat.toList_repr] at hc
  have hdigit := Nat.isDigit_of_mem_toDigits (by decide) (by decide) hc
  exact .inl (by simp [Char.isAlphanum, hdigit])

/-- What starts as an identifier goes on with letters, digits and underscores. -/
theorem isIdentifier_append (ha : a ≠ "") : IsIdentifier (a ++ b) ↔ IsIdentifier a ∧ IsWord b := by
  have hhead : (a ++ b).toList.head? = a.toList.head? := by
    have hne : a.toList ≠ [] := fun h => ha (String.toList_eq_nil_iff.1 h)
    rw [String.toList_append, List.head?_append_of_ne_nil _ hne]
  constructor
  · intro h
    obtain ⟨hword, hrest⟩ := isWord_append.1 h.word
    exact ⟨⟨ha, hword, hhead ▸ h.start⟩, hrest⟩
  · rintro ⟨h, hrest⟩
    exact ⟨fun hnone => ha (String.append_eq_empty_iff.1 hnone).1, isWord_append.2 ⟨h.word, hrest⟩,
      hhead ▸ h.start⟩

/-! ### Factories -/

theorem isWordChar_symbolChar (c : Char) : IsWordChar (symbolChar c) := by
  rw [symbolChar]
  split
  · exact .inl rfl
  split
  · exact .inl rfl
  split
  · next halnum => exact .inl halnum
  · exact .inr rfl

theorem isWord_symbolPart (arg : String) : IsWord (symbolPart arg) := by
  intro c hc
  rw [symbolPart, String.toList_ofList] at hc
  obtain ⟨x, -, rfl⟩ := List.mem_map.1 hc
  exact isWordChar_symbolChar x

/-- **Template arguments stand in a symbol as parts of an identifier**, whatever they are. -/
theorem isWord_templateTag (c : ClassRecord) : IsWord (templateTag c) := by
  intro x hx
  rw [templateTag, String.toList_join] at hx
  obtain ⟨part, hpart, hx⟩ := List.mem_flatMap.1 hx
  obtain ⟨arg, -, rfl⟩ := List.mem_map.1 hpart
  exact isWord_append.2 ⟨isWord_underscore, isWord_symbolPart arg⟩ x hx

namespace Context

variable {ctx : Context} {f : FunctionRecord}

theorem isIdentifier_factorySymbol (hfactory : IsIdentifier ctx.config.naming.factoryPrefix)
    (hsuffix : IsWord ctx.affixes.codeSuffix) (c : ClassRecord) (overload counter : Nat) :
    IsIdentifier (ctx.factorySymbol c overload counter) ↔ IsWord c.shortName := by
  rw [factorySymbol]
  simp only [String.append_assoc]
  rw [isIdentifier_append hfactory.nonempty]
  simp only [isWord_append, isWord_underscore, isWord_repr, isWord_templateTag, hsuffix, hfactory,
    true_and, and_true]

theorem isIdentifier_exportedFunction (hsuffix : IsWord ctx.affixes.codeSuffix)
    (hname : f.name ≠ "") (returns : TypeRef) (usesLoaded : Bool) (arity : Arity) (counter : Nat)
    {symbol : String}
    (hsymbol : (ctx.exportedFunction f returns usesLoaded arity counter).symbol = some symbol) :
    IsIdentifier symbol ↔ IsIdentifier f.name := by
  obtain rfl := Option.some.inj hsymbol
  simp only [NameAffixes.suffixed, String.append_assoc]
  rw [isIdentifier_append hname]
  simp only [isWord_append, isWord_underscore, isWord_repr, hsuffix, and_true]

end Context

/-! ### Runs -/

namespace GenerationOutput

open Context

variable {table : SymbolTable} {config : Config} {g : GenerationOutput}

/-- What is said of a symbol that a run exports: it is an identifier where `identifiable` holds, and
the source of the library defines it under its label. -/
structure ExportsSymbol (g : GenerationOutput) (symbol : String) (identifiable : Prop) : Prop where
  isIdentifier_iff : IsIdentifier symbol ↔ identifiable
  defined : ∀ header, (g.librarySource header).DefinesSymbol symbol

/-- **Which exported symbols can be linked.** -/
theorem linkable_iff (h : generate table config = .ok g)
    (hfactory : IsIdentifier config.naming.factoryPrefix)
    (hsuffix : IsWord config.naming.codeSuffix) :
    (∀ r ∈ g.factories, ∃ c ∈ table.classes, r.target = c.qualifiedName ∧
      g.ExportsSymbol r.symbol (IsWord c.shortName)) ∧
    ∀ w ∈ g.functions, ∀ symbol, w.symbol = some symbol → ∃ f ∈ table.functions,
      w.target = f.qualifiedName ∧
      (f.name ≠ "" → g.ExportsSymbol symbol (IsIdentifier f.name)) := by
  have hsuffix : IsWord (ofRun table config).affixes.codeSuffix :=
    (affixes_ofRun table config).symm ▸ hsuffix
  constructor
  · intro r hr
    obtain ⟨output, houtput, hr⟩ := List.mem_flatMap.1 hr
    obtain ⟨c, hc, counter, plan, hplan, rfl⟩ := exists_plan_of_mem_classes h houtput
    have hdefined := definesSymbol_of_mem_records hplan hr
    have hrecord := hr
    rw [outputOf_factories, factoriesOf_eq hplan] at hrecord
    obtain ⟨⟨order, n⟩, -, rfl⟩ := List.mem_map.1 hrecord
    obtain rfl := record_of_planClass hplan
    have hclass := (mem_loadSet.1 (mem_loadSet_of_mem_runOrder hc)).1
    refine ⟨plan.record, hclass, rfl, ?_, fun header => ?_⟩
    · exact isIdentifier_factorySymbol hfactory hsuffix plan.record order.overload n
    · exact hdefined.mono (infix_librarySource_of_factory g header houtput hr)
  · intro w hw symbol hsymbol
    obtain ⟨f, hf, hwrapper⟩ := wrapperOf_of_mem_functions h hw
    have hwrapped : w ∈ g.wrapped :=
      List.mem_filter.2 ⟨hw, by simp [FunctionWrapper.isPassthrough, hsymbol]⟩
    have hdefined := hwrapper.slot.2 symbol hsymbol
    refine ⟨f, hf, ?_, fun hname => ⟨?_, fun header => ?_⟩⟩
    · cases hwrapper <;> rfl
    · cases hwrapper with
      | passthrough => cases hsymbol
      | exported arity _ returns _ counter =>
          exact isIdentifier_exportedFunction hsuffix hname returns _ arity counter hsymbol
    · exact hdefined.mono (infix_librarySource_of_wrapped g header hwrapped)

/-! ### A run with an operator -/

/-- A class of vectors. -/
def vectorRecord : ClassRecord where
  id := ⟨"_1"⟩
  name := "Vector<std::string*, 3>"
  members := [⟨"_2"⟩]

/-- The class, an operator on it and its norm. -/
def vectorTable : SymbolTable where
  records :=
    let vector := (TypeRef.of ⟨"_1"⟩ [] "Vector<std::string*, 3>").constant.reference
    [.ofClass vectorRecord,
      .ofMember { id := ⟨"_2"⟩, name := "Vector", kind := .constructor, context := ⟨"_1"⟩ },
      .ofFunction { id := ⟨"_3"⟩, name := "operator+", returns := some (.named "int")
                    args := [{ type := vector }, { type := vector }] },
      .ofFunction { id := ⟨"_4"⟩, name := "norm", returns := some (.named "int")
                    args := [{ type := vector }] }]
  distinct := by decide

/-- Loads all of it, with the prefix and the suffix that are usual. -/
def vectorConfig : Config where
  load := { classes := ["Vector<std::string*, 3>"], functions := ["operator+", "norm"] }

theorem loadSet_vector : (new vectorTable vectorConfig).loadSet = [vectorRecord] := by
  have hrequested : (new vectorTable vectorConfig).requestedIds = [⟨"_1"⟩] := by decide +kernel
  rw [loadSet, loadSetIds_eq_requestedIds rfl (hrequested ▸ by decide), hrequested]
  rfl

theorem ofRun_vector : ofRun vectorTable vectorConfig =
    (new vectorTable vectorConfig).register [⟨[], "Vector<std::string*, 3>"⟩] := by
  rw [ofRun, loadSet_vector]
  rfl

theorem factories_vector : ∃ plan,
    (ofRun vectorTable vectorConfig).planClass vectorRecord = .ok plan ∧
    ((ofRun vectorTable vectorConfig).factoriesOf 0 plan).records.map FactoryRecord.symbol =
      ["Factory_Vector_0_std_stringP_3_BE_0"] := by
  have hplan : ((ofRun vectorTable vectorConfig).planClass vectorRecord).map (fun plan =>
      ((ofRun vectorTable vectorConfig).factoriesOf 0 plan).records.map FactoryRecord.symbol) =
        .ok ["Factory_Vector_0_std_stringP_3_BE_0"] := by
    rw [ofRun_vector]
    exact toOption_eq_some.1 (by decide +kernel)
  exact map_eq_ok.1 hplan

theorem wrapFunctions_vector : ∃ w, (ofRun vectorTable vectorConfig).wrapFunctions 1 = .ok w ∧
    w.wrappers.map (fun x => (x.target, x.symbol)) =
      [("operator+", some "operator+_BE_1"), ("norm", some "norm_BE_2")] := by
  have hwrap : ((ofRun vectorTable vectorConfig).wrapFunctions 1).map (fun w =>
      w.wrappers.map fun x => (x.target, x.symbol)) =
        .ok [("operator+", some "operator+_BE_1"), ("norm", some "norm_BE_2")] := by
    rw [ofRun_vector]
    exact toOption_eq_some.1 (by decide +kernel)
  exact map_eq_ok.1 hwrap

theorem exists_run_vector : ∃ g, generate vectorTable vectorConfig = .ok g ∧
    g.factories.map FactoryRecord.symbol = ["Factory_Vector_0_std_stringP_3_BE_0"] ∧
    g.functions.map (fun w => (w.target, w.symbol)) =
      [("operator+", some "operator+_BE_1"), ("norm", some "norm_BE_2")] := by
  have hvalid : vectorConfig.validate = .ok () := by cbv
  have horder : runOrder vectorTable vectorConfig = [vectorRecord] := by
    rw [runOrder, loadSet_vector, ofRun_vector]
    cbv
  obtain ⟨plan, hplan, hfactories⟩ := factories_vector
  obtain ⟨w, hwrap, hfunctions⟩ := wrapFunctions_vector
  have hcount : ((ofRun vectorTable vectorConfig).factoriesOf 0 plan).records.length = 1 := by
    simpa using congrArg List.length hfactories
  obtain ⟨g, hg, hgfactories, hgfunctions⟩ :=
    exists_generate_of_runOrder_singleton hvalid horder hplan (hcount ▸ hwrap)
  exact ⟨g, hg, hgfactories ▸ hfactories, hgfunctions ▸ hfunctions⟩

/-- Of the symbols of this run all but that of the operator are identifiers. -/
theorem linkable_vector : ∃ g, generate vectorTable vectorConfig = .ok g ∧
    IsIdentifier vectorConfig.naming.factoryPrefix ∧ IsWord vectorConfig.naming.codeSuffix ∧
    (∀ r ∈ g.factories, IsIdentifier r.symbol) ∧
    g.functions.map FunctionWrapper.symbol = [some "operator+_BE_1", some "norm_BE_2"] ∧
    ∀ w ∈ g.functions, ∀ symbol, w.symbol = some symbol →
      (IsIdentifier symbol ↔ w.target = "norm") := by
  obtain ⟨g, hg, -, hsymbols⟩ := exists_run_vector
  have hfactory : IsIdentifier vectorConfig.naming.factoryPrefix := by decide +kernel
  have hsuffix : IsWord vectorConfig.naming.codeSuffix := by decide +kernel
  obtain ⟨hfactories, hfunctions⟩ := linkable_iff hg hfactory hsuffix
  refine ⟨g, hg, hfactory, hsuffix, fun r hr => ?_, ?_, fun w hw symbol hsymbol => ?_⟩
  · obtain ⟨c, hc, -, hexports⟩ := hfactories r hr
    obtain rfl := List.mem_singleton.1 hc
    exact hexports.isIdentifier_iff.2 (by decide +kernel)
  · simpa [Function.comp_def] using congrArg (List.map Prod.snd) hsymbols
  · obtain ⟨f, hf, htarget, hexports⟩ := hfunctions w hw symbol hsymbol
    have hnames : ∀ f ∈ vectorTable.functions, f.name ≠ "" ∧
        (IsIdentifier f.name ↔ f.qualifiedName = "norm") := by decide +kernel
    obtain ⟨hname, hnorm⟩ := hnames f hf
    rw [(hexports hname).isIdentifier_iff, hnorm, htarget]

/-- **A symbol is exported that is no identifier.**  Prefix, suffix and class are named as they
should be, the function is an operator, and its symbol has a `+` in it. -/
theorem not_linkable_operator : ∃ g, generate vectorTable vectorConfig = .ok g ∧
    IsIdentifier vectorConfig.naming.factoryPrefix ∧ IsWord vectorConfig.naming.codeSuffix ∧
    (∀ c ∈ vectorTable.classes, IsIdentifier c.shortName) ∧
    (∀ f ∈ vectorTable.functions, f.name = "operator+" ∨ IsIdentifier f.name) ∧
    ∃ w ∈ g.functions, w.target = "operator+" ∧ w.symbol = some "operator+_BE_1" ∧
      ¬ IsIdentifier "operator+_BE_1" := by
  obtain ⟨g, hg, -, hsymbols⟩ := exists_run_vector
  have hmem : ("operator+", some "operator+_BE_1") ∈
      g.functions.map fun w => (w.target, w.symbol) := hsymbols ▸ List.mem_cons_self
  obtain ⟨w, hw, hpair⟩ := List.mem_map.1 hmem
  obtain ⟨htarget, hsymbol⟩ := Prod.mk.inj hpair
  refine ⟨g, hg, ?_, ?_, ?_, ?_, w, hw, htarget, hsymbol, ?_⟩ <;> decide +kernel

end GenerationOutput

end LoadBridge
