import LoadBridge.Proofs.Bridge.Emission
import LoadBridge.Proofs.Bridge.Nesting
import LoadBridge.Proofs.Bridge.Slots
import LoadBridge.Proofs.Bridge.Wrapper

/-!
# Bridge — What a run writes is well nested

All code of a run is collected (`GenerationOutput.codes`): what is generated for each class and each
function, and the three files.  Where nothing that code is written with has a brace in it, all of it
closes the braces that it opens: the files are put together of the parts, and each part is written
by one of the synthesizers.
-/

namespace LoadBridge

open Text

/-! ### Functions -/

namespace Context

variable {ctx : Context} {f : FunctionRecord} {returns : TypeRef} {args : List Argument}
  {name symbol slot : String}

theorem nested_libraryWrapper (h : ctx.Clean) (hname : Braceless f.qualifiedName)
    (hreturns : returns.Clean) (hargs : ∀ a ∈ args, a.Clean) (hsymbol : Braceless symbol) :
    (ctx.libraryWrapper f returns args symbol).Nested := by
  have hcall : Braceless (Name.absolute f.qualifiedName ++ "(" ++
      callArguments args ctx.toLibraryArg ++ ")") := by
    simp +decide [braceless_absolute hname, braceless_callLibrary h hargs]
  refine nested_exported (braceless_interfaceReturnType h hreturns .library) hsymbol
    (braceless_interfaceParams h hargs .library) (braceless_returning ?_ hcall)
  rintro _ ⟨⟩
  exact braceless_toInterfaceReturn h hreturns hcall

theorem nested_hostFunction (h : ctx.Clean) (hscope : ∀ s ∈ f.scope, Braceless s)
    (hreturns : returns.Clean) (hargs : ∀ a ∈ args, a.Clean) (hname : Braceless name)
    (hslot : Braceless slot) : (ctx.hostFunction f returns args name slot).Nested := by
  have htypes : Braceless (", ".intercalate
      (args.map fun a => ctx.interfaceArgType .generated a.type)) :=
    braceless_intercalate (by decide) <| List.forall_mem_map.2 fun a ha =>
      braceless_interfaceArgType h (hargs a ha).type .generated
  have hparams : Braceless (parameterList args ctx.delegateType) :=
    braceless_parameterList hargs fun _ => braceless_delegateType h
  have hcall : Braceless (slot ++ "(" ++ ctx.interfaceCallArgs args ++ ")") := by
    simp +decide [hslot, braceless_interfaceCallArgs hargs]
  have hbody : Braceless (returning (some returns) ctx.toDelegateReturn
      (slot ++ "(" ++ ctx.interfaceCallArgs args ++ ")")) :=
    braceless_returning (fun _ _ => braceless_toDelegateReturn h hcall) hcall
  have hline : Braceless ("inline " ++ ctx.interfaceReturnType .generated returns ++ " (*" ++
      slot ++ ")(" ++ ", ".intercalate
        (args.map fun a => ctx.interfaceArgType .generated a.type) ++ ") = 0;") := by
    simp only [braceless_append, braceless_interfaceReturnType h hreturns .generated, hslot, htypes,
      and_true]
    decide
  have hhead : Braceless ("inline " ++ ctx.delegateReturnType returns ++ " " ++ name ++ "(" ++
      parameterList args ctx.delegateType ++ ")") := by
    simp only [braceless_append, braceless_delegateReturnType h hreturns, hname, hparams, and_true]
    decide
  exact ⟨List.forall_mem_append.2 ⟨h.outer, hscope⟩, hline.nested,
    Code.nested_function.2 ⟨hhead, List.forall_mem_singleton.2 hbody.nested⟩⟩

end Context

namespace FunctionRecord

variable {f : FunctionRecord} {type : TypeRef} {a : Argument}

theorem braceless_scope (h : (Record.ofFunction f).Clean) : ∀ s ∈ f.scope, Braceless s :=
  fun s hs => h s (by simp [Record.texts, hs])

theorem clean_returns (h : (Record.ofFunction f).Clean) (htype : f.returns = some type) :
    type.Clean := fun s hs => h s (by simp [Record.texts, htype, hs])

theorem clean_args (h : (Record.ofFunction f).Clean) (ha : a ∈ f.args) : a.Clean := fun s hs =>
  h s (List.mem_append_right _ (List.mem_flatMap.2 ⟨a, ha, hs⟩))

end FunctionRecord

/-- A wrapper with no brace in the names that are bound, and with well nested code. -/
structure FunctionWrapper.Nested (w : FunctionWrapper) : Prop where
  symbol : ∀ symbol, w.symbol = some symbol → Braceless symbol
  slot : ∀ slot, w.slot = some slot → Braceless slot
  libraryCode : w.libraryCode.Nested
  hostCode : w.hostCode.Nested

/-- **A wrapped function is well nested**, on both sides. -/
theorem Context.WrapperOf.nested {ctx : Context} {f : FunctionRecord} {w : FunctionWrapper}
    (h : ctx.Clean) (hf : (Record.ofFunction f).Clean) (hw : ctx.WrapperOf f w) : w.Nested := by
  cases hw with
  | passthrough => exact ⟨nofun, nofun, trivial, trivial⟩
  | exported arity harity returns hreturns counter =>
    have hname : Braceless f.name := hf _ (by simp [Record.texts])
    have hscope := FunctionRecord.braceless_scope hf
    have hreturns := FunctionRecord.clean_returns hf hreturns
    have hargs := clean_args_of_mem_arities (fun _ => FunctionRecord.clean_args hf) harity
    have hsuffixed := braceless_suffixed h hname
    have hsymbol : Braceless (ctx.affixes.suffixed f.name ++ "_" ++ counter.repr) := by
      simp +decide [hsuffixed]
    have hslot := braceless_append.2 ⟨(by decide : Braceless "__"), hsymbol⟩
    have hcalled : Braceless (if ctx.usesLoaded f.types then f.name
        else ctx.affixes.suffixed f.name) := braceless_ite.2 ⟨fun _ => hname, fun _ => hsuffixed⟩
    refine ⟨?_, ?_, ?_, ?_⟩
    · rintro _ ⟨⟩
      exact hsymbol
    · rintro _ ⟨⟩
      exact braceless_join hscope hslot
    · exact nested_libraryWrapper h (braceless_join hscope hname) hreturns hargs hsymbol
    · exact nested_hostFunction h hscope hreturns hargs hcalled hslot

/-! ### Classes -/

/-- All code that is generated for one class. -/
def ClassOutput.codes (c : ClassOutput) : List Code :=
  [c.interface.code, c.interface.hostCode, c.delegate.declaration, c.delegate.definitions,
    c.delegate.code, c.factories.code, c.augmentation.body]

/-- A class with no brace in the names that its declarations and the bindings are written with, and
with well nested code. -/
structure ClassOutput.Nested (c : ClassOutput) : Prop where
  codes : ∀ code ∈ c.codes, code.Nested
  scope : ∀ s ∈ c.scope, Braceless s
  names : c.names.Clean
  symbols : ∀ r ∈ c.factories.records, Braceless r.symbol
  slots : ∀ r ∈ c.factories.records, ∀ slot, r.slot = some slot → Braceless slot
  file : ∀ location, c.augmentation.location = some location → Braceless location.file

/-- **All that is generated for a class is well nested.** -/
theorem Context.Generates.nested {ctx : Context} {c : ClassRecord} {output : ClassOutput}
    (h : ctx.Clean) (hc : c ∈ ctx.table.classes) (hg : ctx.Generates c output) :
    output.Nested := by
  obtain ⟨counter, plan, hplan, rfl⟩ := hg
  have hrecord := h.ofClass hc
  have hp := clean_of_planClass h hc hplan
  have hdeclaration := nested_delegateDeclaration (a := plan.flags.copyable)
    (b := plan.flags.assignable) h hp
  have hdefinitions := nested_delegateDefinitions (a := plan.flags.copyable)
    (b := plan.flags.assignable) h hp
  exact
    { codes := by
        simp only [ClassOutput.codes, List.forall_mem_cons]
        exact ⟨nested_interfaceCode h hp .library, nested_interfaceCode h hp .host, hdeclaration,
          hdefinitions, ⟨⟨hdeclaration, Code.nested_blank⟩, hdefinitions⟩,
          nested_factoriesOf h hp counter, nested_augmentationBody h hp, List.forall_mem_nil _⟩
      scope := List.forall_mem_append.2
        ⟨h.outer, fun s hs => hrecord s (by simp [Record.texts, hs])⟩
      names := hp.names
      symbols := fun _ hr => (braceless_of_mem_records h hp hr).1
      slots := fun _ hr => (braceless_of_mem_records h hp hr).2
      file := fun location hlocation => by
        have hfile : plan.record.location = some location := hlocation
        exact hp.record _ (by simp [Record.texts, hfile]) }

/-! ### Runs -/

namespace GenerationOutput

/-- All code of a run, with its files.  `header` is the name under which the source includes the
library's header. -/
def codes (g : GenerationOutput) (header : String) : List Code :=
  [g.roots, g.forwardDeclarations, g.bindFunction, g.libraryHeader, g.hostHeader,
      g.librarySource header] ++
    g.classes.flatMap ClassOutput.codes ++
    g.functions.flatMap fun w => [w.libraryCode, w.hostCode]

/-- The parts of a run that its files are put together of are well nested. -/
structure Nested (g : GenerationOutput) : Prop where
  outer : ∀ s ∈ g.outer, Braceless s
  roots : g.roots.Nested
  forwardDeclarations : g.forwardDeclarations.Nested
  classes : ∀ c ∈ g.classes, c.Nested
  functions : ∀ w ∈ g.functions, w.Nested
  bindFunction : g.bindFunction.Nested

variable {g : GenerationOutput} {table : SymbolTable} {config : Config} {header : String}

theorem nested_preamble (h : g.Nested) : g.preamble.Nested := by
  have hpragma : Text.Nested "#pragma once" := by decide
  exact ⟨⟨⟨⟨hpragma, Code.nested_blank⟩, h.outer, h.roots⟩, Code.nested_blank⟩,
    h.forwardDeclarations⟩

theorem nested_eachClass {part : ClassOutput → Code} (h : g.Nested)
    (hpart : ∀ c ∈ g.classes, (part c).Nested) : (g.eachClass part).Nested := by
  refine Code.nested_concat.2 <| List.forall_mem_map.2 fun c hc => ?_
  exact ⟨Code.nested_blank, (h.classes c hc).scope, hpart c hc⟩

theorem nested_classCode (h : g.Nested) (flavor : Flavor) : (g.classCode flavor).Nested := by
  have hpart {part : ClassOutput → Code} (hmem : ∀ c, part c ∈ c.codes) :
      (g.eachClass part).Nested :=
    nested_eachClass h fun c hc => (h.classes c hc).codes _ (hmem c)
  refine ⟨⟨hpart fun c => ?_, hpart fun c => ?_⟩, hpart fun c => ?_⟩
  · cases flavor <;> simp [ClassOutput.codes]
  · simp [ClassOutput.codes]
  · simp [ClassOutput.codes]

theorem mem_functions_of_mem_wrapped {w : FunctionWrapper} (hw : w ∈ g.wrapped) :
    w ∈ g.functions := (List.mem_filter.1 hw).1

theorem nested_hostHeader (h : g.Nested) : g.hostHeader.Nested := by
  have hwrapped : (Code.concat (g.wrapped.map fun w => .blank ++ w.hostCode)).Nested :=
    Code.nested_concat.2 <| List.forall_mem_map.2 fun w hw =>
      ⟨Code.nested_blank, (h.functions w (mem_functions_of_mem_wrapped hw)).hostCode⟩
  exact ⟨⟨⟨⟨nested_preamble h, nested_classCode h .host⟩, hwrapped⟩, Code.nested_blank⟩, h.outer,
    h.bindFunction⟩

theorem braceless_of_mem_declaringFiles (h : g.Nested) :
    ∀ file ∈ g.declaringFiles, Braceless file := by
  intro file hfile
  obtain ⟨c, hc, hfile⟩ := List.mem_filterMap.1 (List.mem_eraseDups.1 hfile)
  obtain ⟨location, hlocation, rfl⟩ := Option.map_eq_some_iff.1 hfile
  exact (h.classes c hc).file location hlocation

theorem nested_librarySource (h : g.Nested) (hheader : Braceless header) :
    (g.librarySource header).Nested := by
  have hfiles : ∀ file ∈ header :: g.declaringFiles,
      Text.Nested ("#include \"" ++ file ++ "\"") := fun file hfile => by
    have hfile : Braceless file :=
      List.forall_mem_cons.2 ⟨hheader, braceless_of_mem_declaringFiles h⟩ file hfile
    exact Braceless.nested (by simp +decide [hfile])
  refine ⟨⟨?_, ?_⟩, ?_⟩
  · exact Code.nested_lines.2 (List.forall_mem_map.2 hfiles)
  · refine Code.nested_concat.2 <| List.forall_mem_map.2 fun c hc => ⟨Code.nested_blank, ?_⟩
    exact (h.classes c (List.mem_filter.1 hc).1).codes _ (by simp [ClassOutput.codes])
  · refine Code.nested_concat.2 <| List.forall_mem_map.2 fun w hw => ⟨Code.nested_blank, ?_⟩
    exact (h.functions w (mem_functions_of_mem_wrapped hw)).libraryCode

/-- All code of a run is well nested, where its parts are. -/
theorem nested_codes (h : g.Nested) (hheader : Braceless header) :
    ∀ code ∈ g.codes header, code.Nested := by
  have hpreamble := nested_preamble h
  refine List.forall_mem_append.2 ⟨List.forall_mem_append.2 ⟨?_, ?_⟩, ?_⟩
  · simp only [List.forall_mem_cons]
    exact ⟨h.roots, h.forwardDeclarations, h.bindFunction, ⟨hpreamble, nested_classCode h .library⟩,
      nested_hostHeader h, nested_librarySource h hheader, List.forall_mem_nil _⟩
  · exact List.forall_mem_flatMap.2 fun c hc => (h.classes c hc).codes
  · refine List.forall_mem_flatMap.2 fun w hw => ?_
    have hw := h.functions w hw
    simp [hw.libraryCode, hw.hostCode]

end GenerationOutput

namespace Context

variable {ctx : Context} {classes : List ClassOutput} {functions : List FunctionWrapper}

theorem nested_declareAll (hclasses : ∀ c ∈ classes, c.Nested) :
    (ctx.declareAll classes).Nested := by
  have hcompanions : ∀ c ∈ classes, (ctx.declareCompanions c).Nested := fun c hc => by
    have hnames := (hclasses c hc).names
    rw [declareCompanions]
    split
    · exact trivial
    · exact ⟨nested_forwardDeclaration hnames.interface.name,
        nested_forwardDeclaration hnames.delegate.name⟩
  refine Code.nested_concat.2 <| List.forall_mem_map.2 fun scope hscope => ⟨?_, ?_⟩
  · obtain ⟨c, hc, rfl⟩ := List.mem_map.1 (List.mem_eraseDups.1 hscope)
    exact (hclasses c hc).scope
  · exact Code.nested_concat.2 <| List.forall_mem_map.2 fun c hc =>
      hcompanions c (List.mem_filter.1 hc).1

/-- Neither a slot nor the symbol that it is bound to has a brace in it. -/
theorem braceless_of_mem_slotsOf (hclasses : ∀ c ∈ classes, c.Nested)
    (hfunctions : ∀ w ∈ functions, w.Nested) {binding : String × String}
    (hbinding : binding ∈ slotsOf classes functions) :
    Braceless binding.1 ∧ Braceless binding.2 := by
  rcases List.mem_append.1 hbinding with hbinding | hbinding
  · obtain ⟨r, hr, hbinding⟩ := List.mem_filterMap.1 hbinding
    obtain ⟨c, hc, hr⟩ := List.mem_flatMap.1 hr
    obtain ⟨slot, hslot, rfl⟩ := Option.map_eq_some_iff.1 hbinding
    exact ⟨(hclasses c hc).slots r hr slot hslot, (hclasses c hc).symbols r hr⟩
  · obtain ⟨w, hw, hbinding⟩ := List.mem_filterMap.1 hbinding
    split at hbinding
    · next slot symbol hslot hsymbol =>
      cases hbinding
      exact ⟨(hfunctions w hw).slot slot hslot, (hfunctions w hw).symbol symbol hsymbol⟩
    · cases hbinding

theorem nested_bindFunction {slots : List (String × String)} (h : ctx.Clean)
    (hslots : ∀ binding ∈ slots, Braceless binding.1 ∧ Braceless binding.2) :
    (ctx.bindFunction slots).Nested := by
  have hhead : Braceless ("inline void " ++ ctx.affixes.suffixed "bind_symbols" ++
      "(Lookup lookup)") := by
    simp +decide [braceless_suffixed h]
  have hbody : ∀ binding ∈ slots, Text.Nested (binding.1 ++ " = reinterpret_cast<decltype(" ++
      binding.1 ++ ")>(lookup(\"" ++ binding.2 ++ "\"));") := fun binding hbinding => by
    obtain ⟨hslot, hsymbol⟩ := hslots binding hbinding
    exact Braceless.nested (by simp +decide [hslot, hsymbol])
  have htemplate : Text.Nested "template <typename Lookup>" := by decide
  exact ⟨htemplate, Code.nested_function.2 ⟨hhead, List.forall_mem_map.2 hbody⟩⟩

end Context

namespace GenerationOutput

open Context

variable {g : GenerationOutput} {table : SymbolTable} {config : Config} {header : String}

theorem nested_of_generate (ht : ∀ s ∈ table.texts, Braceless s)
    (hconfig : ∀ s ∈ config.texts, Braceless s) (h : generate table config = .ok g) :
    g.Nested := by
  have hclean := clean_ofRun ht hconfig
  have hclasses : ∀ c ∈ g.classes, c.Nested := fun output houtput => by
    obtain ⟨c, hc, hgenerates⟩ := exists_plan_of_mem_classes h houtput
    exact hgenerates.nested hclean (mem_classes_of_mem_runOrder hc)
  have hfunctions : ∀ w ∈ g.functions, w.Nested := fun w hw => by
    obtain ⟨f, hf, hwrapper⟩ := wrapperOf_of_mem_functions h hw
    exact hwrapper.nested hclean (hclean.records _ (SymbolTable.mem_records_of_mem_functions hf))
  obtain ⟨-, classes, counter, wrapping, -, -, rfl⟩ := generate_eq_ok_iff.1 h
  exact
    { outer := hclean.outer
      roots := nested_rootClasses hclean.interfacePrefix hclean.delegatePrefix
      forwardDeclarations := nested_declareAll hclasses
      classes := hclasses
      functions := hfunctions
      bindFunction := nested_bindFunction hclean fun _ =>
        braceless_of_mem_slotsOf hclasses hfunctions }

/-- **All code of a run is well nested.**  Where no name of the table, no file and no configured
text has a brace in it, every piece of generated code has as many closing as opening braces, and no
more closing than opening ones in any text that it starts with.  Writing it leaves the writer at
the level it had. -/
theorem nested_generate (ht : ∀ s ∈ table.texts, Braceless s)
    (hconfig : ∀ s ∈ config.texts, Braceless s) (hheader : Braceless header)
    (h : generate table config = .ok g) : ∀ code ∈ g.codes header,
      (∀ width, Balanced '\x7b' '\x7d' (code.render width).toList) ∧
      ∀ w : CodeWriter, (code.write w).level = w.level := by
  intro code hcode
  have hnested := nested_codes (nested_of_generate ht hconfig h) hheader code hcode
  exact ⟨hnested.render, code.level_write⟩

/-- A run with a class, its factories and a function. -/
theorem nested_generate_point : ∃ g, generate pointTable pointConfig = .ok g ∧
    ∀ code ∈ g.codes "point.hpp",
      (∀ width, Balanced '\x7b' '\x7d' (code.render width).toList) ∧
      ∀ w : CodeWriter, (code.write w).level = w.level := by
  obtain ⟨g, hg⟩ :=
    succeeds_generate pointTable_wellFormed (show pointConfig.validate = .ok () by cbv)
  exact ⟨g, hg, nested_generate (by decide) (by decide) (by decide) hg⟩

end GenerationOutput

end LoadBridge
