import LoadBridge.Proofs.Bridge.Run

/-!
# Bridge — Exported symbols

A symbol ends in an underscore and a number.  Whatever stands before them, the number can be read
back from the text (`symbolNumber_numbered`), since digits are no underscores.  Factories and
wrapped functions draw their numbers from one counter, so that the symbols of a run are numbered
`0, 1, 2, …` (`symbolNumbers_generate`), and no two are the same (`symbols_nodup`).
-/

namespace LoadBridge

/-- The number after the last underscore of a symbol. -/
def symbolNumber (symbol : String) : Nat :=
  Nat.ofDigitChars 10 (symbol.toList.reverse.takeWhile (· ≠ '_')).reverse 0

theorem ne_underscore_of_mem_toDigits {n : Nat} {c : Char} (hc : c ∈ Nat.toDigits 10 n) :
    c ≠ '_' := by
  rintro rfl
  have hdigit := Nat.isDigit_of_mem_toDigits (by decide) (by decide) hc
  exact absurd hdigit (by decide)

/-- **The number of a symbol is recovered from its text.** -/
theorem symbolNumber_numbered (stem : String) (n : Nat) :
    symbolNumber (stem ++ "_" ++ n.repr) = n := by
  have hdigits : ∀ c ∈ (Nat.toDigits 10 n).reverse, decide (c ≠ '_') = true := fun c hc =>
    decide_eq_true (ne_underscore_of_mem_toDigits (List.mem_reverse.1 hc))
  have htail : (stem ++ "_" ++ n.repr).toList.reverse =
      (Nat.toDigits 10 n).reverse ++ '_' :: stem.toList.reverse := by
    simp
  rw [symbolNumber, htail, List.takeWhile_append_of_pos hdigits,
    List.takeWhile_cons_of_neg (by decide), List.append_nil, List.reverse_reverse,
    Nat.ofDigitChars_toDigits (by decide) (by decide)]

/-! ### Factories -/

/-- The numbers of these factories, in order. -/
def factoryNumbers (records : List FactoryRecord) : List Nat :=
  records.map fun r => symbolNumber r.symbol

theorem factoryNumbers_append (rs ss : List FactoryRecord) :
    factoryNumbers (rs ++ ss) = factoryNumbers rs ++ factoryNumbers ss :=
  List.map_append

namespace Context

theorem symbolNumber_factoryRecord (ctx : Context) (p : ClassPlan) (order : FactoryOrder)
    (counter : Nat) : symbolNumber (ctx.factoryRecord p order counter).symbol = counter :=
  symbolNumber_numbered _ counter

/-- The factories of a class take the numbers from `counter` on. -/
theorem factoryNumbers_factoriesOf (ctx : Context) (counter : Nat) (p : ClassPlan) :
    factoryNumbers (ctx.factoriesOf counter p).records =
      List.range' counter (ctx.factoriesOf counter p).records.length := by
  unfold factoriesOf
  split
  · rfl
  · simp only [factoryNumbers, List.map_map, List.length_map, List.length_zipIdx]
    rw [← List.zipIdx_map_snd counter]
    refine List.map_congr_left ?_
    rintro ⟨order, n⟩ -
    simp only [Function.comp_apply, symbolNumber_factoryRecord]

/-- The factories of a list of classes take the numbers from `counter` to `next`. -/
theorem factoryNumbers_generateClasses {ctx : Context} {counter next : Nat}
    {cs : List ClassRecord} {outputs : List ClassOutput}
    (h : ctx.generateClasses counter cs = .ok (outputs, next)) :
    ∃ n, next = counter + n ∧
      factoryNumbers (outputs.flatMap fun c => c.factories.records) = List.range' counter n := by
  induction cs generalizing counter outputs with
  | nil =>
      cases h
      exact ⟨0, rfl, rfl⟩
  | cons c rest ih =>
      obtain ⟨output, others, hc, hrest, rfl⟩ := generateClasses_cons_eq_ok_iff.1 h
      obtain ⟨plan, -, rfl⟩ := generateClass_eq_ok_iff.1 hc
      obtain ⟨n, rfl, hnumbers⟩ := ih hrest
      refine ⟨(ctx.factoriesOf counter plan).records.length + n, Nat.add_assoc .., ?_⟩
      rw [List.flatMap_cons, factoryNumbers_append, hnumbers, outputOf_factories,
        factoryNumbers_factoriesOf, List.range'_append_1]

end Context

/-! ### Functions -/

theorem Context.symbol_exportedFunction (ctx : Context) (f : FunctionRecord) (returns : TypeRef)
    (usesLoaded : Bool) (arity : Arity) (counter : Nat) :
    ∃ symbol, (ctx.exportedFunction f returns usesLoaded arity counter).symbol = some symbol ∧
      symbolNumber symbol = counter :=
  ⟨_, rfl, symbolNumber_numbered _ counter⟩

namespace Wrapping

/-- The symbols that were exported have the numbers from `start` up to the counter. -/
def NumberedFrom (start : Nat) (w : Wrapping) : Prop :=
  ∃ n, w.counter = start + n ∧
    (w.wrappers.filterMap FunctionWrapper.symbol).map symbolNumber = List.range' start n

variable {ctx : Context} {start : Nat} {w w' : Wrapping}

theorem NumberedFrom.wrapArity {f : FunctionRecord} {returns : TypeRef} {usesLoaded : Bool}
    {arity : Arity} (hw : w.NumberedFrom start)
    (h : ctx.wrapArity f returns usesLoaded w arity = .ok w') : w'.NumberedFrom start := by
  obtain ⟨n, hcounter, hnumbers⟩ := hw
  obtain ⟨verdict, -, h⟩ := bind_eq_ok.1 h
  split at h
  -- rejected
  · cases h
    exact ⟨n, hcounter, hnumbers⟩
  · split at h
    -- passed through: no symbol and no number
    · cases h
      refine ⟨n, hcounter, ?_⟩
      rw [List.filterMap_append, List.map_append, hnumbers]
      exact List.append_nil _
    -- exported under the next number
    · cases h
      obtain ⟨symbol, hsymbol, hnumber⟩ :=
        ctx.symbol_exportedFunction f returns usesLoaded arity w.counter
      refine ⟨n + 1, by rw [hcounter, Nat.add_assoc], ?_⟩
      rw [List.filterMap_append, List.map_append, hnumbers, List.range'_1_concat, ← hcounter]
      simp [hsymbol, hnumber]

theorem NumberedFrom.wrapFunction {f : FunctionRecord} (hw : w.NumberedFrom start)
    (h : ctx.wrapFunction w f = .ok w') : w'.NumberedFrom start := by
  unfold Context.wrapFunction at h
  split at h
  · cases h
    exact hw
  · obtain ⟨returns, -, h⟩ := bind_eq_ok.1 h
    obtain ⟨next, hfold, h⟩ := bind_eq_ok.1 h
    have hnext : next.NumberedFrom start :=
      foldlM_keeps (fun _ _ _ => NumberedFrom.wrapArity) _ w next hw hfold
    split at h <;> cases h <;> exact hnext

theorem NumberedFrom.wrapSelected {s : Selector} (hw : w.NumberedFrom start)
    (h : ctx.wrapSelected w s = .ok w') : w'.NumberedFrom start := by
  unfold Context.wrapSelected at h
  split at h
  · cases h
    exact hw
  · exact foldlM_keeps (fun _ _ _ => NumberedFrom.wrapFunction) _ w w' hw h

/-- The wrapped functions take the numbers from `counter` on. -/
theorem NumberedFrom.wrapFunctions {counter : Nat} (h : ctx.wrapFunctions counter = .ok w) :
    w.NumberedFrom counter := by
  unfold Context.wrapFunctions at h
  split at h
  · cases h
  · next selectors _ =>
    have hstart : ({ counter } : Wrapping).NumberedFrom counter := ⟨0, rfl, rfl⟩
    exact foldlM_keeps (fun _ _ _ => NumberedFrom.wrapSelected) _ _ w hstart (trust_eq_ok_iff.1 h)

end Wrapping

/-! ### Runs -/

namespace GenerationOutput

/-- The symbols that the library exports, in the order of their numbers. -/
def symbols (g : GenerationOutput) : List String :=
  g.factories.map FactoryRecord.symbol ++ g.wrapped.filterMap FunctionWrapper.symbol

theorem wrapped_filterMap_symbol (g : GenerationOutput) :
    g.wrapped.filterMap FunctionWrapper.symbol = g.functions.filterMap FunctionWrapper.symbol := by
  rw [wrapped, List.filterMap_filter]
  refine List.filterMap_congr fun w _ => ?_
  cases hw : w.symbol <;> simp [FunctionWrapper.isPassthrough, hw]

/-- **The symbols of a run are numbered `0, 1, 2, …`.** -/
theorem symbolNumbers_generate {table : SymbolTable} {config : Config} {g : GenerationOutput}
    (h : generate table config = .ok g) :
    g.symbols.map symbolNumber = List.range g.symbols.length := by
  obtain ⟨-, classes, counter, wrapping, hclasses, hwrapping, hg⟩ := generate_eq_ok_iff.1 h
  obtain ⟨n, rfl, hfactories⟩ := Context.factoryNumbers_generateClasses hclasses
  obtain ⟨k, -, hfunctions⟩ := Wrapping.NumberedFrom.wrapFunctions hwrapping
  have hnumbers : g.symbols.map symbolNumber = List.range (n + k) := by
    rw [symbols, List.map_append, wrapped_filterMap_symbol, List.map_map, List.range_eq_range',
      ← List.range'_append_1, ← hfactories, ← hfunctions, hg]
    rfl
  have hlength : g.symbols.length = n + k := by simpa using congrArg List.length hnumbers
  rw [hnumbers, hlength]

/-- **Exported symbols never repeat within a run.** -/
theorem symbols_nodup {table : SymbolTable} {config : Config} {g : GenerationOutput}
    (h : generate table config = .ok g) : g.symbols.Nodup :=
  .of_map symbolNumber (symbolNumbers_generate h ▸ List.nodup_range)

end GenerationOutput

/-! ### A run with a class and a function -/

/-- A class with one constructor, and a function that answers an object of it. -/
def pointTable : SymbolTable where
  records :=
    [.ofClass { id := ⟨"_1"⟩, name := "Point", members := [⟨"_2"⟩] },
      .ofMember { id := ⟨"_2"⟩, name := "Point", kind := .constructor, context := ⟨"_1"⟩ },
      .ofFunction { id := ⟨"_3"⟩, name := "origin", returns := some (.of ⟨"_1"⟩ [] "Point") }]
  distinct := by decide

/-- Loads all of it, with factories of both kinds. -/
def pointConfig : Config where
  load := { classes := ["Point"], functions := ["origin"] }
  output := { wrapperReturnFactories := true }

namespace GenerationOutput

theorem symbols_nodup_point : ∃ g, generate pointTable pointConfig = .ok g ∧
    g.symbols = ["Factory_Point_0_BE_0", "Factory_Point_0_BE_1", "origin_BE_2"] ∧
    g.symbols.Nodup := by
  have hvalid : pointConfig.validate = .ok () := by cbv
  let point : ClassRecord := { id := ⟨"_1"⟩, name := "Point", members := [⟨"_2"⟩] }
  have horder : Context.runOrder pointTable pointConfig = [point] := by cbv
  let ctx := Context.ofRun pointTable pointConfig
  have hplan : (ctx.planClass point).map (fun p =>
      (ctx.factoriesOf 0 p).records.map FactoryRecord.symbol) =
        .ok ["Factory_Point_0_BE_0", "Factory_Point_0_BE_1"] := by cbv
  have hwrap : (ctx.wrapFunctions 2).map (fun w =>
      w.wrappers.filterMap FunctionWrapper.symbol) = .ok ["origin_BE_2"] := by cbv
  obtain ⟨plan, hplan, hfactories⟩ := map_eq_ok.1 hplan
  obtain ⟨w, hwrap, hfunctions⟩ := map_eq_ok.1 hwrap
  have hclass : ctx.generateClass 0 point = .ok (ctx.outputOf 0 point plan) :=
    Context.generateClass_eq_ok_iff.2 ⟨plan, hplan, rfl⟩
  have hcount : 0 + (ctx.outputOf 0 point plan).factories.records.length = 2 := by
    simpa using congrArg List.length hfactories
  have hclasses : ctx.generateClasses 0 [point] = .ok ([ctx.outputOf 0 point plan], 2) :=
    Context.generateClasses_cons_eq_ok_iff.2
      ⟨_, [], hclass, hcount ▸ Context.generateClasses_nil, rfl⟩
  have hrun := generate_eq_ok_iff.2 ⟨hvalid, _, _, w, horder ▸ hclasses, hwrap, rfl⟩
  refine ⟨_, hrun, ?_, symbols_nodup hrun⟩
  rw [symbols, wrapped_filterMap_symbol]
  exact congrArg₂ (· ++ ·) ((congrArg _ (List.append_nil _)).trans hfactories) hfunctions

end GenerationOutput

end LoadBridge
