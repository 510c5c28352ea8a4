import LoadBridge.Proofs.Bridge.Alike
import LoadBridge.Proofs.Bridge.Emission
import LoadBridge.Proofs.Bridge.Symbols

/-!
# Bridge — The order of requests

Which classes are loaded does not depend on the order in which they are asked for; the order in
which they are generated does, and with it the numbers of their factories.  Where names tell classes
apart, nothing else does: every name finds the same companions, so classes are planned in contexts
that are alike, and what is made from a plan holds its number nowhere but at the end of symbols
(`sameButNumbers_outputOf`).  Functions are numbered after all factories, of which there are as many
in any order, and come out the same (`generate_reordered`).
-/

namespace LoadBridge

/-! ### Numbers -/

/-- One factory under two numbers. -/
structure FactoryRecord.SameButNumber (r s : FactoryRecord) : Prop where
  symbols : ∃ stem m n, r.symbol = stem ++ "_" ++ Nat.repr m ∧ s.symbol = stem ++ "_" ++ Nat.repr n
  rest : s = { r with symbol := s.symbol }

/-- One class with its factories under two sets of numbers: all else is equal, Interface, Delegate
and augmentation included. -/
structure ClassOutput.SameButNumbers (a b : ClassOutput) : Prop where
  factories : List.Forall₂ FactoryRecord.SameButNumber a.factories.records b.factories.records
  rest : b = { a with factories := b.factories }

theorem pairing_zipIdx {α : Type} (l : List α) (m n : Nat) :
    List.Forall₂ (fun x y => x.1 = y.1) (l.zipIdx m) (l.zipIdx n) := by
  induction l generalizing m n with
  | nil => exact .nil
  | cons a rest ih => exact .cons rfl (ih _ _)

namespace Context

variable {ctx : Context} {c : ClassRecord}

theorem sameButNumber_factoryRecord (ctx : Context) (p : ClassPlan) (order : FactoryOrder)
    (m n : Nat) : (ctx.factoryRecord p order m).SameButNumber (ctx.factoryRecord p order n) where
  symbols := ⟨_, m, n, rfl, rfl⟩
  rest := rfl

/-- **What is made from a plan holds its number at the end of symbols only.** -/
theorem sameButNumbers_outputOf (ctx : Context) (m n : Nat) (c : ClassRecord) (plan : ClassPlan) :
    (ctx.outputOf m c plan).SameButNumbers (ctx.outputOf n c plan) where
  factories := by
    rw [outputOf_factories, outputOf_factories]
    unfold factoriesOf
    split
    · exact .nil
    · simp only [List.map_map, List.forall₂_map_left_iff, List.forall₂_map_right_iff]
      refine (pairing_zipIdx _ m n).imp ?_
      rintro ⟨order, i⟩ ⟨_, j⟩ rfl
      exact sameButNumber_factoryRecord ctx plan order i j
  rest := rfl

theorem Generates.sameButNumbers {a b : ClassOutput} (ha : ctx.Generates c a)
    (hb : ctx.Generates c b) : a.SameButNumbers b := by
  obtain ⟨m, plan, hplan, rfl⟩ := ha
  obtain ⟨n, plan', hplan', rfl⟩ := hb
  obtain rfl := Except.ok.inj (hplan.symm.trans hplan')
  exact sameButNumbers_outputOf ctx m n c plan

/-- The number after these classes tells how many factories they have. -/
theorem next_generateClasses {counter next : Nat} {cs : List ClassRecord}
    {outputs : List ClassOutput} (h : ctx.generateClasses counter cs = .ok (outputs, next)) :
    next = counter + (outputs.map fun c => c.factories.records.length).sum := by
  obtain ⟨n, rfl, hnumbers⟩ := factoryNumbers_generateClasses h
  have hlength := congrArg List.length hnumbers
  rw [factoryNumbers, List.length_map, List.length_flatMap, List.length_range'] at hlength
  rw [hlength]

/-- In another order the classes are the same but for their numbers, and so many in all. -/
theorem sameButNumbers_generateClasses {first second : List ClassRecord}
    {outputs outputs' : List ClassOutput} {next next' : Nat} (hperm : first.Perm second)
    (h : ctx.generateClasses 0 first = .ok (outputs, next))
    (h' : ctx.generateClasses 0 second = .ok (outputs', next')) :
    (∃ reordered, reordered.Perm outputs' ∧
      List.Forall₂ ClassOutput.SameButNumbers outputs reordered) ∧ next' = next := by
  obtain ⟨reordered, hpairs, hreordered⟩ :=
    List.perm_comp_forall₂ hperm (forall₂_generateClasses h')
  have hsame : List.Forall₂ ClassOutput.SameButNumbers outputs reordered :=
    pairing_of_common (forall₂_generateClasses h) hpairs fun _ _ _ => Generates.sameButNumbers
  refine ⟨⟨reordered, hreordered, hsame⟩, ?_⟩
  have hcounts := map_eq_map_of_pairing hsame
    (f := fun c => c.factories.records.length) (g := fun c => c.factories.records.length)
    fun _ _ hab => hab.factories.length_eq.symm
  rw [next_generateClasses h, next_generateClasses h', ← hcounts,
    (hreordered.map fun c => c.factories.records.length).sum_eq]

end Context

/-! ### Configurations -/

/-- Configurations that differ at most in the order in which they ask for classes. -/
structure Config.Reordered (a b : Config) : Prop where
  classes : a.load.classes.Perm b.load.classes
  rest : b = { a with load := { a.load with classes := b.load.classes } }

namespace Config.Reordered

open Context

variable {a b : Config} {table : SymbolTable} {c : ClassRecord} {q : String}
  {names : GeneratedNames}

theorem symm (h : a.Reordered b) : b.Reordered a where
  classes := h.classes.symm
  rest := by rw [h.rest]

theorem alike (h : a.Reordered b) : a.Alike b := by
  refine ⟨?_, ?_, ?_, ?_, ?_, ?_, ?_⟩
  · funext name
    rw [isDitched, isDitched, h.rest]
  · funext name
    rw [isKnownClass, isKnownClass, h.rest]
  all_goals rw [h.rest]

theorem isRequested (h : a.Reordered b) (hc : (new table a).IsRequested c) :
    (new table b).IsRequested c := by
  obtain ⟨name, hname, haccepted, hfound⟩ := isRequested_iff.1 hc
  refine isRequested_iff.2 ⟨name, h.classes.mem_iff.1 hname, ?_, hfound⟩
  rw [← (h.alike.new table).checkClass, haccepted]

theorem mem_loadSet (h : a.Reordered b) (hc : c ∈ (new table a).loadSet) :
    c ∈ (new table b).loadSet := by
  have halike := h.alike.new table
  refine loadSet_subset_of_closed (P := (· ∈ (new table b).loadSet))
    (fun c hc => (h.isRequested hc).mem_loadSet) (fun hparents c hc parent hparent => ?_) c hc
  obtain ⟨base, hbase, hfound, haccepted⟩ := hparent
  refine IsAcceptedParent.mem_loadSet (halike.config.parentClasses ▸ hparents) hc
    ⟨base, hbase, hfound, ?_⟩
  rw [← halike.checkClass, haccepted]

/-- Where names tell classes apart, every name finds the same companions. -/
theorem companions (h : a.Reordered b) (hkeys : table.KeysDistinct)
    (hnames : (ofRun table a).names.get? q = some names) :
    (ofRun table b).names.get? q = some names := by
  obtain ⟨c, hc, hkey, rfl⟩ := exists_of_names hnames
  have hclass : c ∈ table.classes := (Context.mem_loadSet.1 hc).1
  have hfound := (names_eq_some_iff hkeys hclass).2 ⟨h.mem_loadSet hc, rfl⟩
  rw [← NameTable.get?_congr _ hkey, hfound, ClassRecord.companions, ClassRecord.companions,
    h.alike.affixes]

theorem ofRun (h : a.Reordered b) (hkeys : table.KeysDistinct) :
    (Context.ofRun table a).Alike (Context.ofRun table b) := by
  refine h.alike.ofRun (funext fun q => Option.ext fun names => ?_)
  exact ⟨h.companions hkeys, h.symm.companions hkeys⟩

theorem perm_runOrder (h : a.Reordered b) (hkeys : table.KeysDistinct) :
    (runOrder table a).Perm (runOrder table b) := by
  have hnodup : ∀ config, (runOrder table config).Nodup := fun config =>
    .of_map _ (nodup_runOrder table config)
  refine (List.perm_ext_iff_of_nodup (hnodup a) (hnodup b)).2 fun c => ?_
  rw [mem_runOrder hkeys, mem_runOrder hkeys]
  exact ⟨h.mem_loadSet, h.symm.mem_loadSet⟩

end Config.Reordered

/-! ### Runs -/

open Context

variable {table : SymbolTable} {a b : Config}

/-- A run succeeds in any order if it does in one. -/
theorem succeeds_reordered (h : a.Reordered b) (hkeys : table.KeysDistinct)
    (hsucceeds : Succeeds (generate table a)) : Succeeds (generate table b) := by
  obtain ⟨g, hg⟩ := hsucceeds
  obtain ⟨hvalid, classes, counter, wrapping, hclasses, hwrapping, -⟩ := generate_eq_ok_iff.1 hg
  have hrun := h.ofRun hkeys
  have hplans : ∀ c ∈ runOrder table b, Succeeds ((ofRun table b).planClass c) := by
    intro c hc
    obtain ⟨_, -, _, plan, hplan, -⟩ := exists_partner (forall₂_generateClasses hclasses)
      ((h.perm_runOrder hkeys).mem_iff.2 hc)
    exact ⟨plan, hrun.planClass ▸ hplan⟩
  obtain ⟨⟨classes', counter'⟩, hclasses'⟩ := succeeds_generateClasses_of_plans hplans 0
  rw [hrun.generateClasses] at hclasses
  obtain ⟨-, rfl⟩ :=
    sameButNumbers_generateClasses (h.perm_runOrder hkeys) hclasses hclasses'
  rw [hrun.wrapFunctions] at hwrapping
  exact ⟨_, generate_eq_ok_iff.2
    ⟨h.alike.validate ▸ hvalid, classes', _, wrapping, hclasses', hwrapping, rfl⟩⟩

/-- **The order of requests does not matter.**  Where names tell classes apart, runs that ask for
the same classes in two orders both succeed or both fail.  If they succeed they generate the same
classes up to order, each the same but for the numbers at the end of its factories' symbols, and the
same functions. -/
theorem generate_reordered (hkeys : table.KeysDistinct) (h : a.Reordered b) :
    (Succeeds (generate table a) ↔ Succeeds (generate table b)) ∧
      ∀ g g', generate table a = .ok g → generate table b = .ok g' →
        (∃ reordered, reordered.Perm g'.classes ∧
          List.Forall₂ ClassOutput.SameButNumbers g.classes reordered) ∧
        g'.functions = g.functions := by
  refine ⟨⟨succeeds_reordered h hkeys, succeeds_reordered h.symm hkeys⟩, fun g g' hg hg' => ?_⟩
  obtain ⟨-, classes, counter, wrapping, hclasses, hwrapping, rfl⟩ := generate_eq_ok_iff.1 hg
  obtain ⟨-, classes', counter', wrapping', hclasses', hwrapping', rfl⟩ := generate_eq_ok_iff.1 hg'
  have hrun := h.ofRun hkeys
  rw [hrun.generateClasses] at hclasses
  rw [hrun.wrapFunctions] at hwrapping
  obtain ⟨hsame, rfl⟩ :=
    sameButNumbers_generateClasses (h.perm_runOrder hkeys) hclasses hclasses'
  obtain rfl := Except.ok.inj (hwrapping.symm.trans hwrapping')
  exact ⟨hsame, rfl⟩

/-! ### Two orders -/

/-- Two classes with a constructor each, one of which takes an object of the other, and a function
that answers one. -/
def twinTable : SymbolTable where
  records :=
    [.ofClass { id := ⟨"_1"⟩, name := "A", members := [⟨"_3"⟩] },
      .ofClass { id := ⟨"_2"⟩, name := "B", members := [⟨"_4"⟩] },
      .ofMember { id := ⟨"_3"⟩, name := "A", kind := .constructor, context := ⟨"_1"⟩ },
      .ofMember { id := ⟨"_4"⟩, name := "B", kind := .constructor, context := ⟨"_2"⟩
                  args := [{ type := .of ⟨"_1"⟩ [] "A" }] },
      .ofFunction { id := ⟨"_5"⟩, name := "f", returns := some (.of ⟨"_2"⟩ [] "B") }]
  distinct := by decide

/-- Asks for the function and these classes. -/
def twinConfig (classes : List String) : Config where
  load := { classes, functions := ["f"] }

theorem twinTable_keysDistinct : twinTable.KeysDistinct := by
  have hnames : (twinTable.classes.map fun c => Name.key c.qualifiedName) = ["A", "B"] := by cbv
  rw [SymbolTable.KeysDistinct, hnames]
  decide

theorem twinTable_wellFormed : twinTable.WellFormed where
  members := by simp [twinTable, SymbolTable.classes, SymbolTable.lookup, Record.asClass?,
    Record.id]
  typed := by decide
  bases := by simp [twinTable, Record.types, SymbolTable.HasBase, SymbolTable.lookup, Record.id,
    TypeRef.of, Record.isType]

theorem generate_reordered_twins :
    twinTable.KeysDistinct ∧
      (twinConfig ["A", "B"]).Reordered (twinConfig ["B", "A"]) ∧
      ∃ g g', generate twinTable (twinConfig ["A", "B"]) = .ok g ∧
        generate twinTable (twinConfig ["B", "A"]) = .ok g' ∧
        g.classes.map ClassOutput.target = ["A", "B"] ∧
        g'.classes.map ClassOutput.target = ["B", "A"] ∧
        (∃ reordered, reordered.Perm g'.classes ∧
          List.Forall₂ ClassOutput.SameButNumbers g.classes reordered) ∧
        g'.functions = g.functions := by
  have hreordered : (twinConfig ["A", "B"]).Reordered (twinConfig ["B", "A"]) :=
    ⟨.swap "B" "A" [], rfl⟩
  obtain ⟨hsucceeds, hsame⟩ := generate_reordered twinTable_keysDistinct hreordered
  obtain ⟨g, hg⟩ := succeeds_generate twinTable_wellFormed
    (show (twinConfig ["A", "B"]).validate = .ok () by cbv)
  obtain ⟨g', hg'⟩ := hsucceeds.1 ⟨g, hg⟩
  have horder : (runOrder twinTable (twinConfig ["A", "B"])).map
      ClassRecord.qualifiedName = ["A", "B"] := by cbv
  have horder' : (runOrder twinTable (twinConfig ["B", "A"])).map
      ClassRecord.qualifiedName = ["B", "A"] := by cbv
  exact ⟨twinTable_keysDistinct, hreordered, g, g', hg, hg',
    (GenerationOutput.map_target_classes hg).trans horder,
    (GenerationOutput.map_target_classes hg').trans horder', hsame g g' hg hg'⟩

end LoadBridge
