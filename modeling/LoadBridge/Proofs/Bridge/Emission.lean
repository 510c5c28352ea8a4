import LoadBridge.Proofs.Bridge.Totality

/-!
# Bridge — Every class comes after its ancestors

The names that a plan takes from a parent or an ancestor are those of a class that is generated
earlier (`exists_before_of_parent`, `exists_before_of_ancestor`), where names tell classes apart and
no class is its own ancestor.  So the classes of a run are in topological order
(`GenerationOutput.classes_topological`).
-/

namespace LoadBridge

namespace Context

variable {table : SymbolTable} {config : Config} {c : ClassRecord}

/-- The loaded parents in a plan come before its class. -/
theorem exists_before_of_parent {before after : List ClassRecord} {p : ParentInfo}
    {names : GeneratedNames} (hkeys : table.KeysDistinct) (hacyclic : table.BasesAcyclic)
    (horder : runOrder table config = before ++ c :: after)
    (hp : p ∈ (ofRun table config).parentsOf c) (hstatus : p.status = .loaded names) :
    ∃ parent ∈ before, p.name = parent.qualifiedName ∧
      (ofRun table config).names.get? parent.qualifiedName = some names := by
  obtain ⟨parent, hbase, hmem, hname, hnames⟩ := of_mem_parentsOf hp hstatus
  have hload := ((names_eq_some_iff hkeys hmem).1 hnames).1
  exact ⟨parent, mem_before_of_parent hkeys hacyclic horder (by simp) hload hbase, hname, hnames⟩

/-- The loaded ancestors in a plan come before its class. -/
theorem exists_before_of_ancestor {before after : List ClassRecord} {names : GeneratedNames}
    (hkeys : table.KeysDistinct) (hacyclic : table.BasesAcyclic)
    (horder : runOrder table config = before ++ c :: after)
    (h : names ∈ (ofRun table config).loadedAncestors c) :
    ∃ a ∈ before, a ∈ table.classes ∧ a.id ∈ (ofRun table config).loadedAncestorIds c ∧
      (ofRun table config).names.get? a.qualifiedName = some names := by
  obtain ⟨a, ha, hid, hnames⟩ := of_mem_loadedAncestors h
  -- what comes before the class is closed under loaded parents
  have hclosed : ∀ b ∈ before ++ [c], ∀ parent ∈ table.classes, parent.id ∈ b.baseIds →
      (ofRun table config).isLoadedClass parent = true → parent ∈ before :=
    fun b hb parent hparent hbase hloaded => mem_before_of_parent hkeys hacyclic horder hb
      ((isLoadedClass_iff hkeys hparent).1 hloaded) hbase
  refine ⟨a, ?_, ha, hid, hnames⟩
  exact loadedAncestorIds_subset_of_closed (hclosed c (by simp))
    (fun b _ hb => hclosed b (List.mem_append_left _ hb)) a ha hid

/-- What was generated for a class is there, under its names. -/
theorem exists_output_of_names {ctx : Context} {classes : List ClassRecord}
    {outputs : List ClassOutput} {a : ClassRecord} {names : GeneratedNames}
    (hpairs : List.Forall₂ ctx.Generates classes outputs) (ha : a ∈ classes)
    (hnames : ctx.names.get? a.qualifiedName = some names) :
    ∃ output ∈ outputs, output.target = a.qualifiedName ∧ output.names = names := by
  obtain ⟨output, hmem, hg⟩ := exists_partner hpairs ha
  exact ⟨output, hmem, hg.target, Option.some.inj (hg.names.symm.trans hnames)⟩

end Context

namespace GenerationOutput

open Context

/-- The classes of a run are generated one by one. -/
theorem forall₂_classes {table : SymbolTable} {config : Config} {g : GenerationOutput}
    (h : generate table config = .ok g) :
    List.Forall₂ (ofRun table config).Generates (runOrder table config) g.classes := by
  obtain ⟨-, classes, counter, wrapping, hclasses, -, rfl⟩ := generate_eq_ok_iff.1 h
  exact forall₂_generateClasses hclasses

/-- What is generated for a class is made from its plan. -/
theorem exists_plan_of_mem_classes {table : SymbolTable} {config : Config} {g : GenerationOutput}
    (h : generate table config = .ok g) {output : ClassOutput} (houtput : output ∈ g.classes) :
    ∃ c ∈ runOrder table config, (ofRun table config).Generates c output :=
  exists_partner_left (forall₂_classes h) houtput

/-- Where names tell classes apart, every class of the load set is generated. -/
theorem exists_output_of_mem_loadSet {table : SymbolTable} {config : Config} {g : GenerationOutput}
    (hkeys : table.KeysDistinct) (h : generate table config = .ok g) {c : ClassRecord}
    (hc : c ∈ (new table config).loadSet) :
    ∃ output ∈ g.classes, (ofRun table config).Generates c output :=
  exists_partner (forall₂_classes h) ((mem_runOrder hkeys).2 hc)

theorem map_target_classes {table : SymbolTable} {config : Config} {g : GenerationOutput}
    (h : generate table config = .ok g) : g.classes.map ClassOutput.target =
      (runOrder table config).map ClassRecord.qualifiedName :=
  map_eq_map_of_pairing (forall₂_classes h) fun _ _ hg => hg.target

/-- The ledger of a run lists its classes. -/
theorem ledger_classesDone {table : SymbolTable} {config : Config} {g : GenerationOutput}
    (h : generate table config = .ok g) :
    g.ledger.classesDone = g.classes.map ClassOutput.target := by
  obtain ⟨-, classes, counter, wrapping, -, -, rfl⟩ := generate_eq_ok_iff.1 h
  rfl

/-- **The classes come in topological order.**  Where names tell classes apart and no class is its
own ancestor, a run generates every class of its load set once, and the parents and ancestors that
the plan of a class takes as loaded are generated before it. -/
theorem classes_topological {table : SymbolTable} {config : Config} {g : GenerationOutput}
    (hkeys : table.KeysDistinct) (hacyclic : table.BasesAcyclic)
    (h : generate table config = .ok g) :
    (g.classes.map ClassOutput.target).Perm
      ((new table config).loadSet.map ClassRecord.qualifiedName) ∧
    (g.classes.map ClassOutput.target).Nodup ∧
    g.ledger.classesDone = g.classes.map ClassOutput.target ∧
    ∀ before output after, g.classes = before ++ output :: after →
      ∃ c ∈ (new table config).loadSet, ∃ plan counter,
        (ofRun table config).planClass c = .ok plan ∧
        output = (ofRun table config).outputOf counter c plan ∧
        (∀ p ∈ plan.parents, ∀ names, p.status = .loaded names →
          ∃ earlier ∈ before, earlier.target = p.name ∧ earlier.names = names) ∧
        ∀ names ∈ plan.loadedAncestors, ∃ ancestor ∈ table.classes,
          ancestor.id ∈ (ofRun table config).loadedAncestorIds c ∧
          ∃ earlier ∈ before, earlier.target = ancestor.qualifiedName ∧ earlier.names = names := by
  have htargets := map_target_classes h
  refine ⟨?_, htargets ▸ nodup_runOrder table config, ledger_classesDone h,
    fun before output after hsplit => ?_⟩
  · exact htargets ▸ (perm_runOrder hkeys).map _
  · have hpairs := forall₂_classes h
    rw [hsplit] at hpairs
    obtain ⟨first, c, last, horder, hfirst, ⟨counter, plan, hplan, hout⟩, -⟩ :=
      exists_split hpairs
    refine ⟨c, (mem_runOrder hkeys).1 (horder ▸ by simp), plan, counter, hplan, hout, ?_⟩
    obtain ⟨_, _, _, _, -, -, -, -, rfl⟩ := planClass_eq_ok_iff.1 hplan
    refine ⟨fun p hp names hstatus => ?_, fun names hnames => ?_⟩
    · obtain ⟨parent, hbefore, hname, hnames⟩ :=
        exists_before_of_parent hkeys hacyclic horder hp hstatus
      exact hname ▸ exists_output_of_names hfirst hbefore hnames
    · obtain ⟨a, hbefore, ha, hid, hnames⟩ :=
        exists_before_of_ancestor hkeys hacyclic horder hnames
      exact ⟨a, ha, hid, exists_output_of_names hfirst hbefore hnames⟩

/-! ### A run with a diamond -/

/-- A class over two parents that have one parent. -/
def diamondTable : SymbolTable where
  records :=
    [.ofClass { id := ⟨"_4"⟩, name := "D", bases := [{ id := ⟨"_2"⟩ }, { id := ⟨"_3"⟩ }] },
      .ofClass { id := ⟨"_3"⟩, name := "C", bases := [{ id := ⟨"_1"⟩ }] },
      .ofClass { id := ⟨"_2"⟩, name := "B", bases := [{ id := ⟨"_1"⟩ }] },
      .ofClass { id := ⟨"_1"⟩, name := "A" }]
  distinct := by decide

/-- Asks for the last of them, and for its ancestors. -/
def diamondConfig : Config where
  load := { classes := ["D"], parentClasses := true }

theorem classes_topological_diamond : diamondTable.KeysDistinct ∧ diamondTable.BasesAcyclic ∧
    ∃ g, generate diamondTable diamondConfig = .ok g ∧
      g.classes.map ClassOutput.target = ["A", "B", "C", "D"] ∧
      (g.classes.map ClassOutput.target).Perm
        ((new diamondTable diamondConfig).loadSet.map ClassRecord.qualifiedName) ∧
      g.ledger.classesDone = g.classes.map ClassOutput.target := by
  have hkeys : diamondTable.KeysDistinct := by
    rw [SymbolTable.KeysDistinct]
    have : (diamondTable.classes.map fun c => Name.key c.qualifiedName) = ["D", "C", "B", "A"] := by
      cbv
    rw [this]
    decide
  have hacyclic : diamondTable.BasesAcyclic := by
    refine SymbolTable.basesAcyclic_of_rank
      (fun id => if id = ⟨"_4"⟩ then 2 else if id = ⟨"_1"⟩ then 0 else 1) ?_
    decide
  have hwf : diamondTable.WellFormed :=
    { members := by simp [diamondTable, SymbolTable.classes, Record.asClass?]
      typed := by decide
      bases := by simp [diamondTable, Record.types] }
  obtain ⟨g, hg⟩ := succeeds_generate hwf (show diamondConfig.validate = .ok () by cbv)
  obtain ⟨hperm, -, hdone, -⟩ := classes_topological hkeys hacyclic hg
  have horder : (runOrder diamondTable diamondConfig).map ClassRecord.qualifiedName =
      ["A", "B", "C", "D"] := by cbv
  exact ⟨hkeys, hacyclic, g, hg, (map_target_classes hg).trans horder, hperm, hdone⟩

end GenerationOutput

end LoadBridge
