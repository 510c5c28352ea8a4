import LoadBridge.Proofs.Bridge.Emission

/-!
# Bridge — How often a name is emitted

A run registers a name once and emits a class once, but it tells registered names apart by key and
emitted classes by spelling.  Two classes of its load set that go by one name and are spelled apart
have one entry in the name table and are emitted both.  So every entry is emitted
(`exists_output_of_mem_entries`), and each exactly once just where the classes of the load set that
go by one name are spelled alike (`GenerationOutput.emitted_once`).
-/

namespace LoadBridge

/-- Classes that go by one name are spelled alike. -/
def SpelledAlike (classes : List ClassRecord) : Prop :=
  ∀ c ∈ classes, ∀ d ∈ classes,
    Name.key c.qualifiedName = Name.key d.qualifiedName → c.qualifiedName = d.qualifiedName

namespace Context

variable {table : SymbolTable} {config : Config} {names : GeneratedNames} {q : String}

theorem names_ofRun_eq_some_iff : (ofRun table config).names.get? q = some names ↔
    names ∈ (ofRun table config).names.entries ∧ Name.key names.target.long = Name.key q :=
  NameTable.get?_eq_some_iff ..

/-- The entries of a run are those of its load set. -/
theorem mem_entries_ofRun : names ∈ (ofRun table config).names.entries ↔
    ∃ c ∈ (new table config).loadSet,
      (ofRun table config).names.get? c.qualifiedName = some names := by
  constructor
  · intro h
    obtain ⟨c, hc, hkey, -⟩ := exists_of_names (names_ofRun_eq_some_iff.2 ⟨h, rfl⟩)
    exact ⟨c, hc, names_ofRun_eq_some_iff.2 ⟨h, hkey.symm⟩⟩
  · rintro ⟨c, -, hnames⟩
    exact (names_ofRun_eq_some_iff.1 hnames).1

theorem nodup_entries_ofRun (table : SymbolTable) (config : Config) :
    (ofRun table config).names.entries.Nodup :=
  .of_map _ (NameTable.nodup_entries ..)

/-- **No two classes that are generated go by one name** just where the load set is spelled
alike. -/
theorem nodup_keys_runOrder_iff :
    ((runOrder table config).map fun c => Name.key c.qualifiedName).Nodup ↔
      SpelledAlike (new table config).loadSet := by
  constructor
  · intro hnodup c hc d hd hkey
    obtain ⟨c', hc', hcname⟩ := exists_mem_runOrder hc
    obtain ⟨d', hd', hdname⟩ := exists_mem_runOrder hd
    have hsame : c' = d' :=
      List.inj_on_of_nodup_map hnodup hc' hd' (by rw [hcname, hdname, hkey])
    rw [← hcname, ← hdname, hsame]
  · intro halike
    have hnames := nodup_runOrder table config
    refine (List.Nodup.of_map _ hnames).map_on fun c hc d hd hkey => ?_
    exact List.inj_on_of_nodup_map hnames hc hd
      (halike c (mem_loadSet_of_mem_runOrder hc) d (mem_loadSet_of_mem_runOrder hd) hkey)

end Context

namespace GenerationOutput

open Context

variable {table : SymbolTable} {config : Config} {g : GenerationOutput} {names : GeneratedNames}
  {output : ClassOutput}

/-- What is emitted has an entry. -/
theorem names_mem_entries (h : generate table config = .ok g) (houtput : output ∈ g.classes) :
    output.names ∈ (ofRun table config).names.entries := by
  obtain ⟨c, -, hgenerates⟩ := exists_plan_of_mem_classes h houtput
  exact (names_ofRun_eq_some_iff.1 hgenerates.names).1

/-- Every entry is emitted. -/
theorem exists_output_of_mem_entries (h : generate table config = .ok g)
    (hnames : names ∈ (ofRun table config).names.entries) :
    ∃ output ∈ g.classes, output.names = names := by
  obtain ⟨c, hc, hnames⟩ := mem_entries_ofRun.1 hnames
  obtain ⟨d, hd, hname⟩ := exists_mem_runOrder hc
  obtain ⟨output, houtput, hgenerates⟩ := exists_partner (forall₂_classes h) hd
  refine ⟨output, houtput, Option.some.inj (hgenerates.names.symm.trans ?_)⟩
  rw [hname, hnames]

/-- What tells the entries apart tells what is emitted apart. -/
theorem nodup_map_names_iff {α : Type} {f : GeneratedNames → α} (h : generate table config = .ok g)
    (hf : ((ofRun table config).names.entries.map f).Nodup) :
    (g.classes.map fun output => f output.names).Nodup ↔
      (g.classes.map ClassOutput.names).Nodup := by
  have hmap : (g.classes.map fun output => f output.names) =
      (g.classes.map ClassOutput.names).map f := (List.map_map ..).symm
  rw [hmap]
  refine ⟨.of_map _, fun hnodup => hnodup.map_on fun a ha b hb heq => ?_⟩
  obtain ⟨_, houtput, rfl⟩ := List.mem_map.1 ha
  obtain ⟨_, houtput', rfl⟩ := List.mem_map.1 hb
  exact List.inj_on_of_nodup_map hf (names_mem_entries h houtput) (names_mem_entries h houtput') heq

/-- An entry is emitted once just where the classes of the load set that go by one name are spelled
alike. -/
theorem nodup_names_iff (h : generate table config = .ok g) :
    (g.classes.map ClassOutput.names).Nodup ↔ SpelledAlike (new table config).loadSet := by
  have hkeys : (g.classes.map fun output => Name.key output.names.target.long) =
      (runOrder table config).map fun c => Name.key c.qualifiedName :=
    map_eq_map_of_pairing (forall₂_classes h) fun _ _ hgenerates =>
      (names_ofRun_eq_some_iff.1 hgenerates.names).2
  rw [← nodup_keys_runOrder_iff, ← hkeys]
  exact (nodup_map_names_iff h (NameTable.nodup_entries ..)).symm

/-- **Every entry is emitted, and exactly once where the load set is spelled alike.**  Where the
entries of the name table have distinct Interfaces and distinct Delegates, the classes of a run have
distinct Interfaces, and distinct Delegates, just where those of the load set that go by one name
are spelled alike. -/
theorem emitted_once (h : generate table config = .ok g)
    (hinterfaces : ((ofRun table config).names.entries.map (·.interface.long)).Nodup)
    (hdelegates : ((ofRun table config).names.entries.map (·.delegate.long)).Nodup) :
    (∀ names, names ∈ (ofRun table config).names.entries ↔
      ∃ output ∈ g.classes, output.names = names) ∧
    ((g.classes.map ClassOutput.names).Perm (ofRun table config).names.entries ↔
      SpelledAlike (new table config).loadSet) ∧
    ((g.classes.map (·.names.interface.long)).Nodup ↔ SpelledAlike (new table config).loadSet) ∧
    ((g.classes.map (·.names.delegate.long)).Nodup ↔ SpelledAlike (new table config).loadSet) := by
  have hmem (names : GeneratedNames) : names ∈ (ofRun table config).names.entries ↔
      ∃ output ∈ g.classes, output.names = names := by
    refine ⟨exists_output_of_mem_entries h, ?_⟩
    rintro ⟨output, houtput, rfl⟩
    exact names_mem_entries h houtput
  have hentries := nodup_entries_ofRun table config
  refine ⟨hmem, ?_, ?_, ?_⟩
  · rw [← nodup_names_iff h]
    refine ⟨fun hperm => hperm.nodup_iff.2 hentries, fun hnodup => ?_⟩
    refine (List.perm_ext_iff_of_nodup hnodup hentries).2 fun names => ?_
    rw [hmem, List.mem_map]
  · rw [← nodup_names_iff h]
    exact nodup_map_names_iff h hinterfaces
  · rw [← nodup_names_iff h]
    exact nodup_map_names_iff h hdelegates

/-! ### Parents of one name -/

/-- A class over two parents that go by one name, the second one spelled `spelling`. -/
def pairTable (spelling : String) : SymbolTable where
  records :=
    [.ofClass { id := ⟨"_1"⟩, name := "Pair<int,int>" },
      .ofClass { id := ⟨"_2"⟩, name := spelling },
      .ofClass { id := ⟨"_3"⟩, name := "C", bases := [{ id := ⟨"_1"⟩ }, { id := ⟨"_2"⟩ }] }]
  distinct := by simp [Record.id]

/-- Asks for the class and its parents. -/
def pairConfig : Config where
  load := { classes := ["C"], parentClasses := true }

theorem pairTable_wellFormed (spelling : String) : (pairTable spelling).WellFormed where
  members := by simp [pairTable, SymbolTable.classes, Record.asClass?]
  typed := by simp [pairTable, Record.isTyped]
  bases := by simp [pairTable, Record.types]

/-- Either way the parents have one entry. -/
theorem companions_pairTable {spelling : String}
    (h : spelling = "Pair<int,int>" ∨ spelling = "Pair<int, int>") :
    ((ofRun (pairTable spelling) pairConfig).names.entries.map (·.interface.long)).Nodup ∧
      ((ofRun (pairTable spelling) pairConfig).names.entries.map (·.delegate.long)).Nodup := by
  have hentries : (ofRun (pairTable spelling) pairConfig).names.entries.map
      (fun names => (names.interface.long, names.delegate.long)) =
      [("Abstract_C", "Wrapper_C"), ("Abstract_Pair<int,int>", "Wrapper_Pair<int,int>")] := by
    rcases h with rfl | rfl <;> cbv
  have hinterfaces := congrArg (List.map Prod.fst) hentries
  have hdelegates := congrArg (List.map Prod.snd) hentries
  rw [List.map_map] at hinterfaces hdelegates
  exact ⟨hinterfaces ▸ (by decide : ["Abstract_C", "Abstract_Pair<int,int>"].Nodup),
    hdelegates ▸ (by decide : ["Wrapper_C", "Wrapper_Pair<int,int>"].Nodup)⟩

theorem loadSet_pairTable {spelling : String}
    (h : spelling = "Pair<int,int>" ∨ spelling = "Pair<int, int>") :
    (new (pairTable spelling) pairConfig).loadSet.map ClassRecord.qualifiedName =
      ["C", "Pair<int,int>", spelling] := by
  rcases h with rfl | rfl <;> cbv

theorem emitted_once_twins : ∃ g, generate (pairTable "Pair<int,int>") pairConfig = .ok g ∧
    (new (pairTable "Pair<int,int>") pairConfig).loadSet.length = 3 ∧
    (g.classes.map ClassOutput.names).Perm
      (ofRun (pairTable "Pair<int,int>") pairConfig).names.entries ∧
    (g.classes.map (·.names.interface.long)).Nodup ∧
    (g.classes.map (·.names.delegate.long)).Nodup := by
  obtain ⟨g, hg⟩ := succeeds_generate (pairTable_wellFormed "Pair<int,int>")
    (show pairConfig.validate = .ok () by cbv)
  have hload := loadSet_pairTable (.inl rfl)
  obtain ⟨hinterfaces, hdelegates⟩ := companions_pairTable (.inl rfl)
  have halike : SpelledAlike (new (pairTable "Pair<int,int>") pairConfig).loadSet := by
    have hkeys : ∀ a ∈ ["C", "Pair<int,int>", "Pair<int,int>"],
        ∀ b ∈ ["C", "Pair<int,int>", "Pair<int,int>"], Name.key a = Name.key b → a = b := by
      decide +kernel
    rw [← hload] at hkeys
    exact fun c hc d hd => hkeys _ (List.mem_map_of_mem hc) _ (List.mem_map_of_mem hd)
  obtain ⟨-, hperm, hinterfaces, hdelegates⟩ := emitted_once hg hinterfaces hdelegates
  refine ⟨g, hg, ?_, hperm.2 halike, hinterfaces.2 halike, hdelegates.2 halike⟩
  simpa using congrArg List.length hload

/-- **A run can emit one entry twice**, for parents that are spelled apart. -/
theorem emitted_twice : ∃ g, generate (pairTable "Pair<int, int>") pairConfig = .ok g ∧
    ((ofRun (pairTable "Pair<int, int>") pairConfig).names.entries.map (·.interface.long)).Nodup ∧
    ((ofRun (pairTable "Pair<int, int>") pairConfig).names.entries.map (·.delegate.long)).Nodup ∧
    ¬ (g.classes.map (·.names.interface.long)).Nodup ∧
    ¬ (g.classes.map (·.names.delegate.long)).Nodup := by
  obtain ⟨g, hg⟩ := succeeds_generate (pairTable_wellFormed "Pair<int, int>")
    (show pairConfig.validate = .ok () by cbv)
  have hload := loadSet_pairTable (.inr rfl)
  obtain ⟨hinterfaces, hdelegates⟩ := companions_pairTable (.inr rfl)
  have hapart : ¬ SpelledAlike (new (pairTable "Pair<int, int>") pairConfig).loadSet := by
    intro halike
    obtain ⟨c, hc, hcname⟩ : ∃ c ∈ (new (pairTable "Pair<int, int>") pairConfig).loadSet,
        c.qualifiedName = "Pair<int,int>" := List.mem_map.1 (hload ▸ by decide)
    obtain ⟨d, hd, hdname⟩ : ∃ d ∈ (new (pairTable "Pair<int, int>") pairConfig).loadSet,
        d.qualifiedName = "Pair<int, int>" := List.mem_map.1 (hload ▸ by decide)
    have hsame := halike c hc d hd
    rw [hcname, hdname] at hsame
    exact absurd (hsame (by decide +kernel)) (by decide)
  refine ⟨g, hg, hinterfaces, hdelegates, ?_, ?_⟩
  · rwa [nodup_map_names_iff hg hinterfaces, nodup_names_iff hg]
  · rwa [nodup_map_names_iff hg hdelegates, nodup_names_iff hg]

end GenerationOutput

end LoadBridge
