import LoadBridge.Proofs.Bridge.LoadSet
import LoadBridge.Proofs.Bridge.Run

/-!
# Bridge — Which names a run registers

A run registers the names of its load set and no others.  So a name has generated names when it is
the name of a class of the load set (`exists_of_names`, `exists_names`), and where no two classes
have one name, the class is told by it (`names_eq_some_iff`).
-/

namespace LoadBridge

/-- The class as a target of generated names. -/
def ClassRecord.target (c : ClassRecord) : QualifiedName := ⟨c.scope, c.name⟩

/-- The generated names of the companions of a class. -/
def ClassRecord.companions (c : ClassRecord) (config : Config) : GeneratedNames :=
  .derive config.affixes c.target

namespace Context

variable {table : SymbolTable} {config : Config} {q : String} {names : GeneratedNames}
  {c : ClassRecord}

/-- **The names of a run are those of its load set**, the first class of a name first. -/
theorem names_ofRun (table : SymbolTable) (config : Config) (q : String) :
    (ofRun table config).names.get? q =
      ((new table config).loadSet.find? fun c => Name.key c.qualifiedName == Name.key q).map
        fun c => c.companions config := by
  have hregister : (ofRun table config).names = (new table config).names.registerAll
      ((new table config).loadSet.map ClassRecord.target) := rfl
  rw [hregister, NameTable.get?_registerAll, List.find?_map, Option.map_map]
  rfl

theorem affixes_ofRun (table : SymbolTable) (config : Config) :
    (ofRun table config).affixes = config.affixes :=
  NameTable.registerAll_affixes _ _

theorem outer_ofRun (table : SymbolTable) (config : Config) :
    (ofRun table config).names.outer = Name.splitScope config.output.backendNamespace :=
  NameTable.registerAll_outer _ _

theorem exists_of_names (h : (ofRun table config).names.get? q = some names) :
    ∃ c ∈ (new table config).loadSet, Name.key c.qualifiedName = Name.key q ∧
      names = c.companions config := by
  rw [names_ofRun] at h
  obtain ⟨c, hfound, hc⟩ := Option.map_eq_some_iff.1 h
  have hkey := List.find?_some hfound
  exact ⟨c, List.mem_of_find?_eq_some hfound, eq_of_beq hkey, hc.symm⟩

theorem exists_names (hc : c ∈ (new table config).loadSet) :
    ∃ names, (ofRun table config).names.get? c.qualifiedName = some names := by
  rw [names_ofRun]
  refine Option.isSome_iff_exists.1 ?_
  rw [Option.isSome_map, List.find?_isSome]
  exact ⟨c, hc, beq_self_eq_true _⟩

/-- Where no two classes have one name, a class has generated names when it is in the load set. -/
theorem names_eq_some_iff (hkeys : table.KeysDistinct) (hc : c ∈ table.classes) :
    (ofRun table config).names.get? c.qualifiedName = some names ↔
      c ∈ (new table config).loadSet ∧ names = c.companions config := by
  have hunique : ∀ {names}, (ofRun table config).names.get? c.qualifiedName = some names →
      c ∈ (new table config).loadSet ∧ names = c.companions config := by
    intro names h
    obtain ⟨d, hd, hkey, rfl⟩ := exists_of_names h
    obtain rfl := hkeys.eq (mem_loadSet.1 hd).1 hc hkey
    exact ⟨hd, rfl⟩
  refine ⟨hunique, ?_⟩
  rintro ⟨hload, rfl⟩
  obtain ⟨found, hfound⟩ := exists_names hload
  rw [hfound, (hunique hfound).2]

theorem isLoadedClass_iff (hkeys : table.KeysDistinct) (hc : c ∈ table.classes) :
    (ofRun table config).isLoadedClass c = true ↔ c ∈ (new table config).loadSet := by
  rw [isLoadedClass, NameTable.isLoaded, Option.isSome_iff_exists]
  constructor
  · rintro ⟨names, hnames⟩
    exact ((names_eq_some_iff hkeys hc).1 hnames).1
  · exact exists_names

end Context

end LoadBridge
