import LoadBridge.Proofs.Bridge.Totality

/-!
# Bridge — What is loaded is loadable by name

A class is checked under its name and loaded under its identifier.  A name finds the first class
that has it, so where several classes have one name, the class that was checked need not be the one
that is loaded.  What a loaded class can count on is that no loaded class has a name on the ditch
list, and that under its name stands a class that is whole: itself, where it was asked for, where no
parents are loaded, or where names tell classes apart (`loadSet_whole`).  A declaration behind a
definition of the same name is loaded as a parent though it is incomplete
(`loadSet_whole_not_by_identifier`).
-/

namespace LoadBridge

/-- A class that is complete and no bare template. -/
def ClassRecord.IsWhole (c : ClassRecord) : Prop := c.isIncomplete = false ∧ c.isTemplate = false

namespace SymbolTable

variable {t : SymbolTable} {c d : ClassRecord} {name : String}

/-- A class that some name finds is found under its own. -/
theorem classNamed?_self_of_found (h : t.classNamed? name = some c) :
    t.classNamed? c.qualifiedName = some c := by
  rw [classNamed?_congr (of_classNamed? h).2, h]

/-- Where names tell classes apart, a name finds no class but the one that has it. -/
theorem KeysDistinct.eq_of_classNamed? (hkeys : t.KeysDistinct) (hc : c ∈ t.classes)
    (h : t.classNamed? c.qualifiedName = some d) : d = c := by
  obtain ⟨hd, hkey⟩ := of_classNamed? h
  exact hkeys.eq hd hc hkey

end SymbolTable

namespace Context

variable {ctx : Context} {c : ClassRecord}

theorem IsRequested.found (h : ctx.IsRequested c) :
    ctx.table.classNamed? c.qualifiedName = some c := by
  obtain ⟨_, -, -, hfound⟩ := h
  exact SymbolTable.classNamed?_self_of_found hfound

/-- **What is loaded is loadable by name.**  No class of the load set has a name on the ditch list,
and its name finds a class that is complete and no bare template.  The class is this one unless it
was not asked for, was loaded as a parent, and shares its name with another class. -/
theorem loadSet_whole (hc : c ∈ ctx.loadSet) :
    ctx.isDitched c.qualifiedName = false ∧
      ∃ named, ctx.table.classNamed? c.qualifiedName = some named ∧ named.IsWhole ∧
        (named = c ∨
          ctx.config.load.parentClasses = true ∧ ¬ ctx.IsRequested c ∧ ¬ ctx.table.KeysDistinct) := by
  obtain ⟨hditched, named, hnamed, hcomplete, hconcrete⟩ :=
    checkClass_eq_accepted_iff.1 (accepted_of_mem_loadSet hc)
  refine ⟨hditched, named, hnamed, ⟨hcomplete, hconcrete⟩, or_iff_not_imp_left.2 fun hne => ?_⟩
  have hunasked : ¬ ctx.IsRequested c := fun h => hne (Option.some.inj (hnamed.symm.trans h.found))
  refine ⟨?_, hunasked, fun hkeys => hne (hkeys.eq_of_classNamed? (mem_loadSet.1 hc).1 hnamed)⟩
  -- without parents, everything that is loaded was asked for
  cases hparents : ctx.config.load.parentClasses with
  | true => rfl
  | false => exact absurd ((mem_loadSet_iff_isRequested ctx hparents).1 hc) hunasked

/-! ### A declaration behind its definition -/

/-- A class that is only declared, behind its definition. -/
def declaredParent : ClassRecord := { id := ⟨"_2"⟩, name := "P", isIncomplete := true }

/-- A class whose parent is the declaration. -/
def heirOfDeclared : ClassRecord := { id := ⟨"_3"⟩, name := "C", bases := [{ id := ⟨"_2"⟩ }] }

/-- A class defined and declared under one name, and an heir of the declaration. -/
def declaredTable : SymbolTable where
  records :=
    [.ofClass { id := ⟨"_1"⟩, name := "P" }, .ofClass declaredParent, .ofClass heirOfDeclared]
  distinct := by decide

/-- Asks for the heir and its parents. -/
def declaredConfig : Config where
  load := { classes := ["C"], parentClasses := true }

theorem declaredTable_wellFormed : declaredTable.WellFormed where
  members := by simp [declaredTable, declaredParent, heirOfDeclared, SymbolTable.classes,
    Record.asClass?]
  typed := by decide
  bases := by simp [declaredTable, Record.types]

/-- The heir is asked for, and its parent has the name of the definition, which is accepted. -/
theorem declaredParent_mem_loadSet :
    declaredParent ∈ (new declaredTable declaredConfig).loadSet := by
  have hrequested : (new declaredTable declaredConfig).IsRequested heirOfDeclared :=
    isRequested_iff.2 ⟨"C", List.mem_cons_self, by cbv, by cbv⟩
  have hparent : (new declaredTable declaredConfig).IsAcceptedParent heirOfDeclared declaredParent :=
    ⟨{ id := ⟨"_2"⟩ }, by simp [heirOfDeclared], by cbv, by cbv⟩
  exact IsAcceptedParent.mem_loadSet rfl hrequested.mem_loadSet hparent

theorem loadSet_whole_declared :
    declaredParent ∈ (new declaredTable declaredConfig).loadSet ∧
      (new declaredTable declaredConfig).isDitched "P" = false ∧
      ∃ named, declaredTable.classNamed? "P" = some named ∧ named.IsWhole ∧
        named ≠ declaredParent := by
  obtain ⟨hditched, named, hnamed, hwhole, -⟩ := loadSet_whole declaredParent_mem_loadSet
  have hname : declaredParent.qualifiedName = "P" := by cbv
  rw [hname] at hditched hnamed
  refine ⟨declaredParent_mem_loadSet, hditched, named, hnamed, hwhole, ?_⟩
  rintro rfl
  cases hwhole.1

/-- **A run can load a class that is incomplete.** -/
theorem loadSet_whole_not_by_identifier :
    ∃ g, generate declaredTable declaredConfig = .ok g ∧
      ∃ c ∈ (new declaredTable declaredConfig).loadSet, c.isIncomplete = true := by
  obtain ⟨g, hg⟩ := succeeds_generate declaredTable_wellFormed
    (show declaredConfig.validate = .ok () by cbv)
  exact ⟨g, hg, declaredParent, declaredParent_mem_loadSet, rfl⟩

end Context

end LoadBridge
