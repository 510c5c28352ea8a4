import LoadBridge.Proofs.Bridge.Registration

/-!
# Bridge — The order of a run

The order of emission holds the classes it is given, each once (`mem_emissionOrder`,
`map_id_emissionOrder`), and where no class is its own ancestor, no class in it comes before one of
its parents (`pairwise_emissionOrder`).  A run generates its load set in this order.  It skips a
class that has the name of an earlier one (`exists_mem_runOrder`); where names tell classes apart,
it skips none (`perm_runOrder`), and the parents of all that has been generated have been generated
before (`mem_before_of_parent`).
-/

namespace LoadBridge

namespace Context

variable {ctx : Context} {table : SymbolTable} {config : Config} {ids : List RecordId}
  {c : ClassRecord}

/-! ### The order of emission -/

theorem emissionOrder_eq (ctx : Context) (ids : List RecordId) :
    ctx.emissionOrder ids =
      (Graph.unwind ctx.table.basesOf ids ids).filterMap ctx.table.class? := by
  rw [emissionOrder, Graph.postorder_map_enter]

theorem mem_emissionOrder : c ∈ ctx.emissionOrder ids ↔ c ∈ ctx.table.classes ∧ c.id ∈ ids := by
  rw [emissionOrder_eq, List.mem_filterMap]
  constructor
  · rintro ⟨id, hid, hc⟩
    obtain ⟨hmem, rfl⟩ := SymbolTable.class?_eq_some_iff.1 hc
    exact ⟨hmem, Graph.mem_fresh_of_mem_unwind hid⟩
  · rintro ⟨hmem, hid⟩
    exact ⟨c.id, Graph.mem_unwind_of_mem hid hid, SymbolTable.class?_id hmem⟩

theorem map_id_emissionOrder (hids : ∀ id ∈ ids, id ∈ ctx.table.classes.map ClassRecord.id) :
    (ctx.emissionOrder ids).map ClassRecord.id = Graph.unwind ctx.table.basesOf ids ids := by
  rw [emissionOrder_eq]
  exact SymbolTable.map_id_filterMap_class? fun id hid =>
    hids id (Graph.mem_fresh_of_mem_unwind hid)

/-- **No class comes before one of its parents**, where no class is its own ancestor. -/
theorem pairwise_emissionOrder (hacyclic : ctx.table.BasesAcyclic)
    (hids : ∀ id ∈ ids, id ∈ ctx.table.classes.map ClassRecord.id) :
    (ctx.emissionOrder ids).Pairwise fun a b => b.id ∉ a.baseIds := by
  have hwalk := Graph.pairwise_unwind hacyclic ids ids
  rw [← map_id_emissionOrder hids, List.pairwise_map] at hwalk
  refine hwalk.imp_of_mem fun ha _ h => ?_
  rwa [SymbolTable.basesOf_id (mem_emissionOrder.1 ha).1] at h

/-! ### The order of a run -/

theorem mem_loadIds_classes : ∀ id ∈ (new table config).loadSet.map ClassRecord.id,
    id ∈ table.classes.map ClassRecord.id := by
  intro id hid
  obtain ⟨c, hc, rfl⟩ := List.mem_map.1 hid
  exact List.mem_map_of_mem (mem_loadSet.1 hc).1

theorem mem_loadSet_of_mem_emissionOrder
    (h : c ∈ (ofRun table config).emissionOrder ((new table config).loadSet.map ClassRecord.id)) :
    c ∈ (new table config).loadSet := by
  obtain ⟨hc, hid⟩ := mem_emissionOrder.1 h
  obtain ⟨d, hd, heq⟩ := List.mem_map.1 hid
  exact SymbolTable.eq_of_id_eq (mem_loadSet.1 hd).1 hc heq ▸ hd

theorem mem_loadSet_of_mem_runOrder (h : c ∈ runOrder table config) :
    c ∈ (new table config).loadSet :=
  mem_loadSet_of_mem_emissionOrder (mem_of_mem_eraseDupsBy h)

theorem mem_classes_of_mem_runOrder (h : c ∈ runOrder table config) : c ∈ table.classes :=
  (mem_loadSet.1 (mem_loadSet_of_mem_runOrder h)).1

/-- A class of the load set is generated, or has the name of one that is. -/
theorem exists_mem_runOrder (hc : c ∈ (new table config).loadSet) :
    ∃ d ∈ runOrder table config, d.qualifiedName = c.qualifiedName := by
  have horder : c ∈ (ofRun table config).emissionOrder
      ((new table config).loadSet.map ClassRecord.id) :=
    mem_emissionOrder.2 ⟨(mem_loadSet.1 hc).1, List.mem_map_of_mem hc⟩
  obtain ⟨d, hd, hname⟩ := exists_mem_eraseDupsBy
    (r := fun a b => a.qualifiedName == b.qualifiedName) (fun _ => beq_self_eq_true _) horder
  exact ⟨d, hd, (eq_of_beq hname).symm⟩

/-- No two classes of one name are generated. -/
theorem nodup_runOrder (table : SymbolTable) (config : Config) :
    ((runOrder table config).map ClassRecord.qualifiedName).Nodup := by
  refine List.pairwise_map.2 ((pairwise_eraseDupsBy _).imp fun h heq => ?_)
  exact ne_of_beq_false h heq.symm

/-- Where names tell classes apart, a run generates all of its load set. -/
theorem runOrder_eq (hkeys : table.KeysDistinct) (config : Config) : runOrder table config =
    (ofRun table config).emissionOrder ((new table config).loadSet.map ClassRecord.id) := by
  have hids : ((ofRun table config).emissionOrder
      ((new table config).loadSet.map ClassRecord.id)).Nodup :=
    .of_map ClassRecord.id (map_id_emissionOrder mem_loadIds_classes ▸ Graph.nodup_unwind _ _)
  refine eraseDupsBy_eq_self (hids.imp_of_mem fun ha hb hne => beq_false_of_ne fun hname => ?_)
  exact hne (hkeys.eq (mem_emissionOrder.1 ha).1 (mem_emissionOrder.1 hb).1
    (congrArg Name.key hname.symm))

theorem mem_runOrder (hkeys : table.KeysDistinct) :
    c ∈ runOrder table config ↔ c ∈ (new table config).loadSet := by
  refine ⟨mem_loadSet_of_mem_runOrder, fun hc => ?_⟩
  rw [runOrder_eq hkeys]
  exact mem_emissionOrder.2 ⟨(mem_loadSet.1 hc).1, List.mem_map_of_mem hc⟩

theorem perm_runOrder (hkeys : table.KeysDistinct) :
    (runOrder table config).Perm (new table config).loadSet := by
  have hrun : (runOrder table config).Nodup := .of_map _ (nodup_runOrder table config)
  have hload : (new table config).loadSet.Nodup :=
    .of_map ClassRecord.id (map_id_loadSet (new table config) ▸ Graph.nodup_preorder _ _)
  exact (List.perm_ext_iff_of_nodup hrun hload).2 fun _ => mem_runOrder hkeys

theorem pairwise_runOrder (hkeys : table.KeysDistinct) (hacyclic : table.BasesAcyclic)
    (config : Config) : (runOrder table config).Pairwise fun a b => b.id ∉ a.baseIds := by
  rw [runOrder_eq hkeys]
  exact pairwise_emissionOrder hacyclic mem_loadIds_classes

/-- **The parents of a class, and of all that comes before it, come before it.** -/
theorem mem_before_of_parent {before after : List ClassRecord} {a parent : ClassRecord}
    (hkeys : table.KeysDistinct) (hacyclic : table.BasesAcyclic)
    (horder : runOrder table config = before ++ c :: after) (ha : a ∈ before ++ [c])
    (hparent : parent ∈ (new table config).loadSet) (hbase : parent.id ∈ a.baseIds) :
    parent ∈ before := by
  have hpairwise := pairwise_runOrder hkeys hacyclic config
  have hmem := (mem_runOrder hkeys).2 hparent
  rw [horder] at hpairwise hmem
  obtain ⟨-, hlast, hcross⟩ := List.pairwise_append.1 hpairwise
  rcases List.mem_append.1 hmem with h | h
  · exact h
  · exfalso
    rcases List.mem_append.1 ha with ha | ha
    · exact hcross a ha parent h hbase
    · obtain rfl := List.mem_singleton.1 ha
      rcases List.mem_cons.1 h with rfl | h
      -- a class that is its own parent
      · have hclass : parent ∈ table.classes := (mem_loadSet.1 hparent).1
        exact hacyclic parent.id (.single (SymbolTable.basesOf_id hclass ▸ hbase))
      · exact (List.pairwise_cons.1 hlast).1 parent h hbase

end Context

end LoadBridge
