import Mathlib.Order.Bounds.Basic
import LoadBridge.Bridge.LoadSet
import LoadBridge.Proofs.Bridge.Hierarchy
import LoadBridge.Proofs.Name.Table
import LoadBridge.Proofs.Repetition

/-!
# Bridge — The load set is the reachable set

The verdict on a class depends on the key of its name only (`checkClass_congr`).  So the classes
asked for are the same whatever spelling and order the configuration lists them in
(`isRequested_iff`), and the walk over accepted parents ends in the least set that holds them and is
closed under accepted parents, cyclic or not (`loadSet_reachable`).
-/

namespace LoadBridge

theorem Verdict.isAccepted_iff {v : Verdict} : v.isAccepted = true ↔ v = .accepted := by
  cases v <;> simp [isAccepted]

namespace Context

variable {ctx : Context} {a b : String} {c parent : ClassRecord} {id : RecordId}

/-! ### Verdicts -/

theorem isDitched_congr (h : Name.key a = Name.key b) : ctx.isDitched a = ctx.isDitched b := by
  rw [isDitched, isDitched, Config.isDitched, Config.isDitched, Name.same_congr h]

/-- **The verdict on a class depends on the key of its name only.** -/
theorem checkClass_congr (h : Name.key a = Name.key b) : ctx.checkClass a = ctx.checkClass b := by
  rw [checkClass, checkClass, isDitched_congr h, SymbolTable.classNamed?_congr h]

/-- A name is accepted when it is that of a class that is whole, and not on the ditch list. -/
theorem checkClass_eq_accepted_iff : ctx.checkClass a = .accepted ↔ ctx.isDitched a = false ∧
    ∃ c, ctx.table.classNamed? a = some c ∧ c.isIncomplete = false ∧ c.isTemplate = false := by
  rw [checkClass]
  cases ctx.isDitched a with
  | true => simp
  | false =>
      cases ctx.table.classNamed? a with
      | none => simp
      | some c => cases hincomplete : c.isIncomplete <;> cases htemplate : c.isTemplate <;> simp [*]

theorem mem_acceptedIds : id ∈ ctx.acceptedIds ↔
    ∃ c ∈ ctx.table.classes, ctx.checkClass c.qualifiedName = .accepted ∧ c.id = id := by
  simp [acceptedIds, Verdict.isAccepted_iff, and_assoc]

/-! ### What is asked for -/

/-- A class that is asked for by a name that is accepted. -/
def IsRequested (ctx : Context) (c : ClassRecord) : Prop :=
  ∃ name ∈ ctx.config.requestedClasses,
    ctx.checkClass name = .accepted ∧ ctx.table.classNamed? name = some c

/-- A parent of `c` that is a class whose name is accepted. -/
def IsAcceptedParent (ctx : Context) (c parent : ClassRecord) : Prop :=
  ∃ base ∈ c.bases, ctx.table.lookup base.id = some (.ofClass parent) ∧
    ctx.checkClass parent.qualifiedName = .accepted

/-- The classes asked for are those the configuration lists, whatever repeats others. -/
theorem isRequested_iff : ctx.IsRequested c ↔ ∃ name ∈ ctx.config.load.classes,
    ctx.checkClass name = .accepted ∧ ctx.table.classNamed? name = some c := by
  constructor
  · rintro ⟨name, hname, h⟩
    exact ⟨name, mem_of_mem_eraseDupsBy hname, h⟩
  · rintro ⟨name, hname, haccepted, hfound⟩
    have hrefl : ∀ a, Name.same a a = true := fun _ => Name.same_iff.2 rfl
    obtain ⟨other, hother, hsame⟩ := exists_mem_eraseDupsBy hrefl hname
    have hkey := Name.same_iff.1 hsame
    refine ⟨other, hother, ?_, ?_⟩
    · rw [← checkClass_congr hkey, haccepted]
    · rw [← SymbolTable.classNamed?_congr hkey, hfound]

theorem IsRequested.mem_classes (h : ctx.IsRequested c) : c ∈ ctx.table.classes := by
  obtain ⟨name, -, -, hfound⟩ := h
  exact (SymbolTable.of_classNamed? hfound).1

theorem IsRequested.accepted (h : ctx.IsRequested c) :
    ctx.checkClass c.qualifiedName = .accepted := by
  obtain ⟨name, -, haccepted, hfound⟩ := h
  rw [checkClass_congr (SymbolTable.of_classNamed? hfound).2, haccepted]

theorem mem_requestedIds : id ∈ ctx.requestedIds ↔ ∃ c, ctx.IsRequested c ∧ c.id = id := by
  rw [requestedIds, List.mem_filterMap]
  constructor
  · rintro ⟨name, hname, hid⟩
    split at hid
    · next haccepted =>
      obtain ⟨c, hfound, hc⟩ := Option.map_eq_some_iff.1 hid
      exact ⟨c, ⟨name, hname, Verdict.isAccepted_iff.1 haccepted, hfound⟩, hc⟩
    · cases hid
  · rintro ⟨c, ⟨name, hname, haccepted, hfound⟩, rfl⟩
    exact ⟨name, hname, by rw [haccepted, hfound]; rfl⟩

/-! ### The walk -/

theorem mem_acceptedIds_of_mem_loadSetIds (h : id ∈ ctx.loadSetIds) : id ∈ ctx.acceptedIds :=
  Graph.mem_fresh_of_mem_preorder h

/-- Without their parents, classes are loaded in the order in which they are asked for. -/
theorem loadSetIds_eq_requestedIds (h : ctx.config.load.parentClasses = false)
    (hnodup : ctx.requestedIds.Nodup) : ctx.loadSetIds = ctx.requestedIds := by
  refine Graph.preorder_eq_self (fun id _ => ?_) hnodup fun id hid => ?_
  · simp [discovered, h]
  · obtain ⟨c, hrequested, rfl⟩ := mem_requestedIds.1 hid
    exact mem_acceptedIds.2 ⟨c, hrequested.mem_classes, hrequested.accepted, rfl⟩

theorem map_id_loadSet (ctx : Context) : ctx.loadSet.map ClassRecord.id = ctx.loadSetIds := by
  refine SymbolTable.map_id_filterMap_class? fun id hid => ?_
  obtain ⟨c, hc, -, rfl⟩ := mem_acceptedIds.1 (mem_acceptedIds_of_mem_loadSetIds hid)
  exact List.mem_map_of_mem hc

theorem mem_loadSet : c ∈ ctx.loadSet ↔ c ∈ ctx.table.classes ∧ c.id ∈ ctx.loadSetIds := by
  rw [loadSet, List.mem_filterMap]
  constructor
  · rintro ⟨id, hid, hc⟩
    obtain ⟨hmem, rfl⟩ := SymbolTable.class?_eq_some_iff.1 hc
    exact ⟨hmem, hid⟩
  · rintro ⟨hmem, hid⟩
    exact ⟨c.id, hid, SymbolTable.class?_id hmem⟩

/-- Every class of the load set is accepted. -/
theorem accepted_of_mem_loadSet (h : c ∈ ctx.loadSet) :
    ctx.checkClass c.qualifiedName = .accepted := by
  obtain ⟨hc, hid⟩ := mem_loadSet.1 h
  obtain ⟨d, hd, haccepted, heq⟩ := mem_acceptedIds.1 (mem_acceptedIds_of_mem_loadSetIds hid)
  rw [← SymbolTable.eq_of_id_eq hd hc heq, haccepted]

theorem IsRequested.mem_loadSet (h : ctx.IsRequested c) : c ∈ ctx.loadSet :=
  Context.mem_loadSet.2 ⟨h.mem_classes, Graph.mem_preorder_of_mem (mem_requestedIds.2 ⟨c, h, rfl⟩)
    (mem_acceptedIds.2 ⟨c, h.mem_classes, h.accepted, rfl⟩)⟩

/-- Where parents are loaded, too, the load set holds the accepted parents of its classes. -/
theorem IsAcceptedParent.mem_loadSet (hparents : ctx.config.load.parentClasses = true)
    (hc : c ∈ ctx.loadSet) (h : ctx.IsAcceptedParent c parent) : parent ∈ ctx.loadSet := by
  obtain ⟨base, hbase, hfound, haccepted⟩ := h
  obtain ⟨hparent, hid⟩ :=
    SymbolTable.class?_eq_some_iff.1 (SymbolTable.class?_eq_some_iff_lookup.2 hfound)
  obtain ⟨hclass, hmem⟩ := Context.mem_loadSet.1 hc
  have hnext : parent.id ∈ ctx.discovered c.id := by
    rw [discovered, if_pos hparents, SymbolTable.basesOf_id hclass]
    exact ClassRecord.mem_baseIds.2 ⟨base, hbase, hid.symm⟩
  exact Context.mem_loadSet.2 ⟨hparent, Graph.mem_preorder_of_next hmem hnext
    (mem_acceptedIds.2 ⟨parent, hparent, haccepted, rfl⟩)⟩

/-- **The load set holds no more than what is asked for and, where parents are loaded, too, what
accepted parents lead to.** -/
theorem loadSet_subset_of_closed {P : ClassRecord → Prop}
    (hrequested : ∀ c, ctx.IsRequested c → P c)
    (hparent : ctx.config.load.parentClasses = true →
      ∀ c, P c → ∀ parent, ctx.IsAcceptedParent c parent → P parent) :
    ∀ c ∈ ctx.loadSet, P c := by
  have hwalk : ∀ id ∈ ctx.loadSetIds, ∃ c ∈ ctx.table.classes, c.id = id ∧ P c := by
    refine Graph.preorder_subset_of_closed (fun id hid _ => ?_) fun id hP next hnext haccepted => ?_
    · obtain ⟨c, hc, rfl⟩ := mem_requestedIds.1 hid
      exact ⟨c, hc.mem_classes, rfl, hrequested c hc⟩
    · obtain ⟨c, hc, rfl, hPc⟩ := hP
      obtain ⟨parent, hmem, hverdict, rfl⟩ := mem_acceptedIds.1 haccepted
      rw [discovered] at hnext
      split at hnext
      · next hparents =>
        rw [SymbolTable.basesOf_id hc] at hnext
        obtain ⟨base, hbase, hid⟩ := ClassRecord.mem_baseIds.1 hnext
        have hfound : ctx.table.lookup base.id = some (.ofClass parent) :=
          SymbolTable.class?_eq_some_iff_lookup.1 (hid ▸ SymbolTable.class?_id hmem)
        exact ⟨parent, hmem, rfl, hparent hparents c hPc parent ⟨base, hbase, hfound, hverdict⟩⟩
      · cases hnext
  intro c hc
  obtain ⟨hclass, hid⟩ := mem_loadSet.1 hc
  obtain ⟨d, hd, heq, hPd⟩ := hwalk c.id hid
  exact SymbolTable.eq_of_id_eq hd hclass heq ▸ hPd

/-! ### The load set -/

/-- The sets of classes that hold what is asked for and are closed under accepted parents. -/
def LoadClosed (ctx : Context) : Set (Set ClassRecord) :=
  {classes | (∀ c, ctx.IsRequested c → c ∈ classes) ∧
    ∀ c ∈ classes, ∀ parent, ctx.IsAcceptedParent c parent → parent ∈ classes}

/-- The context with other classes asked for. -/
def requesting (ctx : Context) (classes : List String) : Context :=
  { ctx with config := { ctx.config with load := { ctx.config.load with classes } } }

theorem mem_loadSet_iff_isRequested (ctx : Context)
    (hparents : ctx.config.load.parentClasses = false) : c ∈ ctx.loadSet ↔ ctx.IsRequested c :=
  ⟨loadSet_subset_of_closed (fun _ h => h) (fun h => by simp [hparents] at h) c,
    IsRequested.mem_loadSet⟩

theorem loadSet_isLeast (ctx : Context) (hparents : ctx.config.load.parentClasses = true) :
    IsLeast ctx.LoadClosed {c | c ∈ ctx.loadSet} :=
  ⟨⟨fun _ => IsRequested.mem_loadSet, fun _ hc _ => IsAcceptedParent.mem_loadSet hparents hc⟩,
    fun _ h => loadSet_subset_of_closed h.1 fun _ => h.2⟩

theorem isRequested_requesting {classes : List String}
    (h : ∀ name, name ∈ classes ↔ name ∈ ctx.config.load.classes) :
    (ctx.requesting classes).IsRequested c ↔ ctx.IsRequested c := by
  rw [isRequested_iff, isRequested_iff]
  exact exists_congr fun name => and_congr_left fun _ => h name

/-- **The load set is the reachable set.**  It names every class once.  Without parents it holds the
classes asked for; with them it is the least set that holds these and is closed under accepted
parents.  Neither the order nor the repetition of the names asked for matters. -/
theorem loadSet_reachable (ctx : Context) :
    (ctx.loadSet.map ClassRecord.id).Nodup ∧
    (ctx.config.load.parentClasses = false → ∀ c, c ∈ ctx.loadSet ↔ ctx.IsRequested c) ∧
    (ctx.config.load.parentClasses = true → IsLeast ctx.LoadClosed {c | c ∈ ctx.loadSet}) ∧
    ∀ classes, (∀ name, name ∈ classes ↔ name ∈ ctx.config.load.classes) →
      ∀ c, c ∈ (ctx.requesting classes).loadSet ↔ c ∈ ctx.loadSet := by
  refine ⟨map_id_loadSet ctx ▸ Graph.nodup_preorder _ _,
    fun hparents c => mem_loadSet_iff_isRequested ctx hparents, loadSet_isLeast ctx,
    fun classes hclasses c => ?_⟩
  cases hparents : ctx.config.load.parentClasses with
  | false =>
      rw [mem_loadSet_iff_isRequested (ctx.requesting classes) hparents,
        mem_loadSet_iff_isRequested ctx hparents]
      exact isRequested_requesting hclasses
  | true =>
      -- both are the least set of one family
      have hfamily : (ctx.requesting classes).LoadClosed = ctx.LoadClosed := by
        ext S
        refine and_congr_left fun _ => forall_congr' fun c => ?_
        rw [isRequested_requesting hclasses]
      have hleast := loadSet_isLeast (ctx.requesting classes) hparents
      rw [hfamily] at hleast
      exact Set.ext_iff.1 (hleast.unique (loadSet_isLeast ctx hparents)) c

/-- Two classes that are each other's parent, one of them with a parent that is incomplete, which
hides a complete one, and with a parent that is no record. -/
def cycleTable : SymbolTable where
  records :=
    [.ofClass { id := ⟨"_1"⟩, name := "S", bases := [{ id := ⟨"_2"⟩ }] },
      .ofClass { id := ⟨"_2"⟩, name := "N",
                 bases := [{ id := ⟨"_1"⟩ }, { id := ⟨"_3"⟩ }, { id := ⟨"_9"⟩ }] },
      .ofClass { id := ⟨"_3"⟩, name := "O", isIncomplete := true, bases := [{ id := ⟨"_4"⟩ }] },
      .ofClass { id := ⟨"_4"⟩, name := "H" }]
  distinct := by decide

/-- Asks for one of the two by several spellings, and for the incomplete one. -/
def cycleContext (parentClasses : Bool) : Context :=
  .new cycleTable { load := { classes := ["N", "O", "::N", "N"], parentClasses } }

theorem loadSet_reachable_cycle :
    (∀ c, c ∈ (cycleContext false).loadSet ↔ (cycleContext false).IsRequested c) ∧
      IsLeast (cycleContext true).LoadClosed {c | c ∈ (cycleContext true).loadSet} ∧
      (cycleContext true).loadSetIds = [⟨"_2"⟩, ⟨"_1"⟩] ∧
      ∀ c, c ∈ ((cycleContext true).requesting ["::N", "O", "N"]).loadSet ↔
        c ∈ (cycleContext true).loadSet := by
  obtain ⟨-, hlone, -, -⟩ := loadSet_reachable (cycleContext false)
  obtain ⟨-, -, hleast, horder⟩ := loadSet_reachable (cycleContext true)
  have haccepted : (cycleContext true).acceptedIds = [⟨"_1"⟩, ⟨"_2"⟩, ⟨"_4"⟩] := by cbv
  have hnames : (cycleContext true).config.requestedClasses = ["N", "O"] := by cbv
  have hnode : (cycleContext true).checkClass "N" = .accepted := by cbv
  have hopaque : (cycleContext true).checkClass "O" = .rejected .incomplete := by cbv
  have hfound : ((cycleContext true).table.classNamed? "N").map ClassRecord.id = some ⟨"_2"⟩ := by
    cbv
  have hrequested : (cycleContext true).requestedIds = [⟨"_2"⟩] := by
    simp [requestedIds, hnames, hnode, hopaque, hfound, Verdict.isAccepted]
  have hparents : (cycleContext true).discovered ⟨"_2"⟩ = [⟨"_1"⟩, ⟨"_3"⟩, ⟨"_9"⟩] := by cbv
  have hback : (cycleContext true).discovered ⟨"_1"⟩ = [⟨"_2"⟩] := by cbv
  have hsame : ∀ name, name ∈ ["::N", "O", "N"] ↔
      name ∈ (cycleContext true).config.load.classes := fun name => by
    simp only [cycleContext, new, List.mem_cons, List.not_mem_nil]
    tauto
  refine ⟨hlone rfl, hleast rfl, ?_, horder _ hsame⟩
  rw [loadSetIds, hrequested, haccepted]
  simp [Graph.preorder, Graph.without, hparents, hback]

end Context

end LoadBridge
