import LoadBridge.Bridge.Hierarchy
import LoadBridge.Proofs.Graph.Discovery
import LoadBridge.Proofs.Symbol.Table

/-!
# Bridge — The base relation

The parents of a class are given by identifiers.  A front end may promise that no class is its own
ancestor (`BasesAcyclic`); a rank that falls from a class to its parents shows it
(`basesAcyclic_of_rank`).  Walks go by identifiers; what they reach is what is reached from class to
class (`Mirrors.transGen_iff`), through classes that they visit before
(`Mirrors.transGen_of_discovers`).  A plan marks a parent as loaded when it is a class with
generated names (`of_mem_parentsOf`), and its loaded ancestors are reached through such parents
(`loadedAncestorIds_subset_of_closed`).
-/

namespace LoadBridge

theorem ClassRecord.mem_baseIds {c : ClassRecord} {id : RecordId} :
    id ∈ c.baseIds ↔ ∃ base ∈ c.bases, base.id = id := List.mem_map

namespace SymbolTable

variable {t : SymbolTable} {c : ClassRecord} {id parent : RecordId}

theorem basesOf_id (hc : c ∈ t.classes) : t.basesOf c.id = c.baseIds := by
  rw [basesOf, class?_id hc]

/-- Only a class of the table has parents. -/
theorem mem_basesOf : parent ∈ t.basesOf id ↔
    ∃ c ∈ t.classes, c.id = id ∧ parent ∈ c.baseIds := by
  rw [basesOf]
  constructor
  · intro h
    split at h
    · next c hc =>
      obtain ⟨hmem, hid⟩ := class?_eq_some_iff.1 hc
      exact ⟨c, hmem, hid, h⟩
    · cases h
  · rintro ⟨c, hc, rfl, h⟩
    rw [class?_id hc]
    exact h

/-- No class is its own ancestor. -/
def BasesAcyclic (t : SymbolTable) : Prop :=
  ∀ id, ¬ Relation.TransGen (fun child parent => parent ∈ t.basesOf child) id id

/-- Parents of a lower rank: no class is its own ancestor. -/
theorem basesAcyclic_of_rank (rank : RecordId → Nat)
    (h : ∀ c ∈ t.classes, ∀ parent ∈ c.baseIds, rank parent < rank c.id) : t.BasesAcyclic := by
  have hfalls : ∀ {child ancestor},
      Relation.TransGen (fun child parent => parent ∈ t.basesOf child) child ancestor →
        rank ancestor < rank child := by
    intro child ancestor hreach
    induction hreach with
    | single hparent =>
        obtain ⟨c, hc, rfl, hmem⟩ := mem_basesOf.1 hparent
        exact h c hc _ hmem
    | tail _ hparent ih =>
        obtain ⟨c, hc, rfl, hmem⟩ := mem_basesOf.1 hparent
        exact Nat.lt_trans (h c hc _ hmem) ih
  exact fun id hcycle => Nat.lt_irrefl _ (hfalls hcycle)

/-! ### From class to class -/

theorem classSatisfies_iff {p : ClassRecord → Bool} :
    t.classSatisfies p id = true ↔ ∃ c ∈ t.classes, c.id = id ∧ p c = true := by
  rw [classSatisfies, Option.any_eq_true]
  simp only [class?_eq_some_iff, and_assoc]

/-- What satisfies a condition on classes is a class. -/
theorem mem_classIds_of_mem_filter {p : ClassRecord → Bool} {ids : List RecordId}
    (h : id ∈ ids.filter (t.classSatisfies p)) : id ∈ t.classIds := by
  obtain ⟨c, hc, rfl, -⟩ := classSatisfies_iff.1 (List.mem_filter.1 h).2
  exact List.mem_map_of_mem hc

/-- A direct parent of a class that is a class. -/
def IsBase (t : SymbolTable) (c parent : ClassRecord) : Prop :=
  ∃ base ∈ c.bases, t.lookup base.id = some (.ofClass parent)

theorem isBase_iff {d : ClassRecord} : t.IsBase c d ↔ d ∈ t.classes ∧ d.id ∈ c.baseIds := by
  rw [IsBase, ClassRecord.mem_baseIds]
  constructor
  · rintro ⟨base, hbase, hfound⟩
    obtain ⟨hd, hid⟩ := class?_eq_some_iff.1 (class?_eq_some_iff_lookup.2 hfound)
    exact ⟨hd, base, hbase, hid.symm⟩
  · rintro ⟨hd, base, hbase, hid⟩
    exact ⟨base, hbase, class?_eq_some_iff_lookup.1 (class?_eq_some_iff.2 ⟨hd, hid.symm⟩)⟩

/-- `next` relates the identifiers of classes as `step` relates the classes. -/
structure Mirrors (t : SymbolTable) (next : RecordId → RecordId → Prop)
    (step : ClassRecord → ClassRecord → Prop) : Prop where
  mem_classes : ∀ {c d}, step c d → d ∈ t.classes
  next_iff : ∀ {c}, c ∈ t.classes → ∀ {id}, next c.id id ↔ ∃ d, step c d ∧ d.id = id

/-- The parents that satisfy `p`. -/
theorem mirrors_basesOf (t : SymbolTable) (p : ClassRecord → Bool) :
    t.Mirrors (fun x y => y ∈ (t.basesOf x).filter (t.classSatisfies p))
      (fun c parent => t.IsBase c parent ∧ p parent = true) where
  mem_classes := fun h => (isBase_iff.1 h.1).1
  next_iff := by
    intro c hc id
    rw [List.mem_filter, basesOf_id hc, classSatisfies_iff]
    constructor
    · rintro ⟨hbase, d, hd, rfl, hp⟩
      exact ⟨d, ⟨isBase_iff.2 ⟨hd, hbase⟩, hp⟩, rfl⟩
    · rintro ⟨d, ⟨hbase, hp⟩, rfl⟩
      obtain ⟨hd, hid⟩ := isBase_iff.1 hbase
      exact ⟨hid, d, hd, rfl, hp⟩

namespace Mirrors

variable {next : RecordId → RecordId → Prop} {step : ClassRecord → ClassRecord → Prop}
  {a b : ClassRecord}

/-- What is reached is a class of the table. -/
theorem mem_classes_of_transGen (h : t.Mirrors next step) (hreach : Relation.TransGen step c a) :
    a ∈ t.classes := by
  obtain ⟨_, -, hlast⟩ := Relation.TransGen.tail'_iff.1 hreach
  exact h.mem_classes hlast

/-- What is reached by identifiers is reached from class to class. -/
theorem exists_of_transGen (h : t.Mirrors next step) (hc : c ∈ t.classes)
    (hreach : Relation.TransGen next c.id id) :
    ∃ a ∈ t.classes, a.id = id ∧ Relation.TransGen step c a := by
  induction hreach with
  | single hnext =>
      obtain ⟨a, ha, hid⟩ := (h.next_iff hc).1 hnext
      exact ⟨a, h.mem_classes ha, hid, .single ha⟩
  | tail _ hnext ih =>
      obtain ⟨b, hb, rfl, hreach⟩ := ih
      obtain ⟨a, ha, hid⟩ := (h.next_iff hb).1 hnext
      exact ⟨a, h.mem_classes ha, hid, hreach.tail ha⟩

/-- **Identifiers and classes reach alike.** -/
theorem transGen_iff (h : t.Mirrors next step) (hc : c ∈ t.classes) (ha : a ∈ t.classes) :
    Relation.TransGen next c.id a.id ↔ Relation.TransGen step c a := by
  constructor
  · intro hreach
    obtain ⟨b, hb, heq, hreach⟩ := h.exists_of_transGen hc hreach
    exact eq_of_id_eq hb ha heq ▸ hreach
  · intro hreach
    induction hreach with
    | single hstep => exact .single ((h.next_iff hc).2 ⟨_, hstep, rfl⟩)
    | @tail b d hreach hstep ih =>
        have hb : b ∈ t.classes := h.mem_classes_of_transGen hreach
        exact (ih hb).tail ((h.next_iff hb).2 ⟨_, hstep, rfl⟩)

/-- Identifiers that are those reached are found as the classes that are reached. -/
theorem mem_filterMap_class?_iff {ids : List RecordId} (h : t.Mirrors next step)
    (hc : c ∈ t.classes) (hids : ∀ id, id ∈ ids ↔ Relation.TransGen next c.id id) :
    a ∈ ids.filterMap t.class? ↔ Relation.TransGen step c a := by
  rw [List.mem_filterMap]
  constructor
  · rintro ⟨id, hid, hfound⟩
    obtain ⟨ha, rfl⟩ := class?_eq_some_iff.1 hfound
    exact (h.transGen_iff hc ha).1 ((hids a.id).1 hid)
  · intro hreach
    have ha := h.mem_classes_of_transGen hreach
    exact ⟨a.id, (hids a.id).2 ((h.transGen_iff hc ha).2 hreach), class?_id ha⟩

/-- Steps from some classes only. -/
theorem restrict {p : RecordId → Prop} {P : ClassRecord → Prop} (h : t.Mirrors next step)
    (hp : ∀ c ∈ t.classes, p c.id ↔ P c) :
    t.Mirrors (fun x y => next x y ∧ p x) (fun c d => step c d ∧ P c) where
  mem_classes := fun hstep => h.mem_classes hstep.1
  next_iff := by
    intro c hc id
    rw [h.next_iff hc, hp c hc]
    constructor
    · rintro ⟨⟨d, hstep, rfl⟩, hP⟩
      exact ⟨d, ⟨hstep, hP⟩, rfl⟩
    · rintro ⟨d, ⟨hstep, hP⟩, rfl⟩
      exact ⟨⟨d, hstep, rfl⟩, hP⟩

/-- **A walk that discovers its classes reaches each of them through `c` and those that come before
it.** -/
theorem transGen_of_discovers {succ : RecordId → List RecordId} {before after : List ClassRecord}
    (h : t.Mirrors (fun x y => y ∈ succ x) step) (hc : c ∈ t.classes)
    (hwalk : ∀ a ∈ before ++ b :: after, a ∈ t.classes)
    (hfound : Graph.Discovers succ (succ c.id) ((before ++ b :: after).map ClassRecord.id)) :
    Relation.TransGen (fun x y => step x y ∧ (x = c ∨ x ∈ before)) c b := by
  have hb : b ∈ t.classes := hwalk b (by simp)
  have hsame : ∀ a ∈ t.classes,
      (a.id = c.id ∨ a.id ∈ before.map ClassRecord.id) ↔ (a = c ∨ a ∈ before) := by
    intro a ha
    refine or_congr ⟨eq_of_id_eq ha hc, fun heq => heq ▸ rfl⟩ ⟨fun hid => ?_, List.mem_map_of_mem⟩
    obtain ⟨d, hd, heq⟩ := List.mem_map.1 hid
    exact eq_of_id_eq (hwalk d (List.mem_append_left _ hd)) ha heq ▸ hd
  obtain ⟨root, hroot, hchain⟩ := hfound.exists_chain (List.map_append ..)
  have hsteps (x y : RecordId) (hstep : y ∈ succ x ∧ x ∈ before.map ClassRecord.id) :
      y ∈ succ x ∧ (x = c.id ∨ x ∈ before.map ClassRecord.id) := ⟨hstep.1, .inr hstep.2⟩
  have hmirrors := h.restrict (p := fun x => x = c.id ∨ x ∈ before.map ClassRecord.id) hsame
  refine (hmirrors.transGen_iff hc hb).1 ?_
  exact .head' ⟨hroot, .inl rfl⟩ (Relation.ReflTransGen.mono hsteps root b.id hchain)

end Mirrors

end SymbolTable

namespace Context

variable {ctx : Context} {c : ClassRecord} {names : GeneratedNames}

/-- A parent that is loaded is a class with generated names. -/
theorem of_parentOf_loaded {id : RecordId} {name : String}
    (h : ctx.parentOf id = (name, .loaded names)) : ∃ parent,
      ctx.table.class? id = some parent ∧ name = parent.qualifiedName ∧
        ctx.names.get? parent.qualifiedName = some names := by
  rw [parentOf] at h
  split at h
  · next parent hfound =>
    obtain ⟨rfl, hstatus⟩ := Prod.mk.inj h
    refine ⟨parent, SymbolTable.class?_eq_some_iff_lookup.2 hfound, rfl, ?_⟩
    rw [parentStatus] at hstatus
    split at hstatus
    · split at hstatus
      · next hnames => rw [hnames, ParentStatus.loaded.inj hstatus]
      · cases hstatus
    · cases hstatus
    · cases hstatus
  · cases (Prod.mk.inj h).2
  · cases (Prod.mk.inj h).2
  · cases (Prod.mk.inj h).2

/-- The loaded parents of a class are among its parents. -/
theorem of_mem_parentsOf {p : ParentInfo} (hp : p ∈ ctx.parentsOf c)
    (h : p.status = .loaded names) :
    ∃ parent, parent.id ∈ c.baseIds ∧ parent ∈ ctx.table.classes ∧ p.name = parent.qualifiedName ∧
      ctx.names.get? parent.qualifiedName = some names := by
  obtain ⟨base, hbase, rfl⟩ := List.mem_map.1 hp
  have hparent : ctx.parentOf base.id = ((ctx.parentOf base.id).1, .loaded names) :=
    Prod.ext rfl h
  obtain ⟨parent, hfound, hname, hnames⟩ := of_parentOf_loaded hparent
  obtain ⟨hmem, hid⟩ := SymbolTable.class?_eq_some_iff.1 hfound
  exact ⟨parent, ClassRecord.mem_baseIds.2 ⟨base, hbase, hid.symm⟩, hmem, hname, hnames⟩

/-- The names of a loaded ancestor are those of a class that the walk reaches. -/
theorem of_mem_loadedAncestors (h : names ∈ ctx.loadedAncestors c) :
    ∃ a ∈ ctx.table.classes, a.id ∈ ctx.loadedAncestorIds c ∧
      ctx.names.get? a.qualifiedName = some names := by
  obtain ⟨a, ha, hnames⟩ := List.mem_filterMap.1 h
  obtain ⟨id, hid, hfound⟩ := List.mem_filterMap.1 ha
  obtain ⟨hmem, rfl⟩ := SymbolTable.class?_eq_some_iff.1 hfound
  exact ⟨a, hmem, hid, hnames⟩

/-- The loaded ancestors lie in every set of classes that holds the loaded parents of `c` and of
its own members. -/
theorem loadedAncestorIds_subset_of_closed {P : ClassRecord → Prop}
    (hparent : ∀ parent ∈ ctx.table.classes, parent.id ∈ c.baseIds →
      ctx.isLoadedClass parent = true → P parent)
    (hclosed : ∀ a ∈ ctx.table.classes, P a → ∀ parent ∈ ctx.table.classes,
      parent.id ∈ a.baseIds → ctx.isLoadedClass parent = true → P parent) :
    ∀ a ∈ ctx.table.classes, a.id ∈ ctx.loadedAncestorIds c → P a := by
  have hwalk : ∀ id ∈ Graph.preorder ctx.loadedBasesOf
      (c.baseIds.filter (ctx.table.classSatisfies ctx.isLoadedClass)) ctx.table.classIds,
      ∃ a ∈ ctx.table.classes, a.id = id ∧ P a := by
    refine Graph.preorder_subset_of_closed (fun id hid _ => ?_) fun id hP next hnext _ => ?_
    · obtain ⟨hbase, hsatisfied⟩ := List.mem_filter.1 hid
      obtain ⟨a, ha, rfl, hloaded⟩ := SymbolTable.classSatisfies_iff.1 hsatisfied
      exact ⟨a, ha, rfl, hparent a ha hbase hloaded⟩
    · obtain ⟨a, ha, rfl, hPa⟩ := hP
      obtain ⟨hbase, hsatisfied⟩ := List.mem_filter.1 hnext
      obtain ⟨b, hb, rfl, hloaded⟩ := SymbolTable.classSatisfies_iff.1 hsatisfied
      rw [SymbolTable.basesOf_id ha] at hbase
      exact ⟨b, hb, rfl, hclosed a ha hPa b hb hbase hloaded⟩
  intro a ha hid
  obtain ⟨b, hb, heq, hPb⟩ := hwalk a.id (List.mem_reverse.1 hid)
  exact SymbolTable.eq_of_id_eq hb ha heq ▸ hPb

end Context

end LoadBridge
