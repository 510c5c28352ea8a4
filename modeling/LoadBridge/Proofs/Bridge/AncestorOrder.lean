import LoadBridge.Proofs.Bridge.LoadedAncestors

/-!
# Bridge — The order of the loaded ancestors

The walk over loaded parents goes depth first, and what it visits is turned round.  So a chain of
loaded parents that come after it leads to each entry (`Context.transGen_after`), and a class that
no such chain can go around comes after it (`Context.mem_last_of_guards`).  Where no two heirs have
a loaded parent in common, that is every heir: ancestors come first (`Context.furthest_first`).

Elsewhere the first way to an ancestor decides.  A class that is a parent directly and through
another parent, and is named first, comes after this heir (`Context.ancestor_after_heir`).
-/

namespace LoadBridge.Context

variable {ctx : Context} {c a b : ClassRecord} {first last : List ClassRecord}

/-- No chain of loaded parents leads from `c` to `b` around `a`. -/
def Guards (ctx : Context) (c a b : ClassRecord) : Prop :=
  ¬ Relation.TransGen (fun x y => ctx.IsLoadedBase x y ∧ x ≠ a) c b

/-- Of `c` and its loaded ancestors, no two have a loaded parent in common. -/
def OneHeir (ctx : Context) (c : ClassRecord) : Prop :=
  ∀ x ∈ c :: ctx.ancestorRecords c, ∀ y ∈ c :: ctx.ancestorRecords c, ∀ b,
    ctx.IsLoadedBase x b → ctx.IsLoadedBase y b → x = y

/-- **A chain of entries that come after it leads to each entry.** -/
theorem transGen_after (hc : c ∈ ctx.table.classes)
    (hsplit : ctx.ancestorRecords c = first ++ b :: last) :
    Relation.TransGen (fun x y => ctx.IsLoadedBase x y ∧ (x = c ∨ x ∈ last)) c b := by
  -- the walk comes upon the ancestors in the other order
  have hreverse : (ctx.ancestorRecords c).reverse = last.reverse ++ b :: first.reverse := by
    rw [hsplit]
    simp
  have hwalk : (last.reverse ++ b :: first.reverse).map ClassRecord.id =
      Graph.preorder ctx.loadedBasesOf (ctx.loadedBasesOf c.id) ctx.table.classIds := by
    rw [← hreverse, List.map_reverse, map_id_ancestorRecords hc, loadedAncestorIds_eq hc,
      List.reverse_reverse]
  have hclasses : ∀ x ∈ last.reverse ++ b :: first.reverse, x ∈ ctx.table.classes := by
    intro x hx
    rw [← hreverse, List.mem_reverse, mem_ancestorRecords hc] at hx
    exact ctx.mirrors_loadedBasesOf.mem_classes_of_transGen hx
  have hfound : Graph.Discovers ctx.loadedBasesOf (ctx.loadedBasesOf c.id)
      ((last.reverse ++ b :: first.reverse).map ClassRecord.id) := by
    rw [hwalk]
    exact Graph.discovers_preorder _ _
  simpa only [List.mem_reverse] using
    ctx.mirrors_loadedBasesOf.transGen_of_discovers hc hclasses hfound

/-- **What no chain can go around comes after.** -/
theorem mem_last_of_guards (hc : c ∈ ctx.table.classes)
    (hsplit : ctx.ancestorRecords c = first ++ b :: last) (hac : a ≠ c)
    (h : ctx.Guards c a b) : a ∈ last := by
  by_contra hnot
  refine h (Relation.TransGen.mono ?_ c b (transGen_after hc hsplit))
  rintro x y ⟨hstep, rfl | hx⟩
  · exact ⟨hstep, hac.symm⟩
  · exact ⟨hstep, fun hxa => hnot (hxa ▸ hx)⟩

/-- Where no class is its own ancestor, none is its own loaded ancestor. -/
theorem not_transGen_self (hacyclic : ctx.table.BasesAcyclic) (hc : c ∈ ctx.table.classes) :
    ¬ Relation.TransGen ctx.IsLoadedBase c c := by
  intro hcycle
  have hids := (ctx.mirrors_loadedBasesOf.transGen_iff hc hc).2 hcycle
  exact hacyclic c.id
    (Relation.TransGen.mono (fun _ _ h => (List.mem_filter.1 h).1) c.id c.id hids)

theorem mem_of_reflTransGen (hc : c ∈ ctx.table.classes)
    (h : Relation.ReflTransGen ctx.IsLoadedBase c a) : a ∈ c :: ctx.ancestorRecords c := by
  rcases Relation.reflTransGen_iff_eq_or_transGen.1 h with rfl | h
  · exact List.mem_cons_self
  · exact List.mem_cons_of_mem c ((mem_ancestorRecords hc).2 h)

/-- Where no two heirs have a loaded parent in common, what leads to a parent of `x` around `a`
leads to `x` around `a`. -/
theorem OneHeir.reflTransGen_around {x : ClassRecord} (h : ctx.OneHeir c)
    (hc : c ∈ ctx.table.classes) (hx : x ∈ ctx.ancestorRecords c) (hstep : ctx.IsLoadedBase x b)
    (haround : Relation.TransGen (fun x y => ctx.IsLoadedBase x y ∧ x ≠ a) c b) :
    Relation.ReflTransGen (fun x y => ctx.IsLoadedBase x y ∧ x ≠ a) c x ∧ x ≠ a := by
  obtain ⟨z, hcz, hzb, hza⟩ := Relation.TransGen.tail'_iff.1 haround
  have hz : z ∈ c :: ctx.ancestorRecords c :=
    mem_of_reflTransGen hc (Relation.ReflTransGen.mono (fun _ _ h => h.1) c z hcz)
  obtain rfl := h z hz x (List.mem_cons_of_mem c hx) b hzb hstep
  exact ⟨hcz, hza⟩

/-- Where no two heirs have a loaded parent in common, no chain goes around an heir. -/
theorem OneHeir.guards (h : ctx.OneHeir c) (hacyclic : ctx.table.BasesAcyclic)
    (hc : c ∈ ctx.table.classes) (ha : a ∈ ctx.ancestorRecords c)
    (hreach : Relation.TransGen ctx.IsLoadedBase a b) : ctx.Guards c a b := by
  have hca := (mem_ancestorRecords hc).1 ha
  induction hreach with
  | single hstep => exact fun haround => (h.reflTransGen_around hc ha hstep haround).2 rfl
  | @tail x y hax hstep ih =>
      intro haround
      have hx : x ∈ ctx.ancestorRecords c := (mem_ancestorRecords hc).2 (hca.trans hax)
      obtain ⟨hcx, -⟩ := h.reflTransGen_around hc hx hstep haround
      rcases Relation.reflTransGen_iff_eq_or_transGen.1 hcx with rfl | hcx
      · exact not_transGen_self hacyclic hc (hca.trans hax)
      · exact ih hcx

/-- **The order of the loaded ancestors**, where no class is its own ancestor.  A chain of entries
that come after it leads to each entry; each class that no chain of loaded parents can go around
comes after it; and where no two heirs have a loaded parent in common, ancestors come first: every
entry comes before those that it is an ancestor of. -/
theorem furthest_first (hc : c ∈ ctx.table.classes) (hacyclic : ctx.table.BasesAcyclic) :
    List.Forall₂ (fun a names => ctx.names.get? a.qualifiedName = some names)
      (ctx.ancestorRecords c) (ctx.loadedAncestors c) ∧
    ∀ first b last, ctx.ancestorRecords c = first ++ b :: last →
      Relation.TransGen (fun x y => ctx.IsLoadedBase x y ∧ (x = c ∨ x ∈ last)) c b ∧
      (∀ a ∈ ctx.ancestorRecords c, ctx.Guards c a b → a ∈ last) ∧
      (ctx.OneHeir c → ∀ a ∈ ctx.ancestorRecords c, Relation.TransGen ctx.IsLoadedBase a b →
        a ∈ last) := by
  refine ⟨forall₂_loadedAncestors hc, fun first b last hsplit => ?_⟩
  have hafter : ∀ a ∈ ctx.ancestorRecords c, ctx.Guards c a b → a ∈ last := by
    intro a ha hguards
    refine mem_last_of_guards hc hsplit ?_ hguards
    rintro rfl
    exact not_transGen_self hacyclic hc ((mem_ancestorRecords hc).1 ha)
  exact ⟨transGen_after hc hsplit, hafter, fun hone a ha hreach =>
    hafter a ha (hone.guards hacyclic hc ha hreach)⟩

/-! ### A parent that is an ancestor, too -/

/-- The only class without a parent. -/
def rootRecord : ClassRecord where
  id := ⟨"_1"⟩
  name := "Root"

/-- Its heir. -/
def midRecord : ClassRecord where
  id := ⟨"_2"⟩
  name := "Mid"
  bases := [{ id := ⟨"_1"⟩, isVirtual := true }]

/-- An heir of the second class, and before that of the first one if it is `direct`. -/
def leafRecord (direct : Bool) : ClassRecord where
  id := ⟨"_3"⟩
  name := "Leaf"
  bases := (if direct then [{ id := ⟨"_1"⟩, isVirtual := true }] else []) ++ [{ id := ⟨"_2"⟩ }]

/-- All of them are loaded. -/
def lineageContext (direct : Bool) : Context :=
  (new ⟨[.ofClass rootRecord, .ofClass midRecord, .ofClass (leafRecord direct)],
    by cases direct <;> decide⟩ {}).register [⟨[], "Root"⟩, ⟨[], "Mid"⟩, ⟨[], "Leaf"⟩]

theorem acyclic_lineage (direct : Bool) : (lineageContext direct).table.BasesAcyclic := by
  refine SymbolTable.basesAcyclic_of_rank
    (fun id => if id = ⟨"_3"⟩ then 2 else if id = ⟨"_2"⟩ then 1 else 0) ?_
  cases direct <;> decide

/-- The root is an ancestor of its heir. -/
theorem isLoadedBase_lineage (direct : Bool) :
    (lineageContext direct).IsLoadedBase midRecord rootRecord := by
  refine ⟨SymbolTable.isBase_iff.2 ?_, ?_⟩
  · cases direct <;> decide
  · cases direct <;> decide

theorem furthest_first_lineage :
    leafRecord false ∈ (lineageContext false).table.classes ∧
    (lineageContext false).ancestorRecords (leafRecord false) = [rootRecord, midRecord] ∧
    Relation.TransGen (lineageContext false).IsLoadedBase midRecord rootRecord ∧
    ∀ first b last,
      (lineageContext false).ancestorRecords (leafRecord false) = first ++ b :: last →
        ∀ a ∈ (lineageContext false).ancestorRecords (leafRecord false),
          Relation.TransGen (lineageContext false).IsLoadedBase a b → a ∈ last := by
  have hc : leafRecord false ∈ (lineageContext false).table.classes := by decide
  have hancestors : (lineageContext false).ancestorRecords (leafRecord false) =
      [rootRecord, midRecord] := by cbv
  have hparents : ∀ x ∈ (lineageContext false).table.classes,
      ∀ y ∈ (lineageContext false).table.classes, ∀ b ∈ (lineageContext false).table.classes,
        b.id ∈ x.baseIds → b.id ∈ y.baseIds → x = y := by decide
  have hlisted : ∀ x ∈ leafRecord false :: [rootRecord, midRecord],
      x ∈ (lineageContext false).table.classes := by decide
  have hone : (lineageContext false).OneHeir (leafRecord false) := by
    intro x hx y hy b hxb hyb
    rw [hancestors] at hx hy
    obtain ⟨hb, hxb⟩ := SymbolTable.isBase_iff.1 hxb.1
    exact hparents x (hlisted x hx) y (hlisted y hy) b hb hxb (SymbolTable.isBase_iff.1 hyb.1).2
  obtain ⟨-, horder⟩ := furthest_first hc (acyclic_lineage false)
  exact ⟨hc, hancestors, .single (isLoadedBase_lineage false),
    fun first b last hsplit => (horder first b last hsplit).2.2 hone⟩

/-- **An ancestor comes after its heir** where it is named first as a parent, though no class is its
own ancestor. -/
theorem ancestor_after_heir : (lineageContext true).table.BasesAcyclic ∧
    leafRecord true ∈ (lineageContext true).table.classes ∧
    (lineageContext true).ancestorRecords (leafRecord true) = [midRecord, rootRecord] ∧
    Relation.TransGen (lineageContext true).IsLoadedBase midRecord rootRecord ∧
    ¬ ∀ first b last, (lineageContext true).ancestorRecords (leafRecord true) = first ++ b :: last →
      ∀ a ∈ (lineageContext true).ancestorRecords (leafRecord true),
        Relation.TransGen (lineageContext true).IsLoadedBase a b → a ∈ last := by
  have hancestors : (lineageContext true).ancestorRecords (leafRecord true) =
      [midRecord, rootRecord] := by cbv
  have hreach := Relation.TransGen.single (isLoadedBase_lineage true)
  refine ⟨acyclic_lineage true, by decide, hancestors, hreach, fun horder => ?_⟩
  have hlast := horder [midRecord] rootRecord [] hancestors midRecord
    (by rw [hancestors]; exact List.mem_cons_self) hreach
  cases hlast

end LoadBridge.Context
