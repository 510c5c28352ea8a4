import Mathlib.Logic.Relation
import LoadBridge.Graph.Walk

/-!
# Graph — What a walk visits

A walk from the nodes `pending` over the nodes `fresh` visits each node once, cycles or not.

* The nodes that `preorder` visits are the least set that holds the fresh ones among `pending` and
  is closed under fresh successors (`mem_preorder_of_mem`, `mem_preorder_of_next`,
  `preorder_subset_of_closed`): all that are reached where every successor may be visited
  (`mem_preorder_iff`).
* `postorder` works on a stack of visits.  From a list of nodes it is `unwind`
  (`postorder_map_enter`), a recursion on the graph: below a node, then the node, then the others.
  `unwind` visits the same nodes, and where the graph has no cycle, **no node comes before one of
  its successors** (`pairwise_unwind`).
* `spread` visits successors only (`exists_next_of_mem_spread`), and all that are reached where
  every successor may be visited (`mem_spread_iff`).
-/

namespace LoadBridge.Graph

variable {α : Type} [DecidableEq α] {next : α → List α}

theorem mem_without {fresh : List α} {x y : α} : y ∈ without fresh x ↔ y ∈ fresh ∧ y ≠ x := by
  simp [without]

theorem mem_withoutAll {fresh xs : List α} {y : α} :
    y ∈ withoutAll fresh xs ↔ y ∈ fresh ∧ y ∉ xs := by
  simp [withoutAll]

/-! ### A node before its successors -/

theorem mem_fresh_of_mem_preorder {pending fresh : List α} {z : α}
    (hz : z ∈ preorder next pending fresh) : z ∈ fresh := by
  fun_induction preorder next pending fresh with
  | case1 => cases hz
  | case2 x rest fresh hx ih =>
      rcases List.mem_cons.1 hz with rfl | hz
      · exact hx
      · exact (mem_without.1 (ih hz)).1
  | case3 x rest fresh hx ih => exact ih hz

/-- No node is visited twice. -/
theorem nodup_preorder (pending fresh : List α) : (preorder next pending fresh).Nodup := by
  fun_induction preorder next pending fresh with
  | case1 => exact List.nodup_nil
  | case2 x rest fresh hx ih =>
      have hnot : x ∉ preorder next (next x ++ rest) (without fresh x) := fun h =>
        (mem_without.1 (mem_fresh_of_mem_preorder h)).2 rfl
      exact List.nodup_cons.2 ⟨hnot, ih⟩
  | case3 x rest fresh hx ih => exact ih

/-- A fresh node that is pending is visited. -/
theorem mem_preorder_of_mem {pending fresh : List α} {z : α} (hz : z ∈ pending)
    (hfresh : z ∈ fresh) : z ∈ preorder next pending fresh := by
  fun_induction preorder next pending fresh with
  | case1 => cases hz
  | case2 x rest fresh hx ih =>
      by_cases hzx : z = x
      · exact hzx ▸ List.mem_cons_self
      · have hrest : z ∈ next x ++ rest :=
          List.mem_append_right _ ((List.mem_cons.1 hz).resolve_left hzx)
        exact List.mem_cons_of_mem _ (ih hrest (mem_without.2 ⟨hfresh, hzx⟩))
  | case3 x rest fresh hx ih =>
      have hzx : z ≠ x := fun h => hx (h ▸ hfresh)
      exact ih ((List.mem_cons.1 hz).resolve_left hzx) hfresh

/-- A fresh successor of a visited node is visited. -/
theorem mem_preorder_of_next {pending fresh : List α} {z y : α}
    (hz : z ∈ preorder next pending fresh) (hy : y ∈ next z) (hfresh : y ∈ fresh) :
    y ∈ preorder next pending fresh := by
  fun_induction preorder next pending fresh with
  | case1 => cases hz
  | case2 x rest fresh hx ih =>
      by_cases hyx : y = x
      · exact hyx ▸ List.mem_cons_self
      · have hyfresh : y ∈ without fresh x := mem_without.2 ⟨hfresh, hyx⟩
        refine List.mem_cons_of_mem _ ?_
        rcases List.mem_cons.1 hz with rfl | hz
        -- the successors of the node itself were pending
        · exact mem_preorder_of_mem (List.mem_append_left _ hy) hyfresh
        · exact ih hz hyfresh
  | case3 x rest fresh hx ih => exact ih hz hfresh

/-- **The visited nodes are the least such set.** -/
theorem preorder_subset_of_closed {pending fresh : List α} {P : α → Prop}
    (hpending : ∀ x ∈ pending, x ∈ fresh → P x)
    (hnext : ∀ x, P x → ∀ y ∈ next x, y ∈ fresh → P y) :
    ∀ z ∈ preorder next pending fresh, P z := by
  fun_induction preorder next pending fresh with
  | case1 => exact fun z hz => absurd hz List.not_mem_nil
  | case2 x rest fresh hx ih =>
      have hPx : P x := hpending x List.mem_cons_self hx
      have hsub : ∀ {y}, y ∈ without fresh x → y ∈ fresh := fun h => (mem_without.1 h).1
      intro z hz
      rcases List.mem_cons.1 hz with rfl | hz
      · exact hPx
      · refine ih (fun y hy hyf => ?_) (fun w hw y hy hyf => hnext w hw y hy (hsub hyf)) z hz
        rcases List.mem_append.1 hy with hy | hy
        · exact hnext x hPx y hy (hsub hyf)
        · exact hpending y (List.mem_cons_of_mem _ hy) (hsub hyf)
  | case3 x rest fresh hx ih =>
      exact ih (fun y hy => hpending y (List.mem_cons_of_mem _ hy)) hnext

/-- **A walk visits what is reached from its pending nodes**, where these and all successors may be
visited. -/
theorem mem_preorder_iff {pending fresh : List α} {z : α} (hpending : ∀ x ∈ pending, x ∈ fresh)
    (hfresh : ∀ x, ∀ y ∈ next x, y ∈ fresh) :
    z ∈ preorder next pending fresh ↔
      ∃ x ∈ pending, Relation.ReflTransGen (fun a b => b ∈ next a) x z := by
  constructor
  · let P (y : α) : Prop := ∃ x ∈ pending, Relation.ReflTransGen (fun a b => b ∈ next a) x y
    have hnext : ∀ x, P x → ∀ y ∈ next x, y ∈ fresh → P y := by
      rintro x ⟨start, hstart, hreach⟩ y hy -
      exact ⟨start, hstart, hreach.tail hy⟩
    exact preorder_subset_of_closed (fun x hx _ => ⟨x, hx, .refl⟩) hnext z
  · rintro ⟨x, hx, hreach⟩
    induction hreach with
    | refl => exact mem_preorder_of_mem hx (hpending x hx)
    | tail _ hstep ih => exact mem_preorder_of_next ih hstep (hfresh _ _ hstep)

/-- Nodes without successors are visited as they stand. -/
theorem preorder_eq_self {pending fresh : List α} (hnext : ∀ x ∈ pending, next x = [])
    (hnodup : pending.Nodup) (hfresh : pending ⊆ fresh) :
    preorder next pending fresh = pending := by
  induction pending generalizing fresh with
  | nil => rw [preorder]
  | cons x rest ih =>
      obtain ⟨hx, hrest⟩ := List.nodup_cons.1 hnodup
      have hothers : rest ⊆ without fresh x := fun y hy =>
        mem_without.2 ⟨hfresh (List.mem_cons_of_mem x hy), fun hyx => hx (hyx ▸ hy)⟩
      rw [preorder, dif_pos (hfresh List.mem_cons_self), hnext x List.mem_cons_self,
        List.nil_append, ih (fun y hy => hnext y (List.mem_cons_of_mem x hy)) hrest hothers]

/-! ### A node after its successors -/

theorem length_withoutAll_le (fresh xs : List α) : (withoutAll fresh xs).length ≤ fresh.length :=
  List.length_filter_le ..

/-- The walk as a recursion on the graph: what lies below a node, the node, and then the others. -/
def unwind (next : α → List α) : (nodes fresh : List α) → List α
  | [], _ => []
  | x :: rest, fresh =>
    if _h : x ∈ fresh then
      unwind next (next x) (without fresh x) ++
        x :: unwind next rest
          (withoutAll (without fresh x) (unwind next (next x) (without fresh x)))
    else unwind next rest fresh
termination_by nodes fresh => (fresh.length, nodes.length)
decreasing_by
  · exact Prod.Lex.left _ _ (length_without_lt _h)
  · exact Prod.Lex.left _ _ (Nat.lt_of_le_of_lt (length_withoutAll_le ..) (length_without_lt _h))
  · exact Prod.Lex.right _ (by simp)

/-- A node that is left out together with others need not be left out before. -/
theorem withoutAll_without {fresh xs : List α} {x : α} (hx : x ∈ xs) :
    withoutAll (without fresh x) xs = withoutAll fresh xs := by
  rw [withoutAll, without, List.filter_filter]
  refine List.filter_congr fun y _ => ?_
  by_cases hy : y = x
  · simp [hy, hx]
  · simp [hy]

/-- A node that is not fresh need not be left out. -/
theorem withoutAll_cons {fresh xs : List α} {x : α} (hx : x ∉ fresh) :
    withoutAll fresh (x :: xs) = withoutAll fresh xs := by
  refine List.filter_congr fun y hy => ?_
  have hyx : y ≠ x := fun h => hx (h ▸ hy)
  simp [hyx]

theorem mem_postorder_of_leave {visits : List (Visit α)} {fresh : List α} {x : α}
    (hx : .leave x ∈ visits) : x ∈ postorder next visits fresh := by
  fun_induction postorder next visits fresh with
  | case1 => cases hx
  | case2 y rest fresh ih =>
      rcases List.mem_cons.1 hx with h | h
      · exact Visit.leave.inj h ▸ List.mem_cons_self
      · exact List.mem_cons_of_mem _ (ih h)
  | case3 y rest fresh hy ih =>
      refine ih (List.mem_append_right _ (List.mem_cons_of_mem _ ?_))
      exact (List.mem_cons.1 hx).resolve_left (fun h => nomatch h)
  | case4 y rest fresh hy ih => exact ih ((List.mem_cons.1 hx).resolve_left (fun h => nomatch h))

/-- Visits are made in order: those of `later` come when those of `visits` are done.  A node that is
about to be left is no longer fresh. -/
theorem postorder_append {visits later : List (Visit α)} {fresh : List α}
    (hleft : ∀ x, .leave x ∈ visits → x ∉ fresh) :
    postorder next (visits ++ later) fresh =
      postorder next visits fresh ++
        postorder next later (withoutAll fresh (postorder next visits fresh)) := by
  fun_induction postorder next visits fresh with
  | case1 fresh => rw [withoutAll_nil, List.nil_append, List.nil_append]
  | case2 x rest fresh ih =>
      have hrest : ∀ y, .leave y ∈ rest → y ∉ fresh := fun y hy =>
        hleft y (List.mem_cons_of_mem _ hy)
      rw [List.cons_append, postorder, ih hrest, withoutAll_cons (hleft x List.mem_cons_self),
        List.cons_append]
  | case3 x rest fresh hx ih =>
      have hinner : ∀ y, .leave y ∈ (next x).map .enter ++ .leave x :: rest →
          y ∉ without fresh x := by
        intro y hy hfresh
        obtain ⟨hyfresh, hyx⟩ := mem_without.1 hfresh
        rcases List.mem_append.1 hy with hy | hy
        · simp at hy
        · rcases List.mem_cons.1 hy with hy | hy
          · exact hyx (Visit.leave.inj hy)
          · exact hleft y (List.mem_cons_of_mem _ hy) hyfresh
      have hmem : x ∈ postorder next ((next x).map .enter ++ .leave x :: rest) (without fresh x) :=
        mem_postorder_of_leave (List.mem_append_right _ List.mem_cons_self)
      have hinner := ih hinner
      rw [List.append_assoc, List.cons_append, withoutAll_without hmem] at hinner
      rw [List.cons_append, postorder, dif_pos hx, hinner]
  | case4 x rest fresh hx ih =>
      have hrest : ∀ y, .leave y ∈ rest → y ∉ fresh := fun y hy =>
        hleft y (List.mem_cons_of_mem _ hy)
      rw [List.cons_append, postorder, dif_neg hx, ih hrest]

/-- **The stack of visits is a recursion on the graph.** -/
theorem postorder_map_enter (nodes fresh : List α) :
    postorder next (nodes.map .enter) fresh = unwind next nodes fresh := by
  fun_induction unwind next nodes fresh with
  | case1 => rw [List.map_nil, postorder]
  | case2 x rest fresh hx ihbelow ihrest =>
      have hleft : ∀ y, .leave y ∈ (next x).map Visit.enter → y ∉ without fresh x := by simp
      rw [List.map_cons, postorder, dif_pos hx, postorder_append hleft, ihbelow, postorder, ihrest]
  | case3 x rest fresh hx ih => rw [List.map_cons, postorder, dif_neg hx, ih]

theorem mem_fresh_of_mem_unwind {nodes fresh : List α} {z : α}
    (hz : z ∈ unwind next nodes fresh) : z ∈ fresh := by
  fun_induction unwind next nodes fresh with
  | case1 => cases hz
  | case2 x rest fresh hx ihbelow ihrest =>
      rcases List.mem_append.1 hz with hz | hz
      · exact (mem_without.1 (ihbelow hz)).1
      · rcases List.mem_cons.1 hz with rfl | hz
        · exact hx
        · exact (mem_without.1 (mem_withoutAll.1 (ihrest hz)).1).1
  | case3 x rest fresh hx ih => exact ih hz

/-- What is visited after a node `x` was fresh when `x` was entered, and does not lie `below` it. -/
theorem of_mem_later {rest fresh below : List α} {x z : α}
    (hz : z ∈ unwind next rest (withoutAll (without fresh x) below)) :
    z ∈ without fresh x ∧ z ∉ below :=
  mem_withoutAll.1 (mem_fresh_of_mem_unwind hz)

/-- No node is visited twice. -/
theorem nodup_unwind (nodes fresh : List α) : (unwind next nodes fresh).Nodup := by
  fun_induction unwind next nodes fresh with
  | case1 => exact List.nodup_nil
  | case2 x rest fresh hx ihbelow ihrest =>
      refine List.nodup_append.2 ⟨ihbelow, List.nodup_cons.2 ⟨fun h => ?_, ihrest⟩,
        fun z hz y hy hzy => ?_⟩
      · exact (mem_without.1 (of_mem_later h).1).2 rfl
      · rcases List.mem_cons.1 hy with rfl | hy
        · exact (mem_without.1 (mem_fresh_of_mem_unwind hz)).2 hzy
        · exact (of_mem_later hy).2 (hzy ▸ hz)
  | case3 x rest fresh hx ih => exact ih

/-- What becomes of a node that is fresh when `x` is entered: it is `x`, it lies below `x`, or it is
fresh when the walk goes on. -/
theorem fresh_cases {fresh below : List α} (x : α) {z : α} (hz : z ∈ fresh) :
    z ∈ below ++ [x] ∨ z ∈ withoutAll (without fresh x) below := by
  by_cases hzx : z = x
  · exact .inl (hzx ▸ List.mem_append_right _ List.mem_cons_self)
  · by_cases hbelow : z ∈ below
    · exact .inl (List.mem_append_left _ hbelow)
    · exact .inr (mem_withoutAll.2 ⟨mem_without.2 ⟨hz, hzx⟩, hbelow⟩)

/-- A fresh node that is entered is visited. -/
theorem mem_unwind_of_mem {nodes fresh : List α} {z : α} (hz : z ∈ nodes) (hfresh : z ∈ fresh) :
    z ∈ unwind next nodes fresh := by
  fun_induction unwind next nodes fresh with
  | case1 => cases hz
  | case2 x rest fresh hx ihbelow ihrest =>
      rw [List.append_cons]
      rcases fresh_cases x hfresh with h | h
      · exact List.mem_append_left _ h
      · have hzx : z ≠ x := (mem_without.1 (mem_withoutAll.1 h).1).2
        exact List.mem_append_right _ (ihrest ((List.mem_cons.1 hz).resolve_left hzx) h)
  | case3 x rest fresh hx ih =>
      have hzx : z ≠ x := fun h => hx (h ▸ hfresh)
      exact ih ((List.mem_cons.1 hz).resolve_left hzx) hfresh

/-- A fresh successor of a visited node is visited. -/
theorem mem_unwind_of_next {nodes fresh : List α} {z y : α} (hz : z ∈ unwind next nodes fresh)
    (hy : y ∈ next z) (hfresh : y ∈ fresh) : y ∈ unwind next nodes fresh := by
  fun_induction unwind next nodes fresh with
  | case1 => cases hz
  | case2 x rest fresh hx ihbelow ihrest =>
      rw [List.append_cons] at hz ⊢
      rcases fresh_cases x hfresh with h | h
      · exact List.mem_append_left _ h
      · have hwithout : y ∈ without fresh x := (mem_withoutAll.1 h).1
        rcases List.mem_append.1 hz with hz | hz
        · refine List.mem_append_left _ (List.mem_append_left _ ?_)
          rcases List.mem_append.1 hz with hz | hz
          · exact ihbelow hz hwithout
          · exact mem_unwind_of_mem (List.mem_singleton.1 hz ▸ hy) hwithout
        · exact List.mem_append_right _ (ihrest hz h)
  | case3 x rest fresh hx ih => exact ih hz hfresh

/-- A visited node is one of the nodes entered, or reached from one. -/
theorem exists_reaches_of_mem_unwind {nodes fresh : List α} {z : α}
    (hz : z ∈ unwind next nodes fresh) :
    ∃ x ∈ nodes, Relation.ReflTransGen (fun a b => b ∈ next a) x z := by
  fun_induction unwind next nodes fresh with
  | case1 => cases hz
  | case2 x rest fresh hx ihbelow ihrest =>
      rcases List.mem_append.1 hz with hz | hz
      · obtain ⟨y, hy, hreach⟩ := ihbelow hz
        exact ⟨x, List.mem_cons_self, hreach.head hy⟩
      · rcases List.mem_cons.1 hz with rfl | hz
        · exact ⟨z, List.mem_cons_self, .refl⟩
        · obtain ⟨y, hy, hreach⟩ := ihrest hz
          exact ⟨y, List.mem_cons_of_mem _ hy, hreach⟩
  | case3 x rest fresh hx ih =>
      obtain ⟨y, hy, hreach⟩ := ih hz
      exact ⟨y, List.mem_cons_of_mem _ hy, hreach⟩

/-- **No node comes before one of its successors**, where the graph has no cycle. -/
theorem pairwise_unwind (hacyclic : ∀ x, ¬ Relation.TransGen (fun a b => b ∈ next a) x x)
    (nodes fresh : List α) : (unwind next nodes fresh).Pairwise fun a b => b ∉ next a := by
  fun_induction unwind next nodes fresh with
  | case1 => exact .nil
  | case2 x rest fresh hx ihbelow ihrest =>
      refine List.pairwise_append.2 ⟨ihbelow, List.pairwise_cons.2 ⟨fun b hb hnext => ?_, ihrest⟩,
        fun a ha b hb hnext => ?_⟩
      · exact (of_mem_later hb).2 (mem_unwind_of_mem hnext (of_mem_later hb).1)
      · rcases List.mem_cons.1 hb with rfl | hb
        -- a node below `x` that leads back to it
        · obtain ⟨y, hy, hreach⟩ := exists_reaches_of_mem_unwind ha
          exact hacyclic b (.head' hy (hreach.tail hnext))
        · exact (of_mem_later hb).2 (mem_unwind_of_next ha hnext (of_mem_later hb).1)
  | case3 x rest fresh hx ih => exact ih

/-! ### All successors of a node at once -/

theorem mem_found {x y : α} {fresh : List α} : y ∈ found next x fresh ↔ y ∈ next x ∧ y ∈ fresh := by
  simp [found]

/-- What a spread visits is reached from its stack, by one step at least. -/
theorem exists_reaches_of_mem_spread {stack fresh : List α} {z : α}
    (h : z ∈ spread next stack fresh) :
    ∃ x ∈ stack, Relation.TransGen (fun a b => b ∈ next a) x z := by
  fun_induction spread next stack fresh with
  | case1 => cases h
  | case2 x rest fresh ih =>
      rcases List.mem_append.1 h with hfound | hlater
      · exact ⟨x, List.mem_cons_self, .single (mem_found.1 hfound).1⟩
      · obtain ⟨y, hy, hreach⟩ := ih hlater
        rcases List.mem_append.1 hy with hy | hy
        · exact ⟨x, List.mem_cons_self, hreach.head (mem_found.1 (List.mem_reverse.1 hy)).1⟩
        · exact ⟨y, List.mem_cons_of_mem _ hy, hreach⟩

/-- What a spread visits is a successor. -/
theorem exists_next_of_mem_spread {stack fresh : List α} {z : α} (h : z ∈ spread next stack fresh) :
    ∃ x, z ∈ next x := by
  obtain ⟨x, -, hreach⟩ := exists_reaches_of_mem_spread h
  obtain ⟨y, -, hstep⟩ := Relation.TransGen.tail'_iff.1 hreach
  exact ⟨y, hstep⟩

/-- A fresh successor of a node that is on the stack or visited is visited. -/
theorem mem_spread_of_next {stack fresh : List α} {z y : α}
    (hz : z ∈ stack ∨ z ∈ spread next stack fresh) (hy : y ∈ next z) (hfresh : y ∈ fresh) :
    y ∈ spread next stack fresh := by
  fun_induction spread next stack fresh with
  | case1 => simp at hz
  | case2 x rest fresh ih =>
      by_cases hfound : y ∈ found next x fresh
      · exact List.mem_append_left _ hfound
      refine List.mem_append_right _ (ih ?_ (mem_withoutAll.2 ⟨hfresh, hfound⟩))
      -- the successors of `x` itself have all been found
      have hzx : z ≠ x := fun h => hfound (mem_found.2 ⟨h ▸ hy, hfresh⟩)
      rcases hz with hz | hz
      · exact .inl (List.mem_append_right _ ((List.mem_cons.1 hz).resolve_left hzx))
      · rcases List.mem_append.1 hz with hz | hz
        · exact .inl (List.mem_append_left _ (List.mem_reverse.2 hz))
        · exact .inr hz

/-- **A spread visits what is reached from its stack**, where every successor may be visited. -/
theorem mem_spread_iff {stack fresh : List α} {z : α} (hfresh : ∀ x, ∀ y ∈ next x, y ∈ fresh) :
    z ∈ spread next stack fresh ↔
      ∃ x ∈ stack, Relation.TransGen (fun a b => b ∈ next a) x z := by
  refine ⟨exists_reaches_of_mem_spread, ?_⟩
  rintro ⟨x, hx, hreach⟩
  induction hreach with
  | single hstep => exact mem_spread_of_next (.inl hx) hstep (hfresh _ _ hstep)
  | tail _ hstep ih => exact mem_spread_of_next (.inr ih) hstep (hfresh _ _ hstep)

end LoadBridge.Graph
