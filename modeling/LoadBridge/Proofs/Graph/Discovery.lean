import LoadBridge.Proofs.Graph.Walk

/-!
# Graph — How a walk comes upon its nodes

A walk comes upon each of its nodes from where it starts or from a node that it has visited before
(`Discovers`): depth first (`discovers_preorder`), and with all successors of a node at once
(`discovers_spread`).  So a chain of nodes that come before it leads to every node
(`Discovers.exists_chain`).
-/

namespace LoadBridge.Graph

variable {α : Type} {next : α → List α} {roots starts walk : List α}

/-- Every node of the walk is a root, or a successor of a node that comes before it. -/
def Discovers (next : α → List α) (roots walk : List α) : Prop :=
  ∀ before z after, walk = before ++ z :: after → z ∈ roots ∨ ∃ x ∈ before, z ∈ next x

namespace Discovers

theorem nil : Discovers next roots [] := by
  intro before z after hwalk
  cases before <;> cases hwalk

/-- More roots do no harm. -/
theorem mono (h : Discovers next starts walk) (hroots : starts ⊆ roots) :
    Discovers next roots walk := fun before z after hwalk =>
  (h before z after hwalk).imp_left fun hz => hroots hz

/-- A root goes before a walk that may start from its successors, too. -/
theorem cons {x : α} (hx : x ∈ roots) (h : Discovers next (next x ++ roots) walk) :
    Discovers next roots (x :: walk) := by
  intro before z after hwalk
  cases before with
  | nil =>
      obtain ⟨rfl, -⟩ := List.cons.inj hwalk
      exact .inl hx
  | cons y before =>
      obtain ⟨rfl, hrest⟩ := List.cons.inj hwalk
      rcases h before z after hrest with hz | ⟨y, hy, hz⟩
      · rcases List.mem_append.1 hz with hz | hz
        · exact .inr ⟨x, List.mem_cons_self, hz⟩
        · exact .inl hz
      · exact .inr ⟨y, List.mem_cons_of_mem x hy, hz⟩

/-- Several roots go before a walk that may start from their successors, too. -/
theorem append {xs : List α} (hxs : xs ⊆ roots)
    (h : Discovers next (xs.flatMap next ++ roots) walk) : Discovers next roots (xs ++ walk) := by
  induction xs generalizing roots with
  | nil => exact h
  | cons x rest ih =>
      obtain ⟨hx, hrest⟩ := List.cons_subset.1 hxs
      have hroots : (x :: rest).flatMap next ++ roots ⊆ rest.flatMap next ++ (next x ++ roots) := by
        intro y hy
        simp only [List.flatMap_cons, List.mem_append] at hy ⊢
        rcases hy with (hy | hy) | hy
        · exact .inr (.inl hy)
        · exact .inl hy
        · exact .inr (.inr hy)
      exact cons hx (ih (List.Subset.trans hrest (List.subset_append_right ..)) (h.mono hroots))

/-- **A chain of nodes that come before it leads to every node.** -/
theorem exists_chain {before after : List α} {z : α} (h : Discovers next roots walk)
    (hwalk : walk = before ++ z :: after) :
    ∃ root ∈ roots, Relation.ReflTransGen (fun x y => y ∈ next x ∧ x ∈ before) root z := by
  induction hlength : before.length using Nat.strongRecOn generalizing before z after with
  | ind n ih =>
      rcases h before z after hwalk with hz | ⟨x, hx, hz⟩
      · exact ⟨z, hz, .refl⟩
      -- the walk up to `x` is shorter
      · obtain ⟨first, last, rfl⟩ := List.append_of_mem hx
        have hshorter : first.length < n := by
          rw [← hlength, List.length_append, List.length_cons]
          omega
        have hsplit : walk = first ++ x :: (last ++ z :: after) := by
          rw [hwalk, List.append_assoc, List.cons_append]
        obtain ⟨root, hroot, hchain⟩ := ih first.length hshorter hsplit rfl
        have hsteps (a b : α) (hab : b ∈ next a ∧ a ∈ first) :
            b ∈ next a ∧ a ∈ first ++ x :: last := ⟨hab.1, List.mem_append_left _ hab.2⟩
        exact ⟨root, hroot, (Relation.ReflTransGen.mono hsteps root x hchain).tail ⟨hz, hx⟩⟩

end Discovers

variable [DecidableEq α]

/-- **Depth first, a walk discovers its nodes** from those that are pending. -/
theorem discovers_preorder (pending fresh : List α) :
    Discovers next pending (preorder next pending fresh) := by
  fun_induction preorder next pending fresh with
  | case1 => exact .nil
  | case2 x rest fresh hx ih =>
      refine .cons List.mem_cons_self (ih.mono ?_)
      exact List.append_subset.2 ⟨List.subset_append_left ..,
        List.Subset.trans (List.subset_cons_self x rest) (List.subset_append_right ..)⟩
  | case3 x rest fresh hx ih => exact ih.mono (List.subset_cons_self x rest)

/-- **A spread discovers its nodes** from the successors of those on its stack. -/
theorem discovers_spread (stack fresh : List α) :
    Discovers next (stack.flatMap next) (spread next stack fresh) := by
  fun_induction spread next stack fresh with
  | case1 => exact .nil
  | case2 x rest fresh ih =>
      refine .append (fun y hy => ?_) (ih.mono fun y hy => ?_)
      · exact List.mem_flatMap.2 ⟨x, List.mem_cons_self, (mem_found.1 hy).1⟩
      · obtain ⟨z, hz, hy⟩ := List.mem_flatMap.1 hy
        rcases List.mem_append.1 hz with hz | hz
        · exact List.mem_append_left _ (List.mem_flatMap.2 ⟨z, List.mem_reverse.1 hz, hy⟩)
        · exact List.mem_append_right _ (List.mem_flatMap.2 ⟨z, List.mem_cons_of_mem x hz, hy⟩)

end LoadBridge.Graph
