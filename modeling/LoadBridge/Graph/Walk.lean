/-!
# Graphs — Walks

Walks over a graph given by the successors of each node, restricted to a list of nodes that may be
visited.  A node leaves the list when it is visited, so every walk ends, on cycles too, and visits
no node twice.
-/

namespace LoadBridge.Graph

variable {α : Type} [DecidableEq α]

/-- The nodes of `fresh` other than `x`. -/
def without (fresh : List α) (x : α) : List α := fresh.filter (fun y => y != x)

theorem length_without_lt {fresh : List α} {x : α} (h : x ∈ fresh) :
    (without fresh x).length < fresh.length :=
  List.length_filter_lt_length_iff_exists.2 ⟨x, h, by simp⟩

/-- Depth first, a node before its successors.  `pending` holds the nodes to look at next. -/
def preorder (next : α → List α) : (pending fresh : List α) → List α
  | [], _ => []
  | x :: rest, fresh =>
    if _h : x ∈ fresh then x :: preorder next (next x ++ rest) (without fresh x)
    else preorder next rest fresh
termination_by pending fresh => (fresh.length, pending.length)
decreasing_by
  · exact Prod.Lex.left _ _ (length_without_lt _h)
  · exact Prod.Lex.right _ (by simp)

/-- A node to enter, or a node to leave after its successors. -/
inductive Visit (α : Type) where
  | enter (node : α)
  | leave (node : α)

/-- Depth first, a node after its successors.  `pending` holds the visits to make next. -/
def postorder (next : α → List α) : (pending : List (Visit α)) → (fresh : List α) → List α
  | [], _ => []
  | .leave x :: rest, fresh => x :: postorder next rest fresh
  | .enter x :: rest, fresh =>
    if _h : x ∈ fresh then
      postorder next ((next x).map .enter ++ .leave x :: rest) (without fresh x)
    else postorder next rest fresh
termination_by pending fresh => (fresh.length, pending.length)
decreasing_by
  · exact Prod.Lex.right _ (by simp)
  · exact Prod.Lex.left _ _ (length_without_lt _h)
  · exact Prod.Lex.right _ (by simp)

/-- The successors of `x` that may be visited, each once. -/
def found (next : α → List α) (x : α) (fresh : List α) : List α :=
  ((next x).filter (fun y => fresh.contains y)).eraseDups

/-- The nodes of `fresh` that are not in `xs`. -/
def withoutAll (fresh xs : List α) : List α := fresh.filter (fun y => !xs.contains y)

theorem withoutAll_nil (fresh : List α) : withoutAll fresh [] = fresh :=
  List.filter_eq_self.2 (by simp)

theorem length_withoutAll_lt {fresh xs : List α} {x : α} (h : x ∈ fresh) (hx : x ∈ xs) :
    (withoutAll fresh xs).length < fresh.length :=
  List.length_filter_lt_length_iff_exists.2 ⟨x, h, by simpa using hx⟩

theorem mem_of_mem_found {next : α → List α} {x y : α} {fresh : List α}
    (h : y ∈ found next x fresh) : y ∈ next x ∧ y ∈ fresh := by
  simpa using List.mem_filter.1 (List.mem_eraseDups.1 h)

/-- All successors of a node at once, then the successors of the last of them.  `stack` holds the
nodes whose successors are still to be visited. -/
def spread (next : α → List α) : (stack fresh : List α) → List α
  | [], _ => []
  | x :: rest, fresh =>
    found next x fresh ++
      spread next ((found next x fresh).reverse ++ rest) (withoutAll fresh (found next x fresh))
termination_by stack fresh => (fresh.length, stack.length)
decreasing_by
  cases h : found next x fresh with
  | nil =>
    rw [withoutAll_nil]
    exact Prod.Lex.right _ (by simp)
  | cons y ys =>
    have hy : y ∈ found next x fresh := by simp [h]
    exact Prod.Lex.left _ _ (length_withoutAll_lt (mem_of_mem_found hy).2 (by simp))

end LoadBridge.Graph
