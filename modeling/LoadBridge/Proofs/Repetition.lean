import Mathlib.Data.List.Forall2

/-!
# Repetitions

`List.eraseDupsBy` keeps of every element the first that repeats none before it.  What it keeps was
in the list (`mem_of_mem_eraseDupsBy`), stands for all that it drops (`exists_mem_eraseDupsBy`), and
has no repetition (`pairwise_eraseDupsBy`); a list without repetitions stays as it is
(`eraseDupsBy_eq_self`); and two lists that repeat alike keep the same places
(`pairing_eraseDupsBy`).  A collection to which elements are added one after the other, each unless
it is there, gets what is kept of them (`kept_foldl`).
-/

namespace LoadBridge

variable {α : Type} {r : α → α → Bool}

theorem mem_of_mem_eraseDupsBy {a : α} : ∀ {l : List α}, a ∈ l.eraseDupsBy r → a ∈ l
  | x :: rest, h => by
    rw [List.eraseDupsBy_cons] at h
    rcases List.mem_cons.1 h with rfl | h
    · exact List.mem_cons_self
    · exact List.mem_cons_of_mem _ (List.mem_filter.1 (mem_of_mem_eraseDupsBy h)).1
termination_by l => l.length
decreasing_by exact Nat.lt_succ_of_le (List.length_filter_le ..)

/-- An element repeats one that is kept. -/
theorem exists_mem_eraseDupsBy (hrefl : ∀ a, r a a = true) {a : α} :
    ∀ {l : List α}, a ∈ l → ∃ b ∈ l.eraseDupsBy r, r a b = true
  | x :: rest, h => by
    rw [List.eraseDupsBy_cons]
    by_cases hax : r a x = true
    · exact ⟨x, List.mem_cons_self, hax⟩
    · have hne : a ≠ x := fun heq => hax (heq ▸ hrefl a)
      have hrest : a ∈ rest.filter fun b => r b x = false :=
        List.mem_filter.2 ⟨(List.mem_cons.1 h).resolve_left hne, by simpa using hax⟩
      obtain ⟨b, hb, hab⟩ := exists_mem_eraseDupsBy hrefl hrest
      exact ⟨b, List.mem_cons_of_mem _ hb, hab⟩
termination_by l => l.length
decreasing_by exact Nat.lt_succ_of_le (List.length_filter_le ..)

theorem pairwise_eraseDupsBy :
    ∀ (l : List α), (l.eraseDupsBy r).Pairwise fun a b => r b a = false
  | [] => .nil
  | x :: rest => by
    rw [List.eraseDupsBy_cons]
    refine List.pairwise_cons.2 ⟨fun b hb => ?_, pairwise_eraseDupsBy _⟩
    simpa using (List.mem_filter.1 (mem_of_mem_eraseDupsBy hb)).2
termination_by l => l.length
decreasing_by exact Nat.lt_succ_of_le (List.length_filter_le ..)

theorem eraseDupsBy_eq_self {l : List α} (h : l.Pairwise fun a b => r b a = false) :
    l.eraseDupsBy r = l := by
  induction h with
  | nil => rfl
  | cons hx _ ih =>
      rw [List.eraseDupsBy_cons, List.filter_eq_self.2 (by simpa using hx), ih]

/-- Lists whose entries are paired, and repeat each other where their partners do, keep partners. -/
theorem pairing_eraseDupsBy {β : Type} {R : α → β → Prop} {s : β → β → Bool}
    (hR : ∀ a b a' b', R a b → R a' b' → r a a' = s b b') :
    ∀ {as : List α} {bs : List β}, List.Forall₂ R as bs →
      List.Forall₂ R (as.eraseDupsBy r) (bs.eraseDupsBy s)
  | _, _, .nil => .nil
  | a :: as, b :: bs, .cons hab hrest => by
    rw [List.eraseDupsBy_cons, List.eraseDupsBy_cons]
    refine .cons hab (pairing_eraseDupsBy hR ?_)
    exact List.rel_filter (fun a' b' hab' => by simp only [hR a' b' a b hab' hab]) hrest
termination_by as => as.length
decreasing_by exact Nat.lt_succ_of_le (List.length_filter_le ..)

section

variable {σ β : Type} {add : σ → α → σ} (holds : σ → α → Bool) (entry : σ → α → β)
  {kept : σ → List β}

/-- **A collection that adds what it does not hold** gets every element that is new to it when that
first comes up. -/
theorem kept_foldl (hold : ∀ s x, holds s x = true → add s x = s)
    (hnew : ∀ s x, holds s x = false → kept (add s x) = kept s ++ [entry s x])
    (hholds : ∀ s x, holds s x = false → ∀ y, holds (add s x) y = (holds s y || r y x))
    (hentry : ∀ s x, entry (add s x) = entry s) (s : σ) (xs : List α) :
    kept (xs.foldl add s) =
      kept s ++ ((xs.filter fun x => !holds s x).eraseDupsBy r).map (entry s) := by
  induction xs generalizing s with
  | nil => simp
  | cons x rest ih =>
      rw [List.foldl_cons, ih, List.filter_cons]
      cases hx : holds s x with
      | true => simp [hold s x hx]
      | false =>
          -- what is new to the larger collection is new to the smaller one and does not repeat `x`
          have hrest : (rest.filter fun y => !holds (add s x) y) =
              (rest.filter fun y => !holds s y).filter fun y => r y x = false := by
            rw [List.filter_filter]
            refine List.filter_congr fun y _ => ?_
            rw [hholds s x hx]
            cases holds s y <;> cases r y x <;> rfl
          rw [hnew s x hx, hentry, hrest]
          simp [List.eraseDupsBy_cons]

end

end LoadBridge
