import Mathlib.Data.List.Infix

/-!
# Text — Balance

A text is balanced in a pair of brackets when it has as many of the one as of the other and no
beginning of it closes a bracket that is not open.  A text stays balanced behind another
(`Balanced.append`) and within a pair of brackets (`Balanced.wrap`).  Whether it is balanced is
decided by counting the brackets that are open (`closesAll_iff`).
-/

namespace LoadBridge.Text

/-- No beginning of the text closes more than it opens, and the whole of it closes as much. -/
structure Balanced (opening closing : Char) (cs : List Char) : Prop where
  count_le : ∀ first, first <+: cs → first.count closing ≤ first.count opening
  count_eq : cs.count opening = cs.count closing

variable {opening closing : Char} {cs rest : List Char}

/-- A text without brackets is balanced. -/
theorem balanced_of_not_mem (ho : opening ∉ cs) (hc : closing ∉ cs) :
    Balanced opening closing cs where
  count_le first hfirst := by
    rw [List.count_eq_zero.2 fun h => hc (hfirst.subset h)]
    exact Nat.zero_le _
  count_eq := by rw [List.count_eq_zero.2 ho, List.count_eq_zero.2 hc]

theorem Balanced.append (h : Balanced opening closing cs) (hrest : Balanced opening closing rest) :
    Balanced opening closing (cs ++ rest) where
  count_le first hfirst := by
    rcases List.prefix_or_prefix_of_prefix hfirst (List.prefix_append cs rest) with
      hcs | ⟨more, rfl⟩
    · exact h.count_le first hcs
    · have hmore := hrest.count_le more ((List.prefix_append_right_inj cs).1 hfirst)
      rw [List.count_append, List.count_append, h.count_eq]
      exact Nat.add_le_add_left hmore _
  count_eq := by rw [List.count_append, List.count_append, h.count_eq, hrest.count_eq]

theorem Balanced.wrap (hne : opening ≠ closing) (h : Balanced opening closing cs) :
    Balanced opening closing (opening :: cs ++ [closing]) where
  count_le first hfirst := by
    rcases List.prefix_cons_iff.1 hfirst with rfl | ⟨inner, rfl, hinner⟩
    · exact Nat.le_refl _
    rw [List.count_cons_self, List.count_cons_of_ne hne]
    rcases List.prefix_concat_iff.1 hinner with rfl | hcs
    · rw [List.count_append, List.count_append, h.count_eq]
      simp [hne.symm]
    · exact Nat.le_succ_of_le (h.count_le inner hcs)
  count_eq := by
    rw [List.count_append, List.count_append, List.count_cons_self, List.count_cons_of_ne hne,
      h.count_eq]
    simp [hne.symm]

/-! ### Counting what is open -/

/-- Whether all brackets are closed after the text, where `depth` are open before it, and none is
closed that is not open. -/
def closesAll (opening closing : Char) : Nat → List Char → Bool
  | depth, [] => depth == 0
  | depth, c :: rest =>
    if c = opening then closesAll opening closing (depth + 1) rest
    else if c = closing then
      match depth with
      | 0 => false
      | depth + 1 => closesAll opening closing depth rest
    else closesAll opening closing depth rest

theorem forall_prefix_cons {P : List Char → Prop} {c : Char} :
    (∀ first, first <+: c :: rest → P first) ↔ P [] ∧ ∀ first, first <+: rest → P (c :: first) := by
  constructor
  · intro h
    exact ⟨h [] List.nil_prefix, fun first hfirst => h _ ((List.prefix_cons_inj c).2 hfirst)⟩
  · rintro ⟨hnil, hcons⟩ first hfirst
    rcases List.prefix_cons_iff.1 hfirst with rfl | ⟨more, rfl, hmore⟩
    · exact hnil
    · exact hcons more hmore

/-- What is counted are the brackets of the text, behind those that are open. -/
theorem closesAll_iff (hne : opening ≠ closing) (depth : Nat) (cs : List Char) :
    closesAll opening closing depth cs = true ↔
      (∀ first, first <+: cs → first.count closing ≤ depth + first.count opening) ∧
        depth + cs.count opening = cs.count closing := by
  induction cs generalizing depth with
  | nil => simp [closesAll]
  | cons c rest ih =>
    rw [forall_prefix_cons]
    by_cases hopening : c = opening
    · subst hopening
      simp only [closesAll, if_true, List.count_cons_self, List.count_cons_of_ne hne,
        List.count_nil, Nat.zero_le, true_and]
      refine (ih (depth + 1)).trans (and_congr (forall₂_congr fun first _ => ?_) ?_) <;> omega
    by_cases hclosing : c = closing
    · subst hclosing
      simp only [closesAll, if_neg hne.symm, if_true, List.count_cons_self,
        List.count_cons_of_ne hne.symm, List.count_nil, Nat.zero_le, true_and]
      cases depth with
      | zero =>
        refine ⟨fun h => (nomatch h), fun h => ?_⟩
        have hfirst := h.1 [] List.nil_prefix
        simp at hfirst
      | succ depth =>
        refine (ih depth).trans (and_congr (forall₂_congr fun first _ => ?_) ?_) <;> omega
    · simp only [closesAll, if_neg hopening, if_neg hclosing, List.count_cons_of_ne hopening,
        List.count_cons_of_ne hclosing, List.count_nil, Nat.zero_le, true_and]
      exact ih depth

instance (opening closing : Char) (cs : List Char) : Decidable (Balanced opening closing cs) :=
  if hne : opening = closing then
    isTrue ⟨fun _ _ => hne ▸ Nat.le_refl _, hne ▸ rfl⟩
  else
    decidable_of_iff (closesAll opening closing 0 cs = true) <| by
      rw [closesAll_iff hne]
      simp only [Nat.zero_add]
      exact ⟨fun h => ⟨h.1, h.2⟩, fun h => ⟨h.1, h.2⟩⟩

end LoadBridge.Text
