import LoadBridge.Proofs.Name.Table

/-!
# Names — Respellings

A name may be written with blanks before it, with a `::` in front, and with blanks anywhere in it
(`Name.Spells`).  All these spellings have one key, the name itself (`Spells.key_eq`), so two
spellings of one name cannot be told apart (`Respelt.key_eq`).
-/

namespace LoadBridge

namespace Text

/-- The second text is the first with blanks put in. -/
inductive Padded : List Char → List Char → Prop where
  | nil : Padded [] []
  | keep {c : Char} {cs padded : List Char} (h : Padded cs padded) : Padded (c :: cs) (c :: padded)
  | blank {c : Char} {cs padded : List Char} (hc : isBlank c = true) (h : Padded cs padded) :
    Padded cs (c :: padded)

/-- A text without blanks. -/
def IsSolid (cs : List Char) : Prop := ∀ c ∈ cs, isBlank c = false

variable {c : Char} {cs padded blanks : List Char}

theorem IsSolid.of_cons (h : IsSolid (c :: cs)) : isBlank c = false ∧ IsSolid cs :=
  List.forall_mem_cons.1 h

theorem isSolid_squeeze (cs : List Char) : IsSolid (squeeze cs) := fun c hc => by
  simpa using (List.mem_filter.1 hc).2

theorem trimStart_blanks (h : ∀ c ∈ blanks, isBlank c = true) :
    trimStart (blanks ++ cs) = trimStart cs :=
  List.dropWhile_append_of_pos h

theorem trimStart_cons (hc : isBlank c = false) : trimStart (c :: cs) = c :: cs :=
  List.dropWhile_cons_of_neg (by rw [hc]; exact Bool.false_ne_true)

theorem dropScopeMarks_cons (hc : c ≠ ':') : dropScopeMarks (c :: cs) = c :: cs := by
  rw [dropScopeMarks]
  rintro rest h
  exact hc (List.cons.inj h).1

/-- A text is padded with the blanks it has. -/
theorem padded_squeeze : ∀ cs : List Char, Padded (squeeze cs) cs
  | [] => .nil
  | c :: rest => by
      by_cases hc : isBlank c = true
      · rw [squeeze, List.filter_cons_of_neg (by rw [hc]; decide)]
        exact .blank hc (padded_squeeze rest)
      · rw [squeeze, List.filter_cons_of_pos (by simpa using hc)]
        exact .keep (padded_squeeze rest)

namespace Padded

/-- Without its blanks a padded text is what it was. -/
theorem squeeze_eq (h : Padded cs padded) (hcs : IsSolid cs) : squeeze padded = cs := by
  induction h with
  | nil => rfl
  | keep _ ih =>
      obtain ⟨hc, hrest⟩ := hcs.of_cons
      exact (List.filter_cons_of_pos (by rw [hc]; rfl)).trans (congrArg _ (ih hrest))
  | blank hc _ ih => exact (List.filter_cons_of_neg (by rw [hc]; decide)).trans (ih hcs)

theorem trimStart (h : Padded cs padded) (hcs : IsSolid cs) : Padded cs (trimStart padded) := by
  induction h with
  | nil => exact .nil
  | keep h _ =>
      rw [trimStart_cons hcs.of_cons.1]
      exact .keep h
  | blank hc _ ih =>
      rw [Text.trimStart, List.dropWhile_cons_of_pos hc]
      exact ih hcs

/-- Blanks make no `::` at the start of a text that starts with no colon. -/
theorem dropScopeMarks_eq (h : Padded cs padded) (hcs : cs.head? ≠ some ':') :
    dropScopeMarks padded = padded := by
  cases h with
  | nil => rfl
  | keep => exact dropScopeMarks_cons fun hc => hcs (congrArg some hc)
  | blank hc =>
      refine dropScopeMarks_cons ?_
      rintro rfl
      exact absurd hc (by decide)

end Padded

end Text

namespace Name

open Text

/-- `text` is a way to write `name`: blanks, at most one `::`, and the name with blanks anywhere in
it.  The name itself has no blanks and does not start with a colon. -/
structure Spells (text name : String) : Prop where
  solid : IsSolid name.toList
  unmarked : name.toList.head? ≠ some ':'
  written : ∃ blanks mark padded, text.toList = blanks ++ (mark ++ padded) ∧
    (∀ c ∈ blanks, isBlank c = true) ∧ (mark = [] ∨ mark = "::".toList) ∧
    Padded name.toList padded

/-- What is written after the blanks and the `::` spells the name that it is without its blanks. -/
theorem Spells.of_squeeze {text name : String} (blanks mark padded : List Char)
    (htext : text.toList = blanks ++ (mark ++ padded)) (hblanks : ∀ c ∈ blanks, isBlank c = true)
    (hmark : mark = [] ∨ mark = "::".toList) (hname : squeeze padded = name.toList)
    (hunmarked : name.toList.head? ≠ some ':') : Spells text name where
  solid := hname ▸ isSolid_squeeze padded
  unmarked := hunmarked
  written := ⟨blanks, mark, padded, htext, hblanks, hmark, hname ▸ padded_squeeze padded⟩

/-- A name without blanks that starts with no colon spells itself. -/
theorem spells_self {name : String} (hsolid : squeeze name.toList = name.toList)
    (hunmarked : name.toList.head? ≠ some ':') : Spells name name :=
  .of_squeeze [] [] name.toList (by simp) (by simp) (.inl rfl) hsolid hunmarked

/-- **The key of a spelling is the name it spells.** -/
theorem Spells.key_eq {text name : String} (h : Spells text name) : key text = name := by
  obtain ⟨blanks, mark, padded, htext, hblanks, hmark, hpadded⟩ := h.written
  have hkey : keyChars text.toList = name.toList := by
    rw [keyChars, htext, trimStart_blanks hblanks]
    rcases hmark with rfl | rfl
    · have htrimmed := hpadded.trimStart h.solid
      rw [List.nil_append, htrimmed.dropScopeMarks_eq h.unmarked, htrimmed.squeeze_eq h.solid]
    · have hmarks : dropScopeMarks (Text.trimStart ("::".toList ++ padded)) = padded := by
        change dropScopeMarks (Text.trimStart (':' :: ':' :: padded)) = padded
        rw [trimStart_cons (by decide), dropScopeMarks, hpadded.dropScopeMarks_eq h.unmarked]
      rw [hmarks, hpadded.squeeze_eq h.solid]
  rw [key, hkey, String.ofList_toList]

/-- The same text, or another spelling of the same name. -/
def Respelt (a b : String) : Prop := a = b ∨ ∃ name, Spells a name ∧ Spells b name

theorem Respelt.key_eq {a b : String} (h : Respelt a b) : key a = key b := by
  rcases h with rfl | ⟨name, ha, hb⟩
  · rfl
  · rw [ha.key_eq, hb.key_eq]

end Name

end LoadBridge
