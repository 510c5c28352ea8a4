import LoadBridge.Proofs.Name.Respelling
import Mathlib.Data.List.DropRight

/-!
# Names — Keys of trimmed names

Trimming takes blanks off the two ends of a text and nothing else (`exists_trim`), and a key does
not see them (`keyChars_trim`).  A key has no blanks itself, but it may start with a `::` again,
which a blank held apart from the one before it.  Where the name has one word before its template
bracket there is no such blank, and the key is its own key (`keyChars_keyChars`).
-/

namespace LoadBridge

namespace Text

/-! ### Trimming -/

/-- A text of blanks. -/
def IsBlanks (cs : List Char) : Prop := ∀ c ∈ cs, isBlank c = true

variable {c : Char} {cs lead tail : List Char}

theorem isBlanks_nil : IsBlanks [] := fun _ h => (List.not_mem_nil h).elim

theorem IsBlanks.trimStart_eq (h : IsBlanks cs) : trimStart cs = [] := List.dropWhile_eq_nil_iff.2 h

theorem trimStart_append (cs rest : List Char) : trimStart (cs ++ rest) =
    if trimStart cs = [] then trimStart rest else trimStart cs ++ rest := by
  by_cases h : cs.dropWhile isBlank = [] <;> simp [trimStart, List.dropWhile_append, h]

theorem trimEnd_eq_rdropWhile (cs : List Char) : trimEnd cs = cs.rdropWhile isBlank := rfl

theorem trimEnd_concat (hc : isBlank c = false) : trimEnd (cs ++ [c]) = cs ++ [c] := by
  rw [trimEnd_eq_rdropWhile, List.rdropWhile_concat_neg _ _ _ (by simp [hc])]

theorem trimEnd_append_blanks (h : IsBlanks tail) : trimEnd (cs ++ tail) = trimEnd cs := by
  rw [trimEnd, List.reverse_append, trimEnd,
    List.dropWhile_append_of_pos fun c hc => h c (by simpa using hc)]

/-- A character that is no blank stops the trimming before it. -/
theorem trimStart_append_cons (hc : isBlank c = false) (rest : List Char) :
    trimStart (cs ++ c :: rest) = trimStart cs ++ c :: rest := by
  rw [trimStart_append]
  split
  · next h => rw [h, trimStart_cons hc, List.nil_append]
  · rfl

/-- What trimming leaves of a text stands between blanks. -/
theorem exists_trim (cs : List Char) :
    ∃ lead tail, cs = lead ++ (trim cs ++ tail) ∧ IsBlanks lead ∧ IsBlanks tail := by
  refine ⟨cs.takeWhile isBlank, (trimStart cs).rtakeWhile isBlank, ?_, ?_, ?_⟩
  · rw [trim, trimEnd_eq_rdropWhile, List.rdropWhile_append_rtakeWhile, trimStart,
      List.takeWhile_append_dropWhile]
  · exact fun c => List.mem_takeWhile_imp
  · exact fun c => List.mem_rtakeWhile_imp

theorem trim_subset (cs : List Char) : trim cs ⊆ cs := fun _ hc =>
  (List.dropWhile_suffix _).subset ((List.rdropWhile_prefix isBlank _).subset hc)

/-- Blanks around a text are lost when it is trimmed. -/
theorem trim_append_blanks (hlead : IsBlanks lead) (htail : IsBlanks tail) :
    trim (lead ++ (cs ++ tail)) = trim cs := by
  rw [trim, trimStart_blanks hlead, trimStart_append, trim]
  split
  · next h => rw [h, htail.trimStart_eq]
  · rw [trimEnd_append_blanks htail]

theorem trim_trim (cs : List Char) : trim (trim cs) = trim cs := by
  obtain ⟨lead, tail, hcs, hlead, htail⟩ := exists_trim cs
  rw [← trim_append_blanks hlead htail, ← hcs]

theorem trim_trimEnd (cs : List Char) : trim (trimEnd cs) = trim cs := by
  have htail : IsBlanks (cs.rtakeWhile isBlank) := fun _ => List.mem_rtakeWhile_imp
  rw [← trim_append_blanks isBlanks_nil htail, List.nil_append, trimEnd_eq_rdropWhile,
    List.rdropWhile_append_rtakeWhile]

theorem trim_trimStart (cs : List Char) : trim (trimStart cs) = trim cs := by
  have hlead : IsBlanks (cs.takeWhile isBlank) := fun _ => List.mem_takeWhile_imp
  rw [← trim_append_blanks hlead isBlanks_nil, List.append_nil, trimStart,
    List.takeWhile_append_dropWhile]

theorem squeeze_eq_nil_iff : squeeze cs = [] ↔ IsBlanks cs := by
  simp [squeeze, IsBlanks]

theorem squeeze_trimStart (cs : List Char) : squeeze (trimStart cs) = squeeze cs := by
  have hlead : squeeze (cs.takeWhile isBlank) = [] :=
    squeeze_eq_nil_iff.2 fun _ => List.mem_takeWhile_imp
  conv_rhs => rw [← List.takeWhile_append_dropWhile (p := isBlank) (l := cs), squeeze_append, hlead]
  rfl

theorem squeeze_trim (cs : List Char) : squeeze (trim cs) = squeeze cs := by
  obtain ⟨lead, tail, hcs, hlead, htail⟩ := exists_trim cs
  conv_rhs => rw [hcs, squeeze_append, squeeze_append, squeeze_eq_nil_iff.2 hlead,
    squeeze_eq_nil_iff.2 htail, List.nil_append, List.append_nil]

theorem trim_eq_nil_iff : trim cs = [] ↔ squeeze cs = [] := by
  refine ⟨fun h => by rw [← squeeze_trim, h]; rfl, fun h => ?_⟩
  have hblanks := squeeze_eq_nil_iff.1 h
  rw [← List.append_nil cs, ← List.nil_append [], trim_append_blanks hblanks isBlanks_nil]
  rfl

/-! ### Texts without blanks -/

theorem IsSolid.squeeze_eq (h : IsSolid cs) : squeeze cs = cs :=
  List.filter_eq_self.2 fun c hc => by simp [h c hc]

theorem IsSolid.trimStart_eq (h : IsSolid cs) : trimStart cs = cs := by
  cases cs with
  | nil => rfl
  | cons c cs => exact trimStart_cons h.of_cons.1

theorem IsSolid.trim_eq (h : IsSolid cs) : trim cs = cs := by
  rw [trim, h.trimStart_eq]
  rcases List.eq_nil_or_concat' cs with rfl | ⟨first, c, rfl⟩
  · rfl
  · exact trimEnd_concat (h c (by simp))

/-! ### Words -/

theorem isWord_iff : isWord cs = true ↔ trim cs ≠ [] ∧ IsSolid (trim cs) := by
  simp [isWord, IsSolid]

theorem isWord_congr {as bs : List Char} (h : trim as = trim bs) : isWord as = isWord bs := by
  rw [isWord, isWord, h]

theorem IsSolid.isWord_iff (h : IsSolid cs) : isWord cs = true ↔ cs ≠ [] := by
  rw [Text.isWord_iff, h.trim_eq, and_iff_left h]

/-- What a text begins with is one word or none, whether the text is trimmed or not. -/
theorem isWord_takeWhile_trim {p : Char → Bool} (hp : ∀ c, isBlank c = true → p c = true)
    (cs : List Char) : isWord ((trim cs).takeWhile p) = isWord (cs.takeWhile p) := by
  obtain ⟨lead, tail, hcs, hlead, htail⟩ := exists_trim cs
  have htailp : tail.takeWhile p = tail :=
    List.takeWhile_eq_self_iff.2 fun c hc => hp c (htail c hc)
  refine (isWord_congr ?_).symm
  conv_lhs => rw [hcs, List.takeWhile_append_of_pos fun c hc => hp c (hlead c hc),
    List.takeWhile_append]
  split
  · next hwhole =>
    have hself : (trim cs).takeWhile p = trim cs :=
      (List.takeWhile_prefix p).eq_of_length hwhole
    rw [htailp, hself, trim_append_blanks hlead htail]
  · rw [← List.append_nil ((trim cs).takeWhile p), trim_append_blanks hlead isBlanks_nil,
      List.append_nil]

/-! ### Scope marks -/

theorem dropScopeMarks_suffix (cs : List Char) : dropScopeMarks cs <:+ cs := by
  fun_induction dropScopeMarks cs with
  | case1 cs ih => exact ih.trans ⟨[':', ':'], rfl⟩
  | case2 => exact List.suffix_rfl

theorem dropScopeMarks_eq_self (h : ¬[':', ':'] <+: cs) : dropScopeMarks cs = cs := by
  rw [dropScopeMarks]
  rintro rest rfl
  exact h ⟨rest, rfl⟩

/-- Something other than blanks is dropped exactly where a mark stands first. -/
theorem squeeze_dropScopeMarks_eq_iff :
    squeeze (dropScopeMarks cs) = squeeze cs ↔ ¬[':', ':'] <+: cs := by
  constructor
  · rintro h ⟨rest, rfl⟩
    have hshorter : (squeeze (dropScopeMarks rest)).length ≤ (squeeze rest).length :=
      ((dropScopeMarks_suffix rest).sublist.filter _).length_le
    have hlonger : (squeeze (dropScopeMarks rest)).length = (squeeze rest).length + 2 :=
      congrArg List.length h
    omega
  · intro h
    rw [dropScopeMarks_eq_self h]

theorem dropScopeMarks_eq_self_iff : dropScopeMarks cs = cs ↔ ¬[':', ':'] <+: cs :=
  ⟨fun h => squeeze_dropScopeMarks_eq_iff.1 (congrArg squeeze h), dropScopeMarks_eq_self⟩

/-- Blanks hide no colon. -/
theorem IsBlanks.head?_append_ne {rest : List Char} (h : IsBlanks tail)
    (hrest : rest.head? ≠ some ':') : (tail ++ rest).head? ≠ some ':' := by
  cases tail with
  | nil => exact hrest
  | cons c tail =>
    intro hcolon
    obtain rfl : c = ':' := Option.some.inj hcolon
    exact absurd (h _ List.mem_cons_self) (by decide)

/-- The marks a text starts with are those it starts with when something other than a colon
follows. -/
theorem dropScopeMarks_append {rest : List Char} (hrest : rest.head? ≠ some ':') :
    dropScopeMarks (cs ++ rest) = dropScopeMarks cs ++ rest := by
  fun_induction dropScopeMarks cs with
  | case1 cs ih => rw [List.cons_append, List.cons_append, dropScopeMarks, ih]
  | case2 cs hcs =>
    refine dropScopeMarks_eq_self ?_
    rintro ⟨more, hmore⟩
    rcases cs with _ | ⟨c, _ | ⟨d, cs⟩⟩
    · exact hrest (congrArg List.head? hmore).symm
    · exact hrest (congrArg (fun cs => cs.tail.head?) hmore).symm
    · obtain ⟨hc, hmore⟩ := List.cons.inj hmore
      obtain ⟨hd, -⟩ := List.cons.inj hmore
      exact hcs cs (by rw [← hc, ← hd])

theorem dropScopeMarks_dropScopeMarks (cs : List Char) :
    dropScopeMarks (dropScopeMarks cs) = dropScopeMarks cs := by
  fun_induction dropScopeMarks cs with
  | case1 cs ih => exact ih
  | case2 cs hcs =>
    rw [dropScopeMarks]
    exact hcs

theorem IsSolid.dropScopeMarks (h : IsSolid cs) : IsSolid (dropScopeMarks cs) :=
  fun c hc => h c ((dropScopeMarks_suffix cs).subset hc)

end Text

namespace Name

open Text

variable {cs lead tail : List Char}

/-! ### Keys -/

theorem isSolid_keyChars (cs : List Char) : IsSolid (keyChars cs) := isSolid_squeeze _

/-- The key of a text without blanks. -/
theorem keyChars_eq (h : IsSolid cs) : keyChars cs = dropScopeMarks cs := by
  rw [keyChars, h.trimStart_eq, h.dropScopeMarks.squeeze_eq]

/-- Blanks around a name are not in its key. -/
theorem keyChars_append_blanks (hlead : IsBlanks lead) (htail : IsBlanks tail) :
    keyChars (lead ++ (cs ++ tail)) = keyChars cs := by
  have hhead : tail.head? ≠ some ':' := by
    simpa using htail.head?_append_ne (show [].head? ≠ some ':' by simp)
  rw [keyChars, trimStart_blanks hlead, trimStart_append, keyChars]
  split
  · next h => rw [h, htail.trimStart_eq]
  · rw [dropScopeMarks_append hhead, squeeze_append, squeeze_eq_nil_iff.2 htail, List.append_nil]

theorem keyChars_blanks_append (hlead : IsBlanks lead) : keyChars (lead ++ cs) = keyChars cs := by
  rw [keyChars, trimStart_blanks hlead, keyChars]

theorem keyChars_trim (cs : List Char) : keyChars (trim cs) = keyChars cs := by
  obtain ⟨lead, tail, hcs, hlead, htail⟩ := exists_trim cs
  conv_rhs => rw [hcs, keyChars_append_blanks hlead htail]

/-- Characters other than blanks and colons are in the key as they are in the name. -/
theorem filter_keyChars {p : Char → Bool} (hblank : ∀ c, isBlank c = true → p c = false)
    (hcolon : p ':' = false) (cs : List Char) : (keyChars cs).filter p = cs.filter p := by
  have hmarks (cs : List Char) : (dropScopeMarks cs).filter p = cs.filter p := by
    fun_induction dropScopeMarks cs with
    | case1 cs ih => simp [ih, hcolon]
    | case2 => rfl
  have hblanks : (cs.takeWhile isBlank).filter p = [] :=
    List.filter_eq_nil_iff.2 fun c hc => by simp [hblank c (List.mem_takeWhile_imp hc)]
  have hsqueeze (cs : List Char) : (squeeze cs).filter p = cs.filter p := by
    rw [squeeze, List.filter_filter]
    refine List.filter_congr fun c _ => ?_
    cases hc : isBlank c <;> simp [hblank c, hc]
  calc (keyChars cs).filter p
      = (trimStart cs).filter p := by rw [keyChars, hsqueeze, hmarks]
    _ = (cs.takeWhile isBlank ++ trimStart cs).filter p := by rw [List.filter_append, hblanks]; rfl
    _ = cs.filter p := congrArg _ List.takeWhile_append_dropWhile

theorem keyChars_subset (cs : List Char) : keyChars cs ⊆ cs :=
  fun _ hc => (List.dropWhile_suffix _).subset ((dropScopeMarks_suffix _).subset
    (List.mem_filter.1 hc).1)

/-- A text with a key is not made of blanks. -/
theorem squeeze_ne_nil (h : keyChars cs ≠ []) : squeeze cs ≠ [] := fun hsqueeze => h <| by
  rw [← keyChars_trim, trim_eq_nil_iff.2 hsqueeze]
  rfl

/-- No blanks hold the `::` apart that a name starts with. -/
def MarksTogether (s : String) : Prop :=
  relative s = s ∨ ¬[':', ':'] <+: trimStart (relative s).toList

instance (s : String) : Decidable (MarksTogether s) :=
  inferInstanceAs (Decidable (relative s = s ∨ ¬[':', ':'] <+: trimStart (relative s).toList))

/-- **Where the marks are taken off first, the key is the same exactly if they stand together.** -/
theorem key_relative_eq_iff (s : String) : key (relative s) = key s ↔ MarksTogether s := by
  rw [MarksTogether]
  by_cases hmarks : [':', ':'] <+: s.toList
  · have hne : relative s ≠ s := by
      intro heq
      refine dropScopeMarks_eq_self_iff.1 ?_ hmarks
      rw [← String.toList_ofList (l := dropScopeMarks s.toList)]
      exact congrArg String.toList heq
    have hstart : trimStart s.toList = s.toList := by
      obtain ⟨rest, hrest⟩ := hmarks
      rw [← hrest]
      exact trimStart_cons (by decide)
    rw [or_iff_right hne, ← squeeze_dropScopeMarks_eq_iff, squeeze_trimStart, key, key,
      String.ofList_inj, keyChars, keyChars, hstart, relative, String.toList_ofList]
  · have hself : relative s = s := by
      rw [relative, dropScopeMarks_eq_self hmarks, String.ofList_toList]
    simp [hself]

/-- The text of a name before its template bracket. -/
def beforeBracket (cs : List Char) : List Char := cs.takeWhile (· != '<')

theorem isWord_beforeBracket_trim (cs : List Char) :
    isWord (beforeBracket (trim cs)) = isWord (beforeBracket cs) :=
  isWord_takeWhile_trim (fun c hc => bne_iff_ne.2 fun h => absurd (h ▸ hc) (by decide)) cs

/-- What a template bracket follows is one word if the text before it is. -/
theorem isWord_splitTemplate (cs : List Char) :
    isWord (splitTemplate (.ofList cs)).1.toList = isWord (beforeBracket cs) := by
  rw [splitTemplate, String.toList_ofList, beforeBracket]
  split
  · next h =>
    rw [String.toList_ofList, List.takeWhile_eq_self_iff.2 (List.dropWhile_eq_nil_iff.1 h)]
  · rw [String.toList_ofList]
    exact isWord_congr (trim_trimEnd _)

/-- What follows the text before the template bracket is nothing or the bracket. -/
theorem bracket_cases (cs : List Char) : cs.dropWhile (· != '<') = [] ∨
    ∃ inside, cs.dropWhile (· != '<') = '<' :: inside := by
  have hfirst := List.head?_dropWhile_not (· != '<') cs
  cases h : cs.dropWhile (· != '<') with
  | nil => exact .inl rfl
  | cons c inside =>
    rw [h] at hfirst
    obtain rfl : c = '<' := by simpa using hfirst
    exact .inr ⟨inside, rfl⟩

/-- The key of a name with one word before its template bracket: the word without the `::` it starts
with, then the bracket without blanks. -/
theorem keyChars_of_isWord (h : isWord (beforeBracket cs) = true) :
    keyChars cs =
      dropScopeMarks (trim (beforeBracket cs)) ++ squeeze (cs.dropWhile (· != '<')) := by
  obtain ⟨hne, hsolid⟩ := isWord_iff.1 h
  obtain ⟨lead, tail, hword, hlead, htail⟩ := exists_trim (beforeBracket cs)
  generalize hbracket : cs.dropWhile (· != '<') = bracket
  have hhead : bracket.head? ≠ some ':' := by
    rcases bracket_cases cs with h | ⟨inside, h⟩ <;> simp [← hbracket, h]
  have hcs : cs = lead ++ (trim (beforeBracket cs) ++ (tail ++ bracket)) := by
    rw [← List.append_assoc (trim _), ← List.append_assoc lead, ← hword, ← hbracket]
    exact List.takeWhile_append_dropWhile.symm
  conv_lhs => rw [hcs, keyChars, trimStart_blanks hlead]
  have hstart : trimStart (trim (beforeBracket cs) ++ (tail ++ bracket)) =
      trim (beforeBracket cs) ++ (tail ++ bracket) := by
    cases hword : trim (beforeBracket cs) with
    | nil => exact absurd hword hne
    | cons c word => exact trimStart_cons (hword ▸ hsolid).of_cons.1
  rw [hstart, dropScopeMarks_append (htail.head?_append_ne hhead), squeeze_append,
    squeeze_append,
    squeeze_eq_nil_iff.2 htail, hsolid.dropScopeMarks.squeeze_eq, List.nil_append]

/-- The key of a name with one word before its template bracket is its own key. -/
theorem keyChars_keyChars (h : isWord (beforeBracket cs) = true) :
    keyChars (keyChars cs) = keyChars cs := by
  have hhead : (squeeze (cs.dropWhile (· != '<'))).head? ≠ some ':' := by
    rcases bracket_cases cs with h | ⟨inside, h⟩
    · simp [h, squeeze]
    · rw [h, squeeze, List.filter_cons_of_pos (by decide)]
      simp
  rw [keyChars_eq (isSolid_keyChars cs), keyChars_of_isWord h, dropScopeMarks_append hhead,
    dropScopeMarks_dropScopeMarks]

end Name

end LoadBridge
