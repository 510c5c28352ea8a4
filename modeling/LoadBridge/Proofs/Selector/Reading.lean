import LoadBridge.Selector
import LoadBridge.Proofs.Name.Key
import LoadBridge.Proofs.Text.Pieces

/-!
# Selectors — Reading

The text of a selector is a name, with a list of argument types in parentheses or without one.  A
name is read where it has one word before its template bracket, and its key is what is kept of it
(`ofName_eq_ok_iff`).  Types that can be listed are read back from their list, each as its key
(`argumentKeys_listed`), and what is read of any list are the keys of types that can be listed
(`exists_of_argumentKeys`).
-/

namespace LoadBridge

namespace Text

variable {cs : List Char}

theorem Brackets.call_isMark_of_isBlank {c : Char} (hc : isBlank c = true) :
    Brackets.call.isMark c = false := by
  by_contra h
  simp only [isMark, call, Bool.not_eq_false, Bool.or_eq_true, beq_iff_eq] at h
  rcases h with (rfl | rfl | rfl) | rfl | rfl <;> exact absurd hc (by decide)

/-- What is taken off the ends of a list is not in the keys of its pieces. -/
theorem map_keyChars_commaPieces_trim (cs : List Char) :
    (commaPieces .call 0 (trim cs)).map Name.keyChars =
      (commaPieces .call 0 cs).map Name.keyChars := by
  obtain ⟨lead, tail, hcs, hlead, htail⟩ := exists_trim cs
  have hmarks {blanks : List Char} (h : IsBlanks blanks) :
      ∀ c ∈ blanks, Brackets.call.isMark c = false :=
    fun c hc => Brackets.call_isMark_of_isBlank (h c hc)
  have ⟨hpiece, hdepth⟩ : IsPiece .call 0 lead ∧ Brackets.call.afterText 0 lead = 0 :=
    isPiece_of_not_isMark (hmarks hlead)
  obtain ⟨first, last, hcut, hcut'⟩ := commaPieces_append_of_not_isMark (hmarks htail) 0 (trim cs)
  conv_rhs => rw [hcs, hpiece.commaPieces_append, hdepth, hcut']
  rw [hcut]
  have hlast (p : List Char) : Name.keyChars (p ++ tail) = Name.keyChars p :=
    Name.keyChars_append_blanks isBlanks_nil htail
  have hfirst (p : List Char) : Name.keyChars (lead ++ p) = Name.keyChars p :=
    Name.keyChars_blanks_append hlead
  cases first <;> simp [hlast, hfirst]

end Text

namespace Selector

open Text Name

variable {cs name inner : List Char} {ps : List (List Char)} {s : Selector}
  {args : Option (List String)}

/-! ### Names -/

/-- **A name is read where it has one word before its template bracket.** -/
theorem ofName_eq_ok_iff : ofName name args = .ok s ↔
    isWord (beforeBracket name) = true ∧ s = ⟨.ofList (keyChars name), args⟩ := by
  rw [ofName, isWord_splitTemplate]
  by_cases hempty : name.isEmpty = true
  · obtain rfl := List.isEmpty_iff.1 hempty
    simp [beforeBracket, isWord, trim, trimStart, trimEnd]
  · rw [if_neg hempty]
    split
    · next hword => simpa [hword] using eq_comm
    · next hword => simp [hword]

theorem ofName_trim_eq_ok_iff : ofName (trim name) args = .ok s ↔
    isWord (beforeBracket name) = true ∧ s = ⟨.ofList (keyChars name), args⟩ := by
  rw [ofName_eq_ok_iff, isWord_beforeBracket_trim, keyChars_trim]

/-! ### Lists of types -/

/-- Texts as they are listed, with a comma and a space between them. -/
def listed (ps : List (List Char)) : List Char := [',', ' '].intercalate ps

/-- The texts of a list that says that there is none: a function without arguments takes `void`. -/
def IsVoid (ps : List (List Char)) : Prop := ps.map trim = ["void".toList]

theorem map_keyChars_listed (h : ArePieces .call 0 ps) :
    (commaPieces .call 0 (trim (listed ps))).map keyChars = ps.map keyChars := by
  cases ps with
  | nil => exact h.elim
  | cons p ps =>
    have hspace (p : List Char) : keyChars (' ' :: p) = keyChars p :=
      keyChars_blanks_append (List.forall_mem_singleton.2 (by decide))
    rw [map_keyChars_commaPieces_trim, listed, commaPieces_intercalate (by decide) h]
    simp [hspace]

/-- A list of one text that is not `void`, or of more, does not read as `void`. -/
theorem trim_listed_ne_void (h : ArePieces .call 0 ps) (hvoid : ¬IsVoid ps) :
    trim (listed ps) ≠ "void".toList := by
  intro heq
  match ps with
  | [] => exact h
  | [p] => exact hvoid (by simpa [IsVoid, listed] using heq)
  | p :: q :: ps =>
    have hcomma : ',' ∈ squeeze (listed (p :: q :: ps)) := by
      refine List.mem_filter.2 ⟨?_, by decide⟩
      rw [listed, List.intercalate_cons_cons]
      simp
    rw [← squeeze_trim, heq] at hcomma
    exact absurd hcomma (by decide)

/-- **Types come back from their list as their keys**, unless the list is `void` or one of them has
no key. -/
theorem argumentKeys_listed (h : ArePieces .call 0 ps) (hne : ∀ p ∈ ps, squeeze p ≠ [])
    (hvoid : ¬IsVoid ps) : argumentKeys (trim (listed ps)) =
      if [] ∈ ps.map keyChars then .error .emptyArgument
      else .ok (ps.map fun p => .ofList (keyChars p)) := by
  have hsome : trim (listed ps) ≠ [] := by
    rw [Ne, trim_eq_nil_iff, squeeze_eq_nil_iff]
    intro hblank
    cases ps with
    | nil => exact h
    | cons p ps =>
      refine hne p List.mem_cons_self (squeeze_eq_nil_iff.2 fun c hc => hblank c ?_)
      cases ps <;> simp [listed, hc]
  have hkeys := map_keyChars_listed h
  have hvoid := trim_listed_ne_void h hvoid
  rw [argumentKeys, if_neg (by rw [Bool.or_eq_true, List.isEmpty_iff, beq_iff_eq]; tauto)]
  simp only [hkeys, List.any_eq_true, List.isEmpty_iff, exists_eq_right, List.map_map,
    Function.comp_def]

/-- What is read of a list are the keys of types that can be listed, or none. -/
theorem exists_of_argumentKeys {keys : List String} (h : argumentKeys inner = .ok keys) :
    keys = [] ∨ ∃ ps, ArePieces .call 0 ps ∧ (∀ p ∈ ps, keyChars p ≠ []) ∧
      keys = ps.map fun p => .ofList (keyChars p) := by
  rw [argumentKeys] at h
  split at h
  · exact .inl (Except.ok.inj h).symm
  · simp only at h
    split at h
    · cases h
    · next hany =>
      refine .inr ⟨_, arePieces_commaPieces .call 0 inner, fun p hp hempty => hany ?_, ?_⟩
      · exact List.any_eq_true.2 ⟨[], hempty ▸ List.mem_map_of_mem hp, rfl⟩
      · rw [← Except.ok.inj h, List.map_map]
        rfl

/-! ### Names and lists -/

theorem ofChars_eq_of_not_mem (h : '(' ∉ cs) (hcs : cs ≠ []) : ofChars cs = ofName cs none := by
  have hall : cs.dropWhile (· != '(') = [] :=
    List.dropWhile_eq_nil_iff.2 fun c hc => by
      simpa using fun heq : c = '(' => h (heq ▸ hc)
  rw [ofChars, if_neg (by simpa using hcs), hall]

/-- A name with a list behind it. -/
theorem ofChars_trim_call (h : '(' ∉ name) (inner : List Char) :
    ofChars (trim (name ++ '(' :: (inner ++ [')']))) =
      argumentKeys (trim inner) >>= fun keys => ofName (trim name) (some keys) := by
  have htrim : trim (name ++ '(' :: (inner ++ [')'])) =
      trimStart name ++ '(' :: (inner ++ [')']) := by
    rw [trim, trimStart_append_cons (by decide), ← List.cons_append, ← List.append_assoc]
    exact trimEnd_concat (by decide)
  have hname : ∀ c ∈ trimStart name, (c != '(') = true := fun c hc => by
    simpa using fun heq : c = '(' => h (heq ▸ (List.dropWhile_suffix _).subset hc)
  rw [htrim, ofChars, if_neg (by simp), List.dropWhile_append_of_pos hname,
    List.takeWhile_append_of_pos hname, List.dropWhile_cons_of_neg (by simp),
    List.takeWhile_cons_of_neg (by simp), List.append_nil]
  simp only [List.getLast?_concat, if_pos, List.dropLast_concat, trim_trimStart]

end Selector

end LoadBridge
