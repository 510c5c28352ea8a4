import LoadBridge.Proofs.Outcome
import LoadBridge.Proofs.Selector.Reading

/-!
# Selectors — Display

A selector that was read is displayed by keys, and keys are not always read as themselves.  A name
that is made of `::` alone has an empty key, and a type whose leading marks are held apart by a
blank (`:: ::int`) keeps one of them.  A single type with the key `void` is displayed as the list without
types.  Where none of this is so (`Selector.IsSettled`) the selector is read back from its text, and
only there (`Selector.parse_display_iff`).
-/

namespace LoadBridge

open Text Name

namespace Selector

variable {text : String} {s : Selector}

/-- The name of a selector, as it is written. -/
def writtenName (text : String) : List Char := trim ((trim text.toList).takeWhile (· != '('))

/-- A selector whose parts are read as they are displayed. -/
structure IsSettled (s : Selector) : Prop where
  named : beforeBracket s.name.toList ≠ []
  unmarked : ∀ key ∈ s.args.getD [], ¬[':', ':'] <+: key.toList
  notVoid : s.args ≠ some ["void"]

instance (s : Selector) : Decidable s.IsSettled :=
  decidable_of_iff (beforeBracket s.name.toList ≠ [] ∧
      (∀ key ∈ s.args.getD [], ¬[':', ':'] <+: key.toList) ∧ s.args ≠ some ["void"])
    ⟨fun h => ⟨h.1, h.2.1, h.2.2⟩, fun h => ⟨h.named, h.unmarked, h.notVoid⟩⟩

/-! ### What was read -/

theorem parse_eq_ok_iff : parse text = .ok s ↔ ofChars (trim text.toList) = .ok s := by
  rw [parse]
  cases ofChars (trim text.toList) <;> simp

/-- What is read of a text is its written name and the types in its list, if it has one. -/
theorem ofName_writtenName (h : parse text = .ok s) :
    ofName (writtenName text) s.args = .ok s ∧
      ∀ keys, s.args = some keys → ∃ inner, argumentKeys inner = .ok keys := by
  have hread := parse_eq_ok_iff.1 h
  rw [writtenName, ofName_trim_eq_ok_iff]
  generalize trim text.toList = cs at hread ⊢
  rw [ofChars] at hread
  split at hread
  · cases hread
  · split at hread
    · next hname =>
      have hall : cs.takeWhile (· != '(') = cs :=
        List.takeWhile_eq_self_iff.2 (List.dropWhile_eq_nil_iff.1 hname)
      rw [hall]
      obtain ⟨hword, rfl⟩ := ofName_eq_ok_iff.1 hread
      exact ⟨⟨hword, rfl⟩, fun keys hkeys => by cases hkeys⟩
    · split at hread
      · obtain ⟨keys, hkeys, hname⟩ := bind_eq_ok.1 hread
        obtain ⟨hword, rfl⟩ := ofName_trim_eq_ok_iff.1 hname
        refine ⟨⟨hword, rfl⟩, fun keys' hkeys' => ?_⟩
        cases hkeys'
        exact ⟨_, hkeys⟩
      · cases hread

/-! ### What is displayed -/

theorem toList_display_call (name : String) (keys : List String) :
    (Selector.display ⟨name, some keys⟩).toList =
      name.toList ++ '(' :: (listed (keys.map String.toList) ++ [')']) := by
  simp [display, String.toList_intercalate, listed]

/-- Texts without blanks are read as themselves from their list, where none of them starts with a
mark and the list is not `void`. -/
theorem argumentKeys_solid_iff {ps : List (List Char)} (h : ArePieces .call 0 ps)
    (hsolid : ∀ p ∈ ps, IsSolid p) (hne : ∀ p ∈ ps, p ≠ []) :
    argumentKeys (trim (listed ps)) = .ok (ps.map .ofList) ↔
      (∀ p ∈ ps, ¬[':', ':'] <+: p) ∧ ps ≠ ["void".toList] := by
  have htrim : ps.map trim = ps :=
    (List.map_congr_left fun p hp => (hsolid p hp).trim_eq).trans (List.map_id _)
  by_cases hvoid : ps = ["void".toList]
  · subst hvoid
    have hread : argumentKeys (trim (listed ["void".toList])) = .ok [] := by decide
    refine iff_of_false ?_ fun h => h.2 rfl
    rw [hread]
    exact fun h => absurd (Except.ok.inj h) (List.cons_ne_nil _ _).symm
  · have hsqueeze : ∀ p ∈ ps, squeeze p ≠ [] := fun p hp => by
      rw [(hsolid p hp).squeeze_eq]
      exact hne p hp
    have hself : (∀ p ∈ ps, ¬[':', ':'] <+: p) ↔ ∀ p ∈ ps, keyChars p = p :=
      forall₂_congr fun p hp => by rw [keyChars_eq (hsolid p hp), dropScopeMarks_eq_self_iff]
    rw [argumentKeys_listed h hsqueeze (by rwa [IsVoid, htrim]), and_iff_left hvoid, hself]
    constructor
    · intro hread p hp
      split at hread
      · cases hread
      · have hkeys := List.map_eq_map_iff.1 (Except.ok.inj hread) p hp
        exact String.ofList_injective hkeys
    · intro hkeys
      rw [if_neg, List.map_congr_left fun p hp => congrArg String.ofList (hkeys p hp)]
      rintro hempty
      obtain ⟨p, hp, hkey⟩ := List.mem_map.1 hempty
      exact hne p hp ((hkeys p hp).symm.trans hkey)

/-- **Keys are read as themselves from their list**, under the same conditions. -/
theorem argumentKeys_keys_iff {inner : List Char} {keys : List String}
    (h : argumentKeys inner = .ok keys) :
    argumentKeys (trim (listed (keys.map String.toList))) = .ok keys ↔
      (∀ key ∈ keys, ¬[':', ':'] <+: key.toList) ∧ keys ≠ ["void"] := by
  rcases exists_of_argumentKeys h with rfl | ⟨ps, hps, hkeyed, rfl⟩
  · simp [listed, argumentKeys, trim, trimStart, trimEnd]
  · have hpieces : ArePieces .call 0 (ps.map keyChars) :=
      hps.map fun p _ =>
        filter_keyChars (fun _ => Brackets.call_isMark_of_isBlank) (by decide) p
    have hsolid : ∀ p ∈ ps.map keyChars, IsSolid p :=
      List.forall_mem_map.2 fun p _ => isSolid_keyChars p
    have hread := argumentKeys_solid_iff hpieces hsolid (List.forall_mem_map.2 hkeyed)
    have hkeys : (ps.map fun p => String.ofList (keyChars p)) =
        (ps.map keyChars).map String.ofList := by
      rw [List.map_map]
      rfl
    have htexts : ((ps.map keyChars).map String.ofList).map String.toList = ps.map keyChars := by
      simp [Function.comp_def]
    have hvoid : (ps.map keyChars).map String.ofList = ["void"] ↔
        ps.map keyChars = ["void".toList] := by
      rw [← List.map_inj_right fun _ _ h => String.ofList_injective h]
      simp
    rw [hkeys, htexts, hread, Ne, Ne, hvoid, List.forall_mem_map]
    simp

/-- The written name has one word before its template bracket, and its key is what is kept. -/
theorem toList_name (h : parse text = .ok s) :
    isWord (beforeBracket (writtenName text)) = true ∧
      s.name.toList = keyChars (writtenName text) := by
  obtain ⟨hword, hs⟩ := ofName_eq_ok_iff.1 (ofName_writtenName h).1
  exact ⟨hword, by rw [hs, String.toList_ofList]⟩

/-- The name that is kept is its own key. -/
theorem keyChars_name (h : parse text = .ok s) : keyChars s.name.toList = s.name.toList := by
  obtain ⟨hword, hname⟩ := toList_name h
  rw [hname, keyChars_keyChars hword]

/-- No type that is kept is empty. -/
theorem empty_not_mem_args (h : parse text = .ok s) {keys : List String}
    (hkeys : s.args = some keys) : "" ∉ keys := by
  obtain ⟨inner, hinner⟩ := (ofName_writtenName h).2 keys hkeys
  rcases exists_of_argumentKeys hinner with rfl | ⟨ps, -, hkeyed, rfl⟩
  · exact List.not_mem_nil
  · intro hempty
    obtain ⟨p, hp, hkey⟩ := List.mem_map.1 hempty
    exact hkeyed p hp (String.ofList_injective hkey)

theorem not_mem_writtenName (text : String) : '(' ∉ writtenName text := by
  intro hmem
  have := List.mem_takeWhile_imp (trim_subset _ hmem)
  exact absurd this (by decide)

/-- **A selector is read back from its text exactly where it is settled.** -/
theorem parse_display_iff (h : parse text = .ok s) :
    parse s.display = .ok s ↔ s.IsSettled := by
  obtain ⟨-, hname⟩ := toList_name h
  have hself := keyChars_name h
  have hargs := (ofName_writtenName h).2
  have hsolid : IsSolid s.name.toList := hname ▸ isSolid_keyChars _
  have hbefore : IsSolid (beforeBracket s.name.toList) :=
    fun c hc => hsolid c ((List.takeWhile_prefix _).subset hc)
  have hcall : '(' ∉ s.name.toList := fun hmem =>
    not_mem_writtenName text (keyChars_subset _ (hname ▸ hmem))
  have hreread {args : Option (List String)} {s' : Selector} :
      ofName s.name.toList args = .ok s' ↔
        beforeBracket s.name.toList ≠ [] ∧ s' = ⟨s.name, args⟩ := by
    rw [ofName_eq_ok_iff, hbefore.isWord_iff, hself, String.ofList_toList]
  rw [parse_eq_ok_iff]
  obtain ⟨name, args⟩ := s
  cases args with
  | none =>
    change ofChars (trim name.toList) = _ ↔ _
    rw [hsolid.trim_eq]
    by_cases hempty : name.toList = []
    · refine iff_of_false ?_ fun h => h.named ?_
      · rw [hempty]
        simp [ofChars]
      · exact congrArg beforeBracket hempty
    · rw [ofChars_eq_of_not_mem hcall hempty, hreread]
      exact ⟨fun h => ⟨h.1, by simp, by simp⟩, fun h => ⟨h.named, rfl⟩⟩
  | some keys =>
    obtain ⟨inner, hkeys⟩ := hargs keys rfl
    rw [toList_display_call, ofChars_trim_call hcall, bind_eq_ok, hsolid.trim_eq]
    constructor
    · rintro ⟨keys', hlist, hread⟩
      obtain ⟨hnamed, heq⟩ := hreread.1 hread
      cases heq
      obtain ⟨hunmarked, hvoid⟩ := (argumentKeys_keys_iff hkeys).1 hlist
      exact ⟨hnamed, hunmarked, fun h => hvoid (Option.some.inj h)⟩
    · intro h
      refine ⟨keys, ?_, hreread.2 ⟨h.named, rfl⟩⟩
      exact (argumentKeys_keys_iff hkeys).2
        ⟨h.unmarked, fun hvoid => h.notVoid (congrArg some hvoid)⟩

/-- A name has an empty key where it is made of marks alone. -/
theorem name_eq_empty_iff (h : parse text = .ok s) :
    s.name = "" ↔ dropScopeMarks (writtenName text) = [] := by
  obtain ⟨hword, hname⟩ := toList_name h
  have hsplit : beforeBracket (writtenName text) ++
      (writtenName text).dropWhile (· != '<') = writtenName text :=
    List.takeWhile_append_dropWhile
  rw [← String.toList_inj, hname, String.toList_empty, keyChars_of_isWord hword]
  rcases bracket_cases (writtenName text) with hnone | ⟨inside, hbracket⟩
  · rw [hnone, List.append_nil] at hsplit
    rw [hnone, hsplit, writtenName, trim_trim]
    simp [squeeze]
  · have hmarks : dropScopeMarks (beforeBracket (writtenName text) ++ '<' :: inside) =
        dropScopeMarks (beforeBracket (writtenName text)) ++ '<' :: inside :=
      dropScopeMarks_append (by simp)
    rw [hbracket] at hsplit
    rw [hsplit] at hmarks
    rw [hbracket, hmarks, squeeze, List.filter_cons_of_pos (by decide)]
    simp

/-- **What is read of a text, and whether it is read again.**  No type of it is empty, the name has
lost its marks and blanks for good, and is empty where nothing else was written; the selector is
read from its own text as itself exactly where it is settled. -/
theorem parse_normal (h : parse text = .ok s) :
    (∀ keys, s.args = some keys → "" ∉ keys) ∧ Name.key s.name = s.name ∧
      (s.name = "" ↔ dropScopeMarks (writtenName text) = []) ∧
      (parse s.display = .ok s ↔ s.IsSettled) :=
  ⟨fun _ => empty_not_mem_args h, by rw [key, keyChars_name h, String.ofList_toList],
    name_eq_empty_iff h, parse_display_iff h⟩

theorem parse_normal_get :
    parse " ::ns::get <int> ( const std::map<A, B>& ,void (*)(int, ::C) )" =
        .ok ⟨"ns::get<int>", some ["conststd::map<A,B>&", "void(*)(int,::C)"]⟩ ∧
      parse "ns::get<int>(conststd::map<A,B>&, void(*)(int,::C))" =
        .ok ⟨"ns::get<int>", some ["conststd::map<A,B>&", "void(*)(int,::C)"]⟩ := by
  have hread : parse " ::ns::get <int> ( const std::map<A, B>& ,void (*)(int, ::C) )" =
      .ok ⟨"ns::get<int>", some ["conststd::map<A,B>&", "void(*)(int,::C)"]⟩ := by decide
  exact ⟨hread, (parse_normal hread).2.2.2.2 (by decide)⟩

/-- Not every selector is settled: a name made of marks, a type that is written `::void`, and marks
that a blank holds apart. -/
theorem not_settled :
    (parse "::" = .ok ⟨"", none⟩ ∧ ¬∃ s, parse (display ⟨"", none⟩) = .ok s) ∧
      (parse "f(::void)" = .ok ⟨"f", some ["void"]⟩ ∧
        parse (display ⟨"f", some ["void"]⟩) = .ok ⟨"f", some []⟩) ∧
      (parse "f(:: ::int)" = .ok ⟨"f", some ["::int"]⟩ ∧
        parse (display ⟨"f", some ["::int"]⟩) = .ok ⟨"f", some ["int"]⟩) := by
  refine ⟨⟨by decide, ?_⟩, ⟨by decide, by decide⟩, by decide, by decide⟩
  rintro ⟨s, hs⟩
  cases hs

end Selector

end LoadBridge
