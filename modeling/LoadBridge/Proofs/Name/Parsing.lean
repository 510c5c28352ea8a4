import LoadBridge.Name.Qualified
import LoadBridge.Proofs.Name.Key
import LoadBridge.Proofs.Text.Balance
import LoadBridge.Proofs.Text.Scopes

/-!
# Names — A name is read as it was written

A written name is its scope and its short name with a `::` between any two of them, and it is read
by cutting it there.  Where every part can stand between two `::` (`IsSegment`) the reader finds the
parts again.  The parts that are read from a text without blanks need not be such: they may have
brackets that nothing closes and end in a colon.  They are pieces of one text all the same, which is
all that the reader needs (`parse_long_of_pieces`), so a name that was read is written in a form
that reads as the same name (`parse_long`).
-/

namespace LoadBridge

open Text

namespace Text

variable {cs rest : List Char} {ps : List (List Char)}

/-! ### Texts without blanks at the ends -/

theorem trim_eq_self_iff : trim cs = cs ↔ trimStart cs = cs ∧ trimEnd cs = cs := by
  constructor
  · intro h
    have hprefix : (trim cs).Sublist (trimStart cs) :=
      (List.rdropWhile_prefix isBlank (trimStart cs)).sublist
    rw [h] at hprefix
    have hstart : trimStart cs = cs := (List.dropWhile_sublist isBlank).antisymm hprefix
    exact ⟨hstart, by rwa [trim, hstart] at h⟩
  · rintro ⟨hstart, hend⟩
    rw [trim, hstart, hend]

/-- No blanks are at the ends of a text if none are at the start of its first part and at the end
of its last. -/
theorem trim_append_append (hcs : trim cs = cs) (hne : cs ≠ []) (hrest : trim rest = rest)
    (hne' : rest ≠ []) (between : List Char) :
    trim (cs ++ between ++ rest) = cs ++ between ++ rest := by
  obtain ⟨hstart, -⟩ := trim_eq_self_iff.1 hcs
  obtain ⟨-, hend⟩ := trim_eq_self_iff.1 hrest
  refine trim_eq_self_iff.2 ⟨?_, ?_⟩
  · rw [List.append_assoc, trimStart_append, hstart, if_neg hne]
  · rcases List.eq_nil_or_concat' rest with rfl | ⟨first, c, rfl⟩
    · exact absurd rfl hne'
    · rw [trimEnd_eq_rdropWhile, List.rdropWhile_eq_self_iff] at hend
      rw [← List.append_assoc]
      refine trimEnd_concat ?_
      simpa using hend hne'

theorem trim_intercalate (hps : ∀ p ∈ ps, p ≠ [] ∧ trim p = p) :
    trim ([':', ':'].intercalate ps) = [':', ':'].intercalate ps := by
  induction ps with
  | nil => rfl
  | cons p ps ih =>
    obtain ⟨⟨hne, hp⟩, hps⟩ := List.forall_mem_cons.1 hps
    cases ps with
    | nil => rwa [List.intercalate_singleton]
    | cons q ps =>
      rw [List.intercalate_cons_cons]
      refine trim_append_append hp hne (ih hps) (fun hnil => ?_) _
      have hq := (hps q List.mem_cons_self).1
      cases ps <;> simp [List.intercalate, hq] at hnil

end Text

namespace Name

variable {cs : List Char}

/-! ### Parts of a name -/

/-- A text that can be a part of a written name: there is something in it and no blank at its ends,
its template brackets are balanced, and every colon stands inside one of them. -/
structure IsSegment (cs : List Char) : Prop where
  ne_nil : cs ≠ []
  trim_eq : trim cs = cs
  angle : Balanced '<' '>' cs
  colon : ∀ first, first ++ [':'] <+: cs → first.count '>' < first.count '<'

/-- Only the beginnings of a text are to be looked at. -/
instance (cs : List Char) : Decidable (IsSegment cs) :=
  decidable_of_iff (cs ≠ [] ∧ trim cs = cs ∧ Balanced '<' '>' cs ∧
      ∀ first ∈ cs.inits, first ++ [':'] <+: cs → first.count '>' < first.count '<')
    ⟨fun h => ⟨h.1, h.2.1, h.2.2.1, fun first hfirst => h.2.2.2 first
        ((List.mem_inits _ _).2 ((List.prefix_append ..).trans hfirst)) hfirst⟩,
      fun h => ⟨h.ne_nil, h.trim_eq, h.angle, fun first _ => h.colon first⟩⟩

namespace IsSegment

theorem endsAtMark (h : IsSegment cs) : EndsAtMark 0 cs := by
  refine ⟨(isUnmarked_iff _ _).2 fun first hfirst => ?_, ?_⟩
  · -- of two colons the first is in the part, where a bracket is open before it
    have hcolon : first ++ [':'] <+: cs := by
      have hlength := hfirst.length_le
      refine List.prefix_of_prefix_length_le ?_ (List.prefix_append cs [':']) ?_
      · exact List.IsPrefix.trans ⟨[':'], by simp⟩ hfirst
      · simp only [List.length_append, List.length_cons, List.length_nil] at hlength ⊢
        omega
    have hprefix : first <+: cs := (List.prefix_append ..).trans hcolon
    have hopen := afterText_angle fun _ h' => h.angle.count_le _ (h'.trans hprefix)
    have hcount := h.colon first hcolon
    omega
  · have hopen := afterText_angle h.angle.count_le
    rw [h.angle.count_eq] at hopen
    omega

theorem areScopePieces {ps : List (List Char)} (hne : ps ≠ []) (hps : ∀ p ∈ ps, IsSegment p) :
    AreScopePieces 0 ps := by
  induction ps with
  | nil => exact absurd rfl hne
  | cons p ps ih =>
    obtain ⟨hp, hps⟩ := List.forall_mem_cons.1 hps
    cases ps with
    | nil => exact hp.endsAtMark.unmarked.of_append
    | cons q ps => exact ⟨hp.endsAtMark, ih (List.cons_ne_nil _ _) hps⟩

end IsSegment

end Name

namespace QualifiedName

open Name

variable {n : QualifiedName} {s : String}

/-- The texts that are written with `::` between them. -/
def parts (n : QualifiedName) : List (List Char) := (n.scope ++ [n.name]).map String.toList

theorem toList_long (n : QualifiedName) : n.long.toList = [':', ':'].intercalate n.parts := by
  rw [long, join, String.toList_intercalate]
  rfl

theorem ofList_parts (n : QualifiedName) : n.parts.map String.ofList = n.scope ++ [n.name] := by
  simp [parts]

/-- **A name whose parts are pieces of one text is read as it was written.** -/
theorem parse_long_of_pieces (hpieces : AreScopePieces 0 n.parts)
    (hparts : ∀ p ∈ n.parts, p ≠ [] ∧ trim p = p) : parse n.long = n := by
  have hne : n.parts.filter (fun p => !p.isEmpty) = n.parts :=
    List.filter_eq_self.2 fun p hp => by simpa using (hparts p hp).1
  have hread : splitScope (relative n.long) = n.scope ++ [n.name] := by
    rw [splitScope, relative, String.toList_ofList, toList_long,
      dropScopeMarks_intercalate hpieces fun p hp => (hparts p hp).1, trim_intercalate hparts,
      scopePieces_intercalate hpieces, hne, ofList_parts]
  rw [parse, hread]
  simp

/-- What is read has the parts that were found. -/
theorem parts_parse (h : splitScope (relative s) ≠ []) :
    (parse s).scope ++ [(parse s).name] = splitScope (relative s) := by
  obtain ⟨first, last, hsplit⟩ := (List.eq_nil_or_concat' _).resolve_left h
  simp [parse, hsplit]

/-- **A name that was read from a text without blanks is written in a form that reads as the same
name**, whatever colons and brackets the text has. -/
theorem parse_long (hs : IsSolid s.toList) : parse (parse s).long = parse s := by
  obtain ⟨text, hsolid, hsplit⟩ : ∃ text, IsSolid text ∧ splitScope (relative s) =
      ((scopePieces 0 text).filter fun p => !p.isEmpty).map .ofList := by
    refine ⟨dropScopeMarks s.toList, hs.dropScopeMarks, ?_⟩
    rw [splitScope, relative, String.toList_ofList, hs.dropScopeMarks.trim_eq]
  obtain hnone | hpieces := (areScopePieces_scopePieces 0 text).filter
  · -- nothing is left of a text of colons
    have hempty : parse s = ⟨[], ""⟩ := by
      rw [parse, hsplit, hnone]
      rfl
    rw [hempty]
    rfl
  · have hne : splitScope (relative s) ≠ [] := by
      intro hnil
      rw [hsplit, List.map_eq_nil_iff] at hnil
      rw [hnil] at hpieces
      exact hpieces
    have hparts : (parse s).parts = (scopePieces 0 text).filter fun p => !p.isEmpty := by
      rw [parts, parts_parse hne, hsplit]
      simp
    refine parse_long_of_pieces (by rwa [hparts]) fun p hp => ?_
    rw [hparts, List.mem_filter] at hp
    have hsub := subset_of_mem_scopePieces 0 text p hp.1
    exact ⟨by simpa using hp.2, IsSolid.trim_eq fun c hc => hsolid c (hsub hc)⟩

/-- **Names are read and written inversely.**  Every scope and short name whose parts can stand in a
written name are read as they were written; and a text without blanks may be malformed in any way,
the name that is read from it is written in a form that reads as the same name. -/
theorem parse_inverse_long :
    (∀ scope name, (∀ part ∈ scope ++ [name], IsSegment part.toList) →
      parse (long ⟨scope, name⟩) = ⟨scope, name⟩) ∧
    ∀ s : String, IsSolid s.toList → parse (parse s).long = parse s := by
  refine ⟨fun scope name hsegments => ?_, fun s hs => parse_long hs⟩
  have hparts : ∀ p ∈ parts ⟨scope, name⟩, IsSegment p := List.forall_mem_map.2 hsegments
  exact parse_long_of_pieces (IsSegment.areScopePieces (by simp [parts]) hparts)
    fun p hp => ⟨(hparts p hp).ne_nil, (hparts p hp).trim_eq⟩

/-- Marks and blanks inside brackets, and a text with too many colons and a bracket too many. -/
theorem parse_inverse_long_brackets :
    (∀ part ∈ ["ns", "Pair<a::B, int>"] ++ ["Set<x::y >"], IsSegment part.toList) ∧
      parse (long ⟨["ns", "Pair<a::B, int>"], "Set<x::y >"⟩) =
        ⟨["ns", "Pair<a::B, int>"], "Set<x::y >"⟩ ∧
    IsSolid ":::a::::b<c::d>>:::e:".toList ∧
      parse ":::a::::b<c::d>>:::e:" = ⟨[":a", "b<c::d>>"], ":e:"⟩ ∧
      parse (parse ":::a::::b<c::d>>:::e:").long = parse ":::a::::b<c::d>>:::e:" := by
  have hsegments : ∀ part ∈ ["ns", "Pair<a::B, int>"] ++ ["Set<x::y >"],
      IsSegment part.toList := by decide
  have hsolid : IsSolid ":::a::::b<c::d>>:::e:".toList := by simp [IsSolid, isBlank]
  exact ⟨hsegments, parse_inverse_long.1 _ _ hsegments, hsolid, by decide,
    parse_inverse_long.2 _ hsolid⟩

end QualifiedName

end LoadBridge
